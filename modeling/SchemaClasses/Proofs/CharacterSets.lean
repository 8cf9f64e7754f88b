import SchemaClasses.Proofs.FileNames

/-!
# Letters, digits and upper case by their tables

What one character is, and what it becomes in upper case, is said by tables of some hundred rows.
A name that is made of changed characters is only understood if the tables agree with each other:
no letter is a digit, a letter becomes a letter, and what a character becomes is not changed again.

To compare two tables row by row takes as many steps as they have pairs of rows.  Here each of them
is one number instead, whose bits are the characters it holds (`CodeRanges.bits`, `bitsOf`), and two
tables that have nothing in common are two numbers whose conjunction is zero.

The module ends with all that is needed of upper case (`upperChar_of_wordKind`): a character of a
word begins, in upper case, with a character of its own kind that is in upper case already, and
behind that there are only characters of its kind and combining marks.
-/

namespace SchemaClasses.Text

/-! ## Sets of characters as numbers -/

/-- The number whose bits are the elements of a list. -/
def bitsOf : List Nat → Nat
  | [] => 0
  | n :: rest => 1 <<< n ||| bitsOf rest

lemma testBit_bitsOf_iff {ns : List Nat} {n : Nat} : (bitsOf ns).testBit n = true ↔ n ∈ ns := by
  induction ns with
  | nil => simp [bitsOf]
  | cons m rest ih =>
      rw [bitsOf, Nat.testBit_or, Bool.or_eq_true, ih, Nat.one_shiftLeft, Nat.testBit_two_pow,
        decide_eq_true_eq, List.mem_cons, eq_comm]

/-- Numbers without a common bit have no common element. -/
lemma testBit_of_and_eq_zero {a b n : Nat} (hand : a &&& b = 0) (h : a.testBit n = true) :
    b.testBit n = false := by
  have hbit : (a &&& b).testBit n = false := by rw [hand, Nat.zero_testBit]
  rwa [Nat.testBit_and, h, Bool.true_and] at hbit

namespace CodeRanges

variable {ranges : CodeRanges} {n : Nat}

/-- The number whose bits are the places in some ranges. -/
def bits : CodeRanges → Nat
  | [] => 0
  | (first, last) :: rest => ((1 <<< (last + 1 - first)) - 1) <<< first ||| bits rest

lemma testBit_bits_iff : ranges.bits.testBit n = true ↔ ranges.contains n = true := by
  induction ranges with
  | nil => simp [bits, contains]
  | cons p rest ih =>
      obtain ⟨first, last⟩ := p
      have hhead : (((1 <<< (last + 1 - first)) - 1) <<< first).testBit n = true ↔
          first ≤ n ∧ n ≤ last := by
        rw [Nat.testBit_shiftLeft, Nat.one_shiftLeft, Nat.testBit_two_pow_sub_one,
          Bool.and_eq_true, decide_eq_true_eq, decide_eq_true_eq]
        omega
      rw [bits, Nat.testBit_or, Bool.or_eq_true, hhead, ih, contains_iff, contains_iff]
      simp

/-- Ranges that agree on the first half of a byte hold the same of it. -/
lemma contains_of_mod {ranges' : CodeRanges} (h : ranges.bits % (1 <<< 128) = ranges'.bits)
    (hn : n < 128) : ranges.contains n = ranges'.contains n := by
  rw [Bool.eq_iff_iff, ← testBit_bits_iff, ← testBit_bits_iff, ← h, Nat.one_shiftLeft,
    Nat.testBit_mod_two_pow, decide_eq_true hn, Bool.true_and]

end CodeRanges

namespace CaseRun

variable {r : CaseRun} {n : Nat}

lemma moves_iff : r.moves n = true ↔
    r.first ≤ n ∧ n ≤ r.last ∧ (n - r.first) % r.step = 0 := by
  simp [moves, and_assoc]

/-- The places that a run moves. -/
def places (r : CaseRun) : List Nat := List.range' r.first ((r.last - r.first) / r.step + 1) r.step

lemma mem_places_of_moves (h : r.moves n = true) : n ∈ r.places := by
  obtain ⟨hfirst, hlast, hstep⟩ := moves_iff.1 h
  have hsteps := Nat.div_add_mod (n - r.first) r.step
  have hmonotone : (n - r.first) / r.step ≤ (r.last - r.first) / r.step :=
    Nat.div_le_div_right (Nat.sub_le_sub_right hlast r.first)
  rw [places, List.mem_range']
  exact ⟨(n - r.first) / r.step, by omega, by omega⟩

/-- Whether a run moves letters to letters. -/
def keepsLetters (r : CaseRun) : Bool := r.places.all fun n =>
  !letterRanges.bits.testBit n || letterRanges.bits.testBit (r.target n)

end CaseRun

/-! ## What the tables say -/

/-- The first block of combining marks.  A change of case gives no others. -/
def combiningMarks : Nat × Nat := (0x300, 0x36f)

/-- The characters that are changed in upper case. -/
def upperChanged : Nat := bitsOf (upperRuns.flatMap CaseRun.places ++ upperExpansions.map (·.1))

/-- The characters that others are moved to in upper case. -/
def upperTargets : Nat := bitsOf (upperRuns.flatMap fun r => r.places.map r.target)

/-- **How the sets of characters lie to each other.**  In the first half of a byte they are the
usual letters and digits; no letter is a digit, and a combining mark is neither; and what is a
digit, or what another character is moved to, is not changed in upper case.  All this is one
evaluation, because most of the work is to make the numbers. -/
lemma tables_agree :
    letterRanges.bits % (1 <<< 128) = CodeRanges.bits [(0x61, 0x7a), (0x41, 0x5a)] ∧
      digitRanges.bits % (1 <<< 128) = CodeRanges.bits [(0x30, 0x39)] ∧
      letterRanges.bits &&& digitRanges.bits = 0 ∧
      CodeRanges.bits [combiningMarks] &&& (letterRanges.bits ||| digitRanges.bits) = 0 ∧
      digitRanges.bits &&& upperChanged = 0 ∧ upperTargets &&& upperChanged = 0 := by
  decide +kernel

/-- Runs move letters to letters, and what becomes several characters begins with a letter in upper
case, with letters or marks behind it. -/
lemma letters_changed : ((upperRuns ++ lowerRuns).all CaseRun.keepsLetters) = true ∧
    (upperExpansions.all fun e =>
      (e.2.head?.any fun n => letterRanges.bits.testBit n && !upperChanged.testBit n) &&
        e.2.tail.all fun n => letterRanges.bits.testBit n ||
          Nat.ble combiningMarks.1 n && Nat.ble n combiningMarks.2) = true := by
  decide +kernel

/-! ## Letters and digits -/

variable {c d : Char} {k : WordKind}

lemma isLetter_eq (c : Char) : isLetter c = letterRanges.contains c.toNat := by
  obtain ⟨hletters, -⟩ := tables_agree
  rw [isLetter]
  split
  · rename_i hascii
    rw [CodeRanges.contains_of_mod hletters hascii, CodeRanges.contains_cons,
      CodeRanges.contains_cons, CodeRanges.contains_nil, Bool.or_false]
    rfl
  · rfl

lemma isDigit_eq (c : Char) : isDigit c = digitRanges.contains c.toNat := by
  obtain ⟨-, hdigits, -⟩ := tables_agree
  rw [isDigit]
  split
  · rename_i hascii
    rw [CodeRanges.contains_of_mod hdigits hascii, CodeRanges.contains_cons,
      CodeRanges.contains_nil, Bool.or_false]
    rfl
  · rfl

lemma testBit_letterRanges (c : Char) : letterRanges.bits.testBit c.toNat = isLetter c := by
  rw [Bool.eq_iff_iff, CodeRanges.testBit_bits_iff, isLetter_eq]

lemma testBit_digitRanges (c : Char) : digitRanges.bits.testBit c.toNat = isDigit c := by
  rw [Bool.eq_iff_iff, CodeRanges.testBit_bits_iff, isDigit_eq]

lemma isDigit_of_isLetter (h : isLetter c = true) : isDigit c = false := by
  obtain ⟨-, -, hapart, -⟩ := tables_agree
  rw [← testBit_letterRanges] at h
  rw [← testBit_digitRanges]
  exact testBit_of_and_eq_zero hapart h

lemma wordKind_eq_letters_iff : wordKind c = some .letters ↔ isLetter c = true := by
  constructor
  · intro h
    by_contra hne
    cases hdigit : isDigit c <;> simp [wordKind, hdigit, hne] at h
  · intro h
    rw [wordKind, isDigit_of_isLetter h, if_neg Bool.false_ne_true, if_pos h]

lemma wordKind_eq_digits_iff : wordKind c = some .digits ↔ isDigit c = true := by
  cases hdigit : isDigit c <;> cases hletter : isLetter c <;> simp [wordKind, hdigit, hletter]

/-- The characters of words are the alphanumeric ones. -/
lemma wordKind_eq_none_iff : wordKind c = none ↔ isAlphanumeric c = false := by
  cases hdigit : isDigit c <;> cases hletter : isLetter c <;>
    simp [wordKind, isAlphanumeric, hdigit, hletter]

lemma isAlphanumeric_of_wordKind (h : wordKind c = some k) : isAlphanumeric c = true := by
  by_contra hne
  rw [wordKind_eq_none_iff.2 (Bool.not_eq_true _ ▸ hne)] at h
  cases h

/-! ## Combining marks -/

/-- Whether a character is one of the combining marks. -/
def isCombining (c : Char) : Bool := combiningMarks.1 ≤ c.toNat && c.toNat ≤ combiningMarks.2

/-- A combining mark separates words. -/
lemma isAlphanumeric_of_isCombining (h : isCombining c = true) : isAlphanumeric c = false := by
  obtain ⟨-, -, -, hapart, -⟩ := tables_agree
  rw [isCombining, Bool.and_eq_true, decide_eq_true_eq, decide_eq_true_eq] at h
  have hbit : (CodeRanges.bits [combiningMarks]).testBit c.toNat = true :=
    CodeRanges.testBit_bits_iff.2 (CodeRanges.contains_iff.2 ⟨_, List.mem_singleton_self _, h⟩)
  have hnone := testBit_of_and_eq_zero hapart hbit
  rwa [Nat.testBit_or, testBit_letterRanges, testBit_digitRanges] at hnone

/-! ## Upper case -/

/-- The small letters of the first half of a byte are moved by a run as well. -/
lemma moves_or_toUpper_eq (c : Char) :
    (∃ r ∈ upperRuns, r.moves c.toNat = true ∧ c.toUpper.toNat = r.target c.toNat) ∨
      c.toUpper = c := by
  rcases toUpper_cases c with ⟨hfirst, hlast, hvalue⟩ | ⟨-, hsame⟩
  · refine Or.inl ⟨⟨0x61, 0x7a, 1, -32⟩, List.mem_cons_self,
      CaseRun.moves_iff.2 ⟨hfirst, hlast, Nat.mod_one _⟩, ?_⟩
    rw [← hvalue]
    change _ = (((c.toUpper.toNat + 32 : Nat) : Int) + (-32)).toNat
    omega
  · exact Or.inr hsame

/-- A character that no run moves and that does not become several stays as it is. -/
lemma upperChar_of_not_changed (h : upperChanged.testBit c.toNat = false) : upperChar c = [c] := by
  have hchanged : c.toNat ∉ upperRuns.flatMap CaseRun.places ++ upperExpansions.map (·.1) := by
    rw [← testBit_bitsOf_iff, ← upperChanged, h]
    exact Bool.false_ne_true
  rw [List.mem_append, not_or, List.mem_flatMap, List.mem_map] at hchanged
  have hruns : ∀ r ∈ upperRuns, ¬ r.moves c.toNat = true := fun r hr hmoves =>
    hchanged.1 ⟨r, hr, CaseRun.mem_places_of_moves hmoves⟩
  have hletters : ¬ ('a'.toNat ≤ c.toNat ∧ c.toNat ≤ 'z'.toNat) := fun hletter =>
    hruns ⟨0x61, 0x7a, 1, -32⟩ List.mem_cons_self
      (CaseRun.moves_iff.2 ⟨hletter.1, hletter.2, Nat.mod_one _⟩)
  rw [upperChar]
  split
  · rw [((toUpper_cases c).resolve_left fun h => hletters ⟨h.1, h.2.1⟩).2]
  · rcases upperMap.apply_cases c with ⟨codes, hcodes, -⟩ | ⟨r, hr, hmoves, -⟩ | happly
    · exact absurd ⟨_, hcodes, rfl⟩ hchanged.2
    · exact absurd hmoves (hruns r hr)
    · exact happly

/-- A digit is in upper case. -/
lemma upperChar_of_isDigit (h : isDigit c = true) : upperChar c = [c] := by
  obtain ⟨-, -, -, -, hdigits, -⟩ := tables_agree
  rw [← testBit_digitRanges] at h
  exact upperChar_of_not_changed (testBit_of_and_eq_zero hdigits h)

/-- A letter that is moved becomes a letter, in both cases. -/
lemma isLetter_of_moves {r : CaseRun} (hr : r ∈ upperRuns ++ lowerRuns)
    (hmoves : r.moves c.toNat = true) (hletter : isLetter c = true)
    (hvalue : d.toNat = r.target c.toNat) : isLetter d = true := by
  have hkeeps := List.all_eq_true.1 letters_changed.1 r hr
  have hkept := List.all_eq_true.1 hkeeps _ (CaseRun.mem_places_of_moves hmoves)
  rwa [testBit_letterRanges, hletter, ← hvalue, testBit_letterRanges] at hkept

/-- A letter that is moved in upper case is moved no further. -/
lemma upperChar_of_moves {r : CaseRun} (hr : r ∈ upperRuns) (hmoves : r.moves c.toNat = true)
    (hletter : isLetter c = true) (hvalue : d.toNat = r.target c.toNat) :
    isLetter d = true ∧ upperChar d = [d] := by
  have htarget : d.toNat ∈ upperRuns.flatMap fun r => r.places.map r.target := by
    rw [hvalue]
    exact List.mem_flatMap_of_mem hr (List.mem_map_of_mem (CaseRun.mem_places_of_moves hmoves))
  obtain ⟨-, -, -, -, -, hsettled⟩ := tables_agree
  exact ⟨isLetter_of_moves (List.mem_append_left lowerRuns hr) hmoves hletter hvalue,
    upperChar_of_not_changed (testBit_of_and_eq_zero hsettled (testBit_bitsOf_iff.2 htarget))⟩

/-- A letter that becomes several characters: one in upper case, and letters or marks behind it. -/
lemma exists_of_mem_upperExpansions {e : Nat × List Nat} (he : e ∈ upperExpansions) :
    ∃ d rest, e.2.map Char.ofNat = d :: rest ∧ isLetter d = true ∧ upperChar d = [d] ∧
      ∀ m ∈ rest, isLetter m = true ∨ isCombining m = true := by
  obtain ⟨n, codes⟩ := e
  have hvalid := wordLike_of_upperExpansions _ he
  have hparts := List.all_eq_true.1 letters_changed.2 _ he
  rw [Bool.and_eq_true] at hparts
  cases codes with
  | nil => cases hparts.1
  | cons m codes =>
      have hm := toNat_ofNat (hvalid m List.mem_cons_self).1
      have hhead := hparts.1
      rw [List.head?_cons, Option.any_some, ← hm, testBit_letterRanges, Bool.and_eq_true,
        Bool.not_eq_true'] at hhead
      refine ⟨.ofNat m, codes.map .ofNat, rfl, hhead.1, upperChar_of_not_changed hhead.2, ?_⟩
      rw [List.forall_mem_map]
      intro m' hm'
      have htail := List.all_eq_true.1 hparts.2 m' hm'
      have hvalue := toNat_ofNat (hvalid m' (List.mem_cons_of_mem m hm')).1
      rw [← hvalue, testBit_letterRanges, hvalue] at htail
      rw [isCombining, hvalue]
      simpa using htail

/-- **A letter in upper case** begins with a letter that is in upper case, and behind it there are
only letters and combining marks. -/
lemma upperChar_of_isLetter (h : isLetter c = true) : ∃ d rest, upperChar c = d :: rest ∧
    isLetter d = true ∧ upperChar d = [d] ∧
      ∀ e ∈ rest, isLetter e = true ∨ isCombining e = true := by
  by_cases hascii : c.toNat < 128
  · have hupper : upperChar c = [c.toUpper] := if_pos hascii
    rcases moves_or_toUpper_eq c with ⟨r, hr, hmoves, hvalue⟩ | hsame
    · have hmoved := upperChar_of_moves hr hmoves h hvalue
      exact ⟨_, [], hupper, hmoved.1, hmoved.2, List.forall_mem_nil _⟩
    · rw [hsame] at hupper
      exact ⟨c, [], hupper, h, hupper, List.forall_mem_nil _⟩
  · have hupper : upperChar c = upperMap.apply c := if_neg hascii
    rcases upperMap.apply_cases c with ⟨codes, hcodes, happly⟩ | ⟨r, hr, hmoves, happly⟩ | happly
    · obtain ⟨d, rest, hcons, hparts⟩ := exists_of_mem_upperExpansions hcodes
      exact ⟨d, rest, hupper.trans (happly.trans hcons), hparts⟩
    · have hvalue := toNat_ofNat (wordLike_of_moves hr hmoves).1
      have hmoved := upperChar_of_moves hr hmoves h hvalue
      exact ⟨_, [], hupper.trans happly, hmoved.1, hmoved.2, List.forall_mem_nil _⟩
    · have hsame := hupper.trans happly
      exact ⟨c, [], hsame, h, hsame, List.forall_mem_nil _⟩

/-- **A character of a word in upper case** begins with one of its kind that is in upper case. -/
lemma upperChar_of_wordKind (h : wordKind c = some k) : ∃ d rest, upperChar c = d :: rest ∧
    wordKind d = some k ∧ upperChar d = [d] ∧
      ∀ e ∈ rest, wordKind e = some k ∨ isCombining e = true := by
  cases k with
  | digits =>
      have hupper := upperChar_of_isDigit (wordKind_eq_digits_iff.1 h)
      exact ⟨c, [], hupper, h, hupper, List.forall_mem_nil _⟩
  | letters =>
      obtain ⟨d, rest, hupper, hd, hsettled, hrest⟩ :=
        upperChar_of_isLetter (wordKind_eq_letters_iff.1 h)
      exact ⟨d, rest, hupper, wordKind_eq_letters_iff.2 hd, hsettled,
        fun e he => (hrest e he).imp_left wordKind_eq_letters_iff.2⟩

end SchemaClasses.Text
