import SchemaClasses.Proofs.Words
import SchemaClasses.Proofs.Writing

/-!
# Names of class files

Component keys are arbitrary texts, and the names of class files are made from them.  What keeps
such a name out of trouble is that only letters and digits get into it, and their forms in upper
case, all of which stand behind the slash and the point in the order of characters
(`wordLike_pascalCase`).  A `Plain` name consists of characters that mean nothing to a path or to
the file system; it is a single step on a way and is stored as it is.  So a path of plain names leads
below the directory where it starts, by the names it is made of (`Output.target_intercalate`).
-/

namespace SchemaClasses

/-! ## Characters of words -/

namespace Text

/-- Behind the slash, and before the last code point of all. -/
def WordLike (c : Char) : Prop := '/'.toNat < c.toNat ∧ c.toNat < lastPoint

instance (c : Char) : Decidable (WordLike c) := inferInstanceAs (Decidable (_ ∧ _))

lemma wordLike_ofNat {n : Nat} (hvalid : n.isValidChar) (h : '/'.toNat < n ∧ n < lastPoint) :
    WordLike (Char.ofNat n) := by
  rwa [WordLike, toNat_ofNat hvalid]

lemma wordLike_of_contains {ranges : CodeRanges} {c : Char}
    (hranges : ∀ r ∈ ranges, '/'.toNat < r.1 ∧ r.2 < lastPoint)
    (h : ranges.contains c.toNat = true) : WordLike c := by
  obtain ⟨r, hr, hfirst, hlast⟩ := CodeRanges.contains_iff.1 h
  exact ⟨Nat.lt_of_lt_of_le (hranges r hr).1 hfirst, Nat.lt_of_le_of_lt hlast (hranges r hr).2⟩

lemma wordLike_of_isDigit {c : Char} (h : isDigit c = true) : WordLike c := by
  rw [isDigit] at h
  split at h
  · rename_i hascii
    rw [Bool.and_eq_true, decide_eq_true_eq, decide_eq_true_eq] at h
    exact ⟨Nat.lt_of_lt_of_le (by decide) h.1, Nat.lt_trans hascii (by decide)⟩
  · exact wordLike_of_contains (by decide +kernel) h

lemma wordLike_of_isLetter {c : Char} (h : isLetter c = true) : WordLike c := by
  rw [isLetter] at h
  split at h
  · rename_i hascii
    simp only [Bool.or_eq_true, Bool.and_eq_true, decide_eq_true_eq] at h
    refine ⟨?_, Nat.lt_trans hascii (by decide)⟩
    rcases h with ⟨hfirst, -⟩ | ⟨hfirst, -⟩
    · exact Nat.lt_of_lt_of_le (by decide) hfirst
    · exact Nat.lt_of_lt_of_le (by decide) hfirst
  · exact wordLike_of_contains (by decide +kernel) h

lemma wordLike_of_wordKind {c : Char} {kind : WordKind} (h : wordKind c = some kind) :
    WordLike c := by
  rw [wordKind] at h
  split at h
  · rename_i hdigit
    exact wordLike_of_isDigit hdigit
  · split at h
    · rename_i hletter
      exact wordLike_of_isLetter hletter
    · cases h

/-- The characters that one character becomes in upper case are listed. -/
lemma wordLike_of_upperExpansions : ∀ e ∈ upperExpansions, ∀ n ∈ e.2,
    n.isValidChar ∧ '/'.toNat < n ∧ n < lastPoint := by
  decide +kernel

/-- A run of characters keeps to one side of the halves. -/
lemma wordLike_of_upperRuns : ∀ r ∈ upperRuns,
    ('/'.toNat : Int) < r.first + r.shift ∧ r.last + r.shift < 0xD800 ∨
      (0xE000 : Int) ≤ r.first + r.shift ∧ r.last + r.shift < (lastPoint : Int) := by
  decide +kernel

lemma wordLike_of_moves {r : CaseRun} (hr : r ∈ upperRuns) {n : Nat} (h : r.moves n = true) :
    (r.target n).isValidChar ∧ '/'.toNat < r.target n ∧ r.target n < lastPoint := by
  simp only [CaseRun.moves, Bool.and_eq_true, decide_eq_true_eq] at h
  have hbounds := wordLike_of_upperRuns r hr
  have hslash : '/'.toNat = 0x2F := rfl
  rw [hslash, lastPoint] at hbounds ⊢
  rw [Nat.isValidChar, CaseRun.target]
  omega

/-- In upper case a small letter moves by a fixed distance, and no other character moves. -/
lemma toUpper_cases (c : Char) :
    ('a'.toNat ≤ c.toNat ∧ c.toNat ≤ 'z'.toNat ∧ c.toUpper.toNat + 32 = c.toNat) ∨
      (¬ ('a'.toNat ≤ c.toNat ∧ c.toNat ≤ 'z'.toNat) ∧ c.toUpper = c) := by
  by_cases hlower : 'a'.val ≤ c.val ∧ c.val ≤ 'z'.val
  · have hvalue : c.toUpper.val = c.val + ('A'.val - 'a'.val) := by
      change (dite _ _ _ : Char).val = _
      rw [dif_pos hlower]
    have hdistance : ('A'.val - 'a'.val).toNat = 2 ^ 32 - 32 := by decide
    have hfirst : 97 ≤ c.val.toNat := hlower.1
    have hlast : c.val.toNat ≤ 122 := hlower.2
    refine Or.inl ⟨hlower.1, hlower.2, ?_⟩
    rw [Char.toNat, Char.toNat, hvalue, UInt32.toNat_add, hdistance]
    omega
  · exact Or.inr ⟨hlower, dif_neg hlower⟩

lemma wordLike_toUpper {c : Char} (h : WordLike c) : WordLike c.toUpper := by
  rcases toUpper_cases c with ⟨hfirst, hlast, hmoved⟩ | ⟨-, hsame⟩
  · have hslash : '/'.toNat = 47 := rfl
    have ha : 'a'.toNat = 97 := rfl
    have hz : 'z'.toNat = 122 := rfl
    rw [WordLike, hslash, lastPoint]
    omega
  · rwa [hsame]

/-- A case map gives the expansion of a character, or where its run moves it, or itself. -/
lemma CaseMap.apply_cases (m : CaseMap) (c : Char) :
    (∃ codes, (c.toNat, codes) ∈ m.expansions ∧ m.apply c = codes.map Char.ofNat) ∨
      (∃ r ∈ m.runs, r.moves c.toNat = true ∧ m.apply c = [Char.ofNat (r.target c.toNat)]) ∨
        m.apply c = [c] := by
  rw [apply]
  split
  · rename_i codes hcodes
    obtain ⟨before, after, hsplit, -⟩ := List.lookup_eq_some_iff.1 hcodes
    rw [hsplit]
    exact Or.inl ⟨codes, List.mem_append_right before List.mem_cons_self, rfl⟩
  · split
    · rename_i r hr
      have hmoves : r.moves c.toNat = true := by simpa using List.find?_some hr
      exact Or.inr (Or.inl ⟨r, List.mem_of_find?_eq_some hr, hmoves, rfl⟩)
    · exact Or.inr (Or.inr rfl)

/-- What a character becomes in upper case: beyond the first half of a byte the tables tell. -/
lemma mem_upperChar {c d : Char} (h : d ∈ upperChar c) :
    (c.toNat < 128 ∧ d = c.toUpper) ∨
      128 ≤ c.toNat ∧
        ((∃ e ∈ upperExpansions, ∃ n ∈ e.2, d = Char.ofNat n) ∨
          (∃ r ∈ upperRuns, r.moves c.toNat = true ∧ d = Char.ofNat (r.target c.toNat)) ∨
            d = c) := by
  rw [upperChar] at h
  split at h
  · rename_i hascii
    exact Or.inl ⟨hascii, List.mem_singleton.1 h⟩
  · rename_i hascii
    refine Or.inr ⟨Nat.not_lt.1 hascii, ?_⟩
    rcases upperMap.apply_cases c with ⟨codes, hcodes, happly⟩ | ⟨r, hr, hmoves, happly⟩ | happly
    · rw [happly] at h
      obtain ⟨n, hn, rfl⟩ := List.mem_map.1 h
      exact Or.inl ⟨_, hcodes, n, hn, rfl⟩
    · rw [happly] at h
      exact Or.inr (Or.inl ⟨r, hr, hmoves, List.mem_singleton.1 h⟩)
    · rw [happly] at h
      exact Or.inr (Or.inr (List.mem_singleton.1 h))

/-- A word-like character stays so in upper case, whatever it becomes. -/
lemma wordLike_of_mem_upperChar {c d : Char} (hc : WordLike c) (h : d ∈ upperChar c) :
    WordLike d := by
  rcases mem_upperChar h with ⟨-, rfl⟩ | ⟨-, ⟨e, he, n, hn, rfl⟩ | ⟨r, hr, hmoves, rfl⟩ | rfl⟩
  · exact wordLike_toUpper hc
  · obtain ⟨hvalid, hbounds⟩ := wordLike_of_upperExpansions e he n hn
    exact wordLike_ofNat hvalid hbounds
  · obtain ⟨hvalid, hbounds⟩ := wordLike_of_moves hr hmoves
    exact wordLike_ofNat hvalid hbounds
  · exact hc

lemma wordLike_joinWords {cs : List Char} {previous : Option WordKind} {c : Char}
    (h : c ∈ joinWords wordKind previous cs) : WordLike c := by
  obtain ⟨d, -, kind, hkind, hbecomes⟩ := exists_of_mem_joinWords h
  have hd := wordLike_of_wordKind hkind
  rcases hbecomes with rfl | hupper
  · exact hd
  · exact wordLike_of_mem_upperChar hd hupper

/-- **All characters of a class name are word-like.** -/
theorem wordLike_pascalCase {s : String} {c : Char} (h : c ∈ (pascalCase s).toList) :
    WordLike c := by
  rw [pascalCase, String.toList_ofList] at h
  exact wordLike_joinWords h

end Text

/-! ## Plain names -/

namespace FileName

/-- A name without characters that mean something to a path or to a file system, and without a
meaning of its own. -/
structure Plain (name : String) : Prop where
  isStep : WrittenPath.isStep name = true
  ne_up : name ≠ Location.up
  slash : '/' ∉ name.toList
  null : Char.ofNat 0 ∉ name.toList
  mark : Text.mark ∉ name.toList

variable {name start ending : String}

lemma Plain.stored_eq (h : Plain name) : stored name = name :=
  stored_of_not_mem h.mark

/-- A plain name can be asked for. -/
lemma Plain.ofNames?_eq_none (h : Plain name) : OsError.ofNames? [name] = none := by
  have hbytes : hasBytes name = true := by
    rw [hasBytes, Text.codePoints_of_not_mem h.mark, List.all_map, List.all_eq_true]
    intro c hc
    simp [Text.isHalf_toNat]
  have hnull : hasNull name = false := by
    rw [hasNull, Text.codePoints_of_not_mem h.mark, ← Bool.not_eq_true, List.contains_iff_mem]
    intro hzero
    obtain ⟨c, hc, hc0⟩ := List.mem_map.1 hzero
    rw [← Char.ofNat_toNat c, hc0] at hc
    exact h.null hc
  simp [OsError.ofNames?, hbytes, hnull]

lemma not_mem_append (hstart : ∀ c ∈ start.toList, Text.WordLike c) {c : Char}
    (hc : ¬ Text.WordLike c) (hending : c ∉ ending.toList) : c ∉ (start ++ ending).toList := by
  rw [String.toList_append, List.mem_append]
  rintro (h | h)
  · exact hc (hstart c h)
  · exact hending h

lemma append_ne (hstart : ∀ c ∈ start.toList, Text.WordLike c) {other : String}
    (hother : ∀ c ∈ other.toList, ¬ Text.WordLike c) (hending : ending ≠ other) :
    start ++ ending ≠ other := by
  intro heq
  cases hcs : start.toList with
  | nil =>
      rw [String.toList_eq_nil_iff.1 hcs, String.empty_append] at heq
      exact hending heq
  | cons c cs =>
      have hc : c ∈ start.toList := by
        rw [hcs]
        exact List.mem_cons_self
      refine hother c ?_ (hstart c hc)
      rw [← heq, String.toList_append]
      exact List.mem_append_left _ hc

/-- A name that begins with a word and has a plain ending is plain. -/
lemma Plain.wordLike_append (hending : Plain ending)
    (hstart : ∀ c ∈ start.toList, Text.WordLike c) : Plain (start ++ ending) := by
  -- The names with a meaning of their own consist of points, and no word holds a point.
  have hpoint : ¬ Text.WordLike '.' := by decide
  have hpoints : ∀ other ∈ ["", ".", Location.up], ∀ c ∈ other.toList, ¬ Text.WordLike c := by
    simpa [Location.up] using hpoint
  obtain ⟨hstep, hup, hslash, hnull, hmark⟩ := hending
  simp only [WrittenPath.isStep, Bool.and_eq_true, decide_eq_true_eq] at hstep
  refine ⟨?_, append_ne hstart (hpoints _ (by simp)) hup,
    not_mem_append hstart (by decide) hslash, not_mem_append hstart (by decide) hnull,
    not_mem_append hstart (by decide) hmark⟩
  simp only [WrittenPath.isStep, Bool.and_eq_true, decide_eq_true_eq]
  exact ⟨append_ne hstart (hpoints _ (by simp)) hstep.1,
    append_ne hstart (hpoints _ (by simp)) hstep.2⟩

lemma plain_fileName (language : Language) (s : String) :
    Plain (language.fileName (Text.pascalCase s)) := by
  have hstart : ∀ c ∈ (Text.pascalCase s).toList, Text.WordLike c :=
    fun c hc => Text.wordLike_pascalCase hc
  cases language with
  | php => exact Plain.wordLike_append (by constructor <;> decide) hstart
  | csharp => exact Plain.wordLike_append (by constructor <;> decide) hstart

lemma plain_sourceDirectory (language : Language) : Plain language.sourceDirectory := by
  cases language <;> constructor <;> decide

lemma plain_of_mem_projectFiles {language : Language} (h : name ∈ language.projectFiles) :
    Plain name := by
  rcases List.mem_cons.1 h with rfl | h
  · constructor <;> decide
  · rw [List.mem_singleton.1 h]
    cases language <;> constructor <;> decide

end FileName

/-! ## Paths of plain names -/

/-- Names that are joined by slashes come apart at them again. -/
lemma WrittenPath.splitAt_toList_intercalate {names : List String} (hne : names ≠ [])
    (h : ∀ name ∈ names, '/' ∉ name.toList) :
    Text.splitAt '/' ("/".intercalate names).toList = names.map String.toList := by
  rw [String.toList_intercalate]
  refine Text.splitAt_intercalate (mt List.map_eq_nil_iff.1 hne) ?_
  rw [List.forall_mem_map]
  exact h

/-- **A path of plain names leads from name to name.** -/
theorem WrittenPath.ofText_intercalate {names : List String} (hne : names ≠ [])
    (h : ∀ name ∈ names, FileName.Plain name) : ofText ("/".intercalate names) = ⟨0, names⟩ := by
  have hparts := splitAt_toList_intercalate hne fun name hname => (h name hname).slash
  have hslashes : ("/".intercalate names).toList.takeWhile (· = '/') = [] := by
    cases names with
    | nil => exact absurd rfl hne
    | cons name rest =>
        refine Text.takeWhile_of_splitAt hparts ?_
        have hstep := (h name List.mem_cons_self).isStep
        simp only [isStep, Bool.and_eq_true, decide_eq_true_eq] at hstep
        exact mt String.toList_eq_nil_iff.1 hstep.1
  have hnames : (names.map String.toList).map String.ofList = names := by
    simp [Function.comp_def]
  rw [ofText, hparts, hslashes, hnames, List.filter_eq_self.2 fun name hname => (h name hname).isStep]
  rfl

/-- Below an output directory it stays where it leads to. -/
theorem Output.target_intercalate {names : List String} (root : Location) (hne : names ≠ [])
    (h : ∀ name ∈ names, FileName.Plain name) :
    target root ("/".intercalate names) = .ok (root ++ names) := by
  have hasked : (names.findSome? fun name => OsError.ofNames? [name]) = none := by
    rw [List.findSome?_eq_none_iff]
    exact fun name hname => (h name hname).ofNames?_eq_none
  have hup : Location.up ∉ names := fun hmem => (h _ hmem).ne_up rfl
  have hresolve : resolve root ("/".intercalate names) = .ok (root ++ names) := by
    rw [resolve, WrittenPath.ofText_intercalate hne h, hasked]
    exact congrArg Except.ok (Location.follow_of_not_mem hup)
  have hwithin : Location.isWithin root (root ++ names) = true := by
    rw [Location.isWithin, List.isPrefixOf_iff_prefix]
    exact List.prefix_append root names
  rw [target, hresolve]
  change (if Location.isWithin root (root ++ names) = true then _ else _) = _
  rw [if_pos hwithin]
  rfl

end SchemaClasses
