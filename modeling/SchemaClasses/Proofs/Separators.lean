import SchemaClasses.Proofs.CharacterSets
import SchemaClasses.Proofs.Words

/-!
# Names are made piece by piece

What stands before a separator and what stands behind it do not touch each other: the name of a text
is the name of the one part followed by the name of the other.  So it is the words alone that make a
name, and it does not matter which separators stand between them, nor how many (`names_of_separated`).

The same names are found by other ways of reading.  A class name may be made in two steps, by turning
every run of separators into a space first and looking for words then (`pascalCase_eq_spaced`), and
the name of a channel's class by putting a space for each separator and cutting at the spaces, where
empty parts come out and count for nothing (`channelClassName_eq_splitAt`).
-/

namespace SchemaClasses.Text

/-! ## Runs of separators -/

section Runs

variable {κ : Type} [DecidableEq κ] {kindOf : Char → Option κ} {run : List Char}

/-- Separators at the beginning of a text give nothing. -/
lemma joinWords_none_append (hrun : ∀ c ∈ run, kindOf c = none) (after : List Char) :
    joinWords kindOf none (run ++ after) = joinWords kindOf none after := by
  induction run with
  | nil => rfl
  | cons c rest ih =>
      obtain ⟨hc, hrest⟩ := List.forall_mem_cons.1 hrun
      rw [List.cons_append, joinWords_cons_of_none hc, ih hrest]

/-- **A run of separators cuts a name in two**, however long it is. -/
theorem joinWords_append_run (hne : run ≠ []) (hrun : ∀ c ∈ run, kindOf c = none)
    (previous : Option κ) (before after : List Char) :
    joinWords kindOf previous (before ++ run ++ after) =
      joinWords kindOf previous before ++ joinWords kindOf none after := by
  obtain ⟨s, rest, rfl⟩ := List.exists_cons_of_ne_nil hne
  obtain ⟨hs, hrest⟩ := List.forall_mem_cons.1 hrun
  rw [List.append_assoc, List.cons_append, joinWords_append_cons hs, joinWords_none_append hrest]

/-- A text with a single space for every longest run of separators. -/
def spaced (isSeparator : Char → Bool) : List Char → List Char
  | [] => []
  | c :: rest =>
    if isSeparator c then ' ' :: spaced isSeparator (rest.dropWhile isSeparator)
    else c :: spaced isSeparator rest
termination_by cs => cs.length
decreasing_by
  · exact Nat.lt_succ_of_le (List.dropWhile_sublist _).length_le
  · simp

/-- Spaces in the place of separators change no name. -/
lemma joinWords_spaced {isSeparator : Char → Bool}
    (hseparator : ∀ c, isSeparator c = true → kindOf c = none) (hspace : kindOf ' ' = none)
    (previous : Option κ) (cs : List Char) :
    joinWords kindOf previous (spaced isSeparator cs) = joinWords kindOf previous cs := by
  induction cs using spaced.induct isSeparator generalizing previous with
  | case1 => rw [spaced]
  | case2 c rest hc ih =>
      have hrun : ∀ d ∈ rest.takeWhile isSeparator, kindOf d = none := fun d hd =>
        hseparator d (List.mem_takeWhile_imp hd)
      have hskip := joinWords_none_append hrun (rest.dropWhile isSeparator)
      rw [List.takeWhile_append_dropWhile] at hskip
      rw [spaced, if_pos hc, joinWords_cons_of_none hspace,
        joinWords_cons_of_none (hseparator c hc), ih, hskip]
  | case3 c rest hc ih =>
      rw [spaced, if_neg hc, joinWords, joinWords]
      cases kindOf c with
      | none => exact ih none
      | some k => exact congrArg _ (ih (some k))

end Runs

/-! ## Class names -/

/-- The separators that people put between words: underscores, hyphens, points, slashes, angle
brackets, braces and white space. -/
def separatorRanges : CodeRanges := [
    (0x09, 0x0d), (0x1c, 0x20), (0x2d, 0x2f), (0x3c, 0x3c), (0x3e, 0x3e), (0x5f, 0x5f), (0x7b, 0x7b),
    (0x7d, 0x7d), (0x85, 0x85), (0xa0, 0xa0), (0x1680, 0x1680), (0x2000, 0x200a), (0x2028, 0x2029),
    (0x202f, 0x202f), (0x205f, 0x205f), (0x3000, 0x3000)]

def isSeparator (c : Char) : Bool := separatorRanges.contains c.toNat

variable {c d : Char}

lemma separators_apart :
    separatorRanges.bits &&& (letterRanges.bits ||| digitRanges.bits) = 0 := by
  decide +kernel

/-- No separator is alphanumeric. -/
lemma isAlphanumeric_of_isSeparator (h : isSeparator c = true) : isAlphanumeric c = false := by
  have hnone := testBit_of_and_eq_zero separators_apart (CodeRanges.testBit_bits_iff.2 h)
  rwa [Nat.testBit_or, testBit_letterRanges, testBit_digitRanges] at hnone

/-- **A class name in two steps**: the words of the text in which every run of separators is a
space, each with its first character in upper case. -/
theorem pascalCase_eq_spaced (s : String) : pascalCase s =
    String.ofList ((words wordKind (spaced isSeparator s.toList)).flatMap (mapFirst upperChar)) := by
  have hkind : ∀ c, isSeparator c = true → wordKind c = none := fun c hc =>
    wordKind_eq_none_iff.2 (isAlphanumeric_of_isSeparator hc)
  rw [← joinWords_eq_flatMap, joinWords_spaced hkind (hkind ' ' (by decide)), pascalCase]

/-! ## Names of channel classes -/

lemma channelWordKind_eq_none_iff : channelWordKind c = none ↔ c ∈ channelSeparators := by
  simp [channelWordKind]

/-- A space in the place of a separator, and every other character itself. -/
def blanked (c : Char) : Char := if channelSeparators.contains c then ' ' else c

/-- The parts between the spaces; a word that began earlier keeps its first part as it is. -/
lemma joinWords_channelWordKind (cs : List Char) :
    joinWords channelWordKind none cs =
        (splitAt ' ' (cs.map blanked)).flatMap (mapFirst upperChar) ∧
      joinWords channelWordKind (some ()) cs =
        (splitAt ' ' (cs.map blanked)).headD [] ++
          (splitAt ' ' (cs.map blanked)).tail.flatMap (mapFirst upperChar) := by
  induction cs with
  | nil => simp [joinWords, splitAt]
  | cons c rest ih =>
      obtain ⟨hnone, hsome⟩ := ih
      rw [List.map_cons]
      by_cases hc : c ∈ channelSeparators
      · have hkind := channelWordKind_eq_none_iff.2 hc
        have hblank : blanked c = ' ' := if_pos (by simpa using hc)
        rw [joinWords_cons_of_none hkind, joinWords_cons_of_none hkind, hblank, splitAt, if_pos rfl,
          hnone]
        simp
      · have hkind : channelWordKind c = some () := by simp [channelWordKind, hc]
        have hblank : blanked c = c := if_neg (by simpa using hc)
        have hspace : ¬ c = ' ' := by
          rintro rfl
          exact hc (by decide)
        rw [joinWords_cons_of_some hkind, joinWords_cons_of_some hkind, if_neg (by simp), if_pos rfl,
          hsome, hblank, splitAt, if_neg hspace]
        cases hparts : splitAt ' ' (rest.map blanked) with
        | nil => exact absurd hparts (splitAt_ne_nil ' ' _)
        | cons first more => simp

/-- **The name of a channel's class in two steps**: what stands between the spaces once every
separator is one, each part with its first character in upper case. -/
theorem channelClassName_eq_splitAt (s : String) : channelClassName s =
    String.ofList ((splitAt ' ' (s.toList.map blanked)).flatMap (mapFirst upperChar)) := by
  rw [channelClassName, (joinWords_channelWordKind s.toList).1]

/-- The characters that others become in upper case, alone or as one of several. -/
def upperResults : Nat := upperTargets ||| bitsOf (upperExpansions.flatMap (·.2))

lemma upperResults_apart : upperResults &&& bitsOf (channelSeparators.map Char.toNat) = 0 := by
  decide +kernel

/-- In upper case a character stays as it is, or becomes what the tables list. -/
lemma eq_or_testBit_of_mem_upperChar (h : d ∈ upperChar c) :
    d = c ∨ upperResults.testBit d.toNat = true := by
  have hmoved : ∀ {r : CaseRun}, r ∈ upperRuns → r.moves c.toNat = true →
      d.toNat = r.target c.toNat → upperResults.testBit d.toNat = true := by
    intro r hr hmoves hvalue
    have hplace := List.mem_map_of_mem (f := r.target) (CaseRun.mem_places_of_moves hmoves)
    rw [upperResults, Nat.testBit_or, Bool.or_eq_true, hvalue]
    exact Or.inl (testBit_bitsOf_iff.2 (List.mem_flatMap_of_mem hr hplace))
  rcases mem_upperChar h with ⟨-, rfl⟩ | ⟨-, ⟨e, he, n, hn, rfl⟩ | ⟨r, hr, hmoves, rfl⟩ | rfl⟩
  · rcases moves_or_toUpper_eq c with ⟨r, hr, hmoves, hvalue⟩ | hsame
    · exact Or.inr (hmoved hr hmoves hvalue)
    · exact Or.inl hsame
  · refine Or.inr ?_
    rw [toNat_ofNat (wordLike_of_upperExpansions e he n hn).1, upperResults, Nat.testBit_or,
      Bool.or_eq_true]
    exact Or.inr (testBit_bitsOf_iff.2 (List.mem_flatMap_of_mem he hn))
  · exact Or.inr (hmoved hr hmoves (toNat_ofNat (wordLike_of_moves hr hmoves).1))
  · exact Or.inl rfl

/-- Upper case makes no separator. -/
lemma not_mem_channelSeparators (h : d = c ∨ d ∈ upperChar c) (hc : c ∉ channelSeparators) :
    d ∉ channelSeparators := by
  rcases h.elim Or.inl eq_or_testBit_of_mem_upperChar with rfl | hresult
  · exact hc
  · intro hmem
    have hbit := testBit_bitsOf_iff.2 (List.mem_map_of_mem (f := Char.toNat) hmem)
    rw [testBit_of_and_eq_zero upperResults_apart hresult] at hbit
    cases hbit

/-! ## Both names -/

/-- A text between two others that separates their words in a class name: at least one character,
none of them alphanumeric. -/
structure Separation (run : String) : Prop where
  ne_empty : run ≠ ""
  separates : ∀ c ∈ run.toList, isAlphanumeric c = false

lemma separation_ofList {cs : List Char} (hne : cs ≠ [])
    (h : ∀ c ∈ cs, isAlphanumeric c = false) : Separation (String.ofList cs) := by
  refine ⟨fun hempty => hne ?_, ?_⟩
  · rw [← String.toList_ofList (l := cs), hempty, String.toList_empty]
  · rwa [String.toList_ofList]

/-- The tables end before the private characters that stand for halves of pairs. -/
lemma ranges_below : ∀ r ∈ letterRanges ++ digitRanges, r.2 < halfDistance := by decide +kernel

lemma isAlphanumeric_of_halfDistance_le (h : halfDistance ≤ c.toNat) :
    isAlphanumeric c = false := by
  have hnone : ∀ ranges : CodeRanges, (∀ r ∈ ranges, r ∈ letterRanges ++ digitRanges) →
      ranges.contains c.toNat = false := by
    intro ranges hranges
    rw [Bool.eq_false_iff]
    intro hcontains
    obtain ⟨r, hr, -, hlast⟩ := CodeRanges.contains_iff.1 hcontains
    have hbelow := ranges_below r (hranges r hr)
    omega
  rw [isAlphanumeric, isLetter_eq, isDigit_eq,
    hnone letterRanges fun _ => List.mem_append_left _,
    hnone digitRanges fun _ => List.mem_append_right _, Bool.or_false]

/-- Half of a pair is written by two characters that separate words. -/
lemma separation_half {n : Nat} (h : isHalf n = true) :
    Separation (String.ofList (encodePoint n)) := by
  rw [encodePoint, if_pos h]
  refine separation_ofList (List.cons_ne_nil _ _) (List.forall_mem_cons.2 ⟨?_, ?_⟩)
  · refine isAlphanumeric_of_halfDistance_le ?_
    rw [toNat_mark]
    decide
  · rw [List.forall_mem_singleton]
    refine isAlphanumeric_of_halfDistance_le ?_
    rw [toNat_half h]
    exact Nat.le_add_right halfDistance n

lemma Separation.pascalCase_append {run : String} (h : Separation run) (before after : String) :
    pascalCase (before ++ run ++ after) = pascalCase before ++ pascalCase after := by
  have hne : run.toList ≠ [] := mt String.toList_eq_nil_iff.1 h.ne_empty
  have hkind : ∀ c ∈ run.toList, wordKind c = none := fun c hc =>
    wordKind_eq_none_iff.2 (h.separates c hc)
  rw [pascalCase, String.toList_append, String.toList_append, joinWords_append_run hne hkind,
    String.ofList_append, pascalCase, pascalCase]

lemma channelClassName_append {s : Char} (hs : s ∈ channelSeparators) (before after : String) :
    channelClassName (before ++ String.singleton s ++ after) =
      channelClassName before ++ channelClassName after := by
  rw [channelClassName, String.toList_append, String.toList_append, String.toList_singleton,
    List.append_assoc, List.singleton_append,
    joinWords_append_cons (channelWordKind_eq_none_iff.2 hs), String.ofList_append,
    channelClassName, channelClassName]

/-- **Names are made piece by piece.**  A class name is that of what stands before a separation,
followed by that of what stands behind it; so one separation may stand for any other.  Underscores,
other signs, white space and combining marks are separations, and so are halves of pairs.  The same
is true of the name of a channel's class and its separators, and none of these is left in the name. -/
theorem names_of_separated :
    (∀ c, isSeparator c = true ∨ isCombining c = true → Separation (String.singleton c)) ∧
    (∀ n, isHalf n = true → Separation (String.ofList (encodePoint n))) ∧
    (∀ before run after : String, Separation run →
      pascalCase (before ++ run ++ after) = pascalCase before ++ pascalCase after) ∧
    (∀ before run run' after : String, Separation run → Separation run' →
      pascalCase (before ++ run ++ after) = pascalCase (before ++ run' ++ after)) ∧
    (∀ before after : String, ∀ s ∈ ['/', '<', '>', '{', '}', '-', ' '],
      channelClassName (before ++ String.singleton s ++ after) =
        channelClassName before ++ channelClassName after) ∧
    ∀ name : String, ∀ s ∈ ['/', '<', '>', '{', '}', '-', ' '],
      s ∉ (channelClassName name).toList := by
  refine ⟨fun c hc => ?_, fun n hn => separation_half hn,
    fun before run after h => h.pascalCase_append before after,
    fun before run run' after h h' => ?_,
    fun before after s hs => channelClassName_append hs before after, fun name s hs hmem => ?_⟩
  · have hnone := hc.elim isAlphanumeric_of_isSeparator isAlphanumeric_of_isCombining
    exact separation_ofList (List.cons_ne_nil c []) (List.forall_mem_singleton.2 hnone)
  · rw [h.pascalCase_append, h'.pascalCase_append]
  · rw [channelClassName, String.toList_ofList] at hmem
    obtain ⟨c, -, kind, hkind, hbecomes⟩ := exists_of_mem_joinWords hmem
    have hc : c ∉ channelSeparators := by
      rw [← channelWordKind_eq_none_iff, hkind]
      exact Option.some_ne_none kind
    exact not_mem_channelSeparators hbecomes hc hs

theorem names_of_signedUp :
    Separation "_" ∧ Separation (String.ofList (encodePoint 0xd83d)) ∧
    pascalCase ("user" ++ "_" ++ "signedUp") = "User" ++ "SignedUp" ∧
    pascalCase ("user" ++ "_" ++ "signedUp") =
      pascalCase ("user" ++ String.ofList (encodePoint 0xd83d) ++ "signedUp") ∧
    channelClassName ("user" ++ "/" ++ "{id}/signed-up") = "User" ++ "IdSignedUp" ∧
    '-' ∉ (channelClassName "user/{id}/signed-up").toList := by
  obtain ⟨hsingle, hhalves, hpieces, hsame, hchannel, hclear⟩ := names_of_separated
  have hunder : Separation "_" := hsingle '_' (Or.inl (by decide))
  have hhalf : Separation (String.ofList (encodePoint 0xd83d)) := hhalves _ (by decide)
  have hnames : pascalCase "user" = "User" ∧ pascalCase "signedUp" = "SignedUp" := by
    decide +kernel
  have hchannels : channelClassName "user" = "User" ∧
      channelClassName "{id}/signed-up" = "IdSignedUp" := by
    decide +kernel
  refine ⟨hunder, hhalf, ?_, hsame _ _ _ _ hunder hhalf, ?_, hclear _ '-' (by simp)⟩
  · rw [hpieces _ _ _ hunder, hnames.1, hnames.2]
  · rw [← hchannels.1, ← hchannels.2]
    exact hchannel _ _ '/' (by simp)

end SchemaClasses.Text
