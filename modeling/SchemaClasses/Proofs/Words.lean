import Mathlib.Data.List.TakeWhile
import Mathlib.Tactic.Lemma
import SchemaClasses.Text.ClassName

/-!
# Words of a text

A name is read from left to right, one character at a time, and what is carried along is the kind of
the character before.  What comes out is easier to say with the words at hand: `words` cuts a text
into its longest runs of characters of one kind, and a name is these words one after the other, each
with its first character in upper case (`joinWords_eq_flatMap`).

Two facts carry everything else.  A word that has begun goes on as long as the kind does not change
(`joinWords_some`), and a character without a kind separates what stands before it from what stands
behind it (`joinWords_append_cons`).
-/

namespace SchemaClasses.Text

variable {κ : Type} [DecidableEq κ] {kindOf : Char → Option κ}

/-- The words of a text: its longest runs of characters of one kind. -/
def words (kindOf : Char → Option κ) : List Char → List (List Char)
  | [] => []
  | c :: rest =>
    match kindOf c with
    | none => words kindOf rest
    | some k =>
      (c :: rest.takeWhile (kindOf · = some k)) :: words kindOf (rest.dropWhile (kindOf · = some k))
termination_by cs => cs.length
decreasing_by
  · simp
  · exact Nat.lt_succ_of_le (List.dropWhile_sublist _).length_le

@[simp] lemma words_nil : words kindOf [] = [] := by rw [words]

lemma words_cons_of_none {c : Char} (h : kindOf c = none) (rest : List Char) :
    words kindOf (c :: rest) = words kindOf rest := by
  rw [words, h]

lemma words_cons_of_some {c : Char} {k : κ} (h : kindOf c = some k) (rest : List Char) :
    words kindOf (c :: rest) = (c :: rest.takeWhile (kindOf · = some k)) ::
      words kindOf (rest.dropWhile (kindOf · = some k)) := by
  rw [words, h]

/-- The characters of a word are of one kind, and there is at least one. -/
lemma kind_of_mem_words {w cs : List Char} (h : w ∈ words kindOf cs) :
    ∃ c rest k, w = c :: rest ∧ ∀ d ∈ w, kindOf d = some k := by
  induction cs using words.induct kindOf with
  | case1 => simp at h
  | case2 c rest hkind ih =>
      rw [words_cons_of_none hkind] at h
      exact ih h
  | case3 c rest k hkind ih =>
      rw [words_cons_of_some hkind, List.mem_cons] at h
      rcases h with rfl | h
      · refine ⟨c, _, k, rfl, List.forall_mem_cons.2 ⟨hkind, fun d hd => ?_⟩⟩
        simpa using List.mem_takeWhile_imp hd
      · exact ih h

/-! ## Names of words -/

lemma joinWords_cons_of_none {c : Char} (h : kindOf c = none) (previous : Option κ)
    (rest : List Char) :
    joinWords kindOf previous (c :: rest) = joinWords kindOf none rest := by
  rw [joinWords, h]

lemma joinWords_cons_of_some {c : Char} {k : κ} (h : kindOf c = some k) (previous : Option κ)
    (rest : List Char) : joinWords kindOf previous (c :: rest) =
      (if previous = some k then [c] else upperChar c) ++ joinWords kindOf (some k) rest := by
  rw [joinWords, h]

/-- A character of a name is one of its text, or stands for one of them in upper case. -/
lemma exists_of_mem_joinWords {cs : List Char} {previous : Option κ} {d : Char}
    (h : d ∈ joinWords kindOf previous cs) :
    ∃ c ∈ cs, ∃ k, kindOf c = some k ∧ (d = c ∨ d ∈ upperChar c) := by
  induction cs generalizing previous with
  | nil => simp [joinWords] at h
  | cons c rest ih =>
      have hlater : ∀ {previous}, d ∈ joinWords kindOf previous rest →
          ∃ c' ∈ c :: rest, ∃ k, kindOf c' = some k ∧ (d = c' ∨ d ∈ upperChar c') := by
        intro previous hd
        obtain ⟨c', hc', hparts⟩ := ih hd
        exact ⟨c', List.mem_cons_of_mem c hc', hparts⟩
      cases hkind : kindOf c with
      | none =>
          rw [joinWords_cons_of_none hkind] at h
          exact hlater h
      | some k =>
          rw [joinWords_cons_of_some hkind, List.mem_append] at h
          rcases h with hfirst | hrest
          · refine ⟨c, List.mem_cons_self, k, hkind, ?_⟩
            split at hfirst
            · exact Or.inl (List.mem_singleton.1 hfirst)
            · exact Or.inr hfirst
          · exact hlater hrest

/-- **A word goes on as long as the kind does not change**, and then a new one begins. -/
lemma joinWords_some (k : κ) (cs : List Char) : joinWords kindOf (some k) cs =
    cs.takeWhile (kindOf · = some k) ++
      joinWords kindOf none (cs.dropWhile (kindOf · = some k)) := by
  induction cs with
  | nil => simp [joinWords]
  | cons c rest ih =>
      by_cases hsame : kindOf c = some k
      · rw [joinWords_cons_of_some hsame, if_pos rfl, ih,
          List.takeWhile_cons_of_pos (by simpa using hsame),
          List.dropWhile_cons_of_pos (by simpa using hsame)]
        rfl
      · rw [List.takeWhile_cons_of_neg (by simpa using hsame),
          List.dropWhile_cons_of_neg (by simpa using hsame), List.nil_append]
        cases hkind : kindOf c with
        | none => rw [joinWords_cons_of_none hkind, joinWords_cons_of_none hkind]
        | some k' =>
            have hchange : ¬ some k = some k' := fun heq => hsame (hkind.trans heq.symm)
            rw [joinWords_cons_of_some hkind, joinWords_cons_of_some hkind, if_neg hchange,
              if_neg (by simp)]

/-- **A name is the words of its text, each with its first character in upper case.** -/
theorem joinWords_eq_flatMap (cs : List Char) :
    joinWords kindOf none cs = (words kindOf cs).flatMap (mapFirst upperChar) := by
  induction cs using words.induct kindOf with
  | case1 => simp [joinWords]
  | case2 c rest hkind ih =>
      rw [joinWords_cons_of_none hkind, words_cons_of_none hkind, ih]
  | case3 c rest k hkind ih =>
      rw [joinWords_cons_of_some hkind, if_neg (by simp), joinWords_some, ih,
        words_cons_of_some hkind, List.flatMap_cons, mapFirst_cons, List.append_assoc]

/-- **A character without a kind separates words.** -/
theorem joinWords_append_cons {s : Char} (hs : kindOf s = none) (previous : Option κ)
    (before after : List Char) : joinWords kindOf previous (before ++ s :: after) =
      joinWords kindOf previous before ++ joinWords kindOf none after := by
  induction before generalizing previous with
  | nil => rw [List.nil_append, joinWords_cons_of_none hs, joinWords, List.nil_append]
  | cons c rest ih =>
      rw [List.cons_append]
      cases hkind : kindOf c with
      | none => rw [joinWords_cons_of_none hkind, joinWords_cons_of_none hkind, ih]
      | some k =>
          rw [joinWords_cons_of_some hkind, joinWords_cons_of_some hkind, ih, List.append_assoc]

end SchemaClasses.Text
