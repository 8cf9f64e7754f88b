/-!
# Cutting a text at a mark
-/

namespace SchemaClasses.Text

/-- The parts of a text between marks.  There is one part more than there are marks. -/
def splitAt (mark : Char) : List Char → List (List Char)
  | [] => [[]]
  | c :: rest =>
    if c = mark then [] :: splitAt mark rest
    else
      match splitAt mark rest with
      | [] => [[c]]
      | first :: more => (c :: first) :: more

/-- There is always a part, if only an empty one. -/
theorem splitAt_ne_nil (mark : Char) (cs : List Char) : splitAt mark cs ≠ [] := by
  cases cs with
  | nil => simp [splitAt]
  | cons c rest =>
    rw [splitAt]
    split
    · simp
    · split <;> simp

/-- No part holds the mark. -/
theorem not_mem_of_mem_splitAt {mark : Char} {cs part : List Char}
    (h : part ∈ splitAt mark cs) : mark ∉ part := by
  induction cs generalizing part with
  | nil =>
    rw [splitAt, List.mem_singleton] at h
    simp [h]
  | cons c rest ih =>
    rw [splitAt] at h
    split at h
    · rcases List.mem_cons.1 h with rfl | h
      · simp
      · exact ih h
    · rename_i hc
      split at h
      · rw [List.mem_singleton] at h
        subst h
        simpa using fun e => hc e.symm
      · rename_i first more heq
        rcases List.mem_cons.1 h with rfl | h
        · intro hm
          rcases List.mem_cons.1 hm with e | hm
          · exact hc e.symm
          · exact ih (by rw [heq]; exact List.mem_cons_self) hm
        · exact ih (by rw [heq]; exact List.mem_cons_of_mem _ h)

theorem splitAt_of_not_mem {mark : Char} {cs : List Char} (h : mark ∉ cs) :
    splitAt mark cs = [cs] := by
  induction cs with
  | nil => rfl
  | cons c rest ih =>
    rw [List.mem_cons, not_or] at h
    rw [splitAt, if_neg (Ne.symm h.1), ih h.2]

/-- A mark between two texts is one more place to cut. -/
theorem splitAt_append_cons (mark : Char) (cs ys : List Char) :
    splitAt mark (cs ++ mark :: ys) = splitAt mark cs ++ splitAt mark ys := by
  induction cs with
  | nil => simp [splitAt]
  | cons c cs ih =>
    rw [List.cons_append, splitAt, splitAt, ih]
    by_cases hc : c = mark
    · rw [if_pos hc, if_pos hc, List.cons_append]
    · rw [if_neg hc, if_neg hc]
      cases hparts : splitAt mark cs with
      | nil => exact absurd hparts (splitAt_ne_nil mark cs)
      | cons first more => rfl

/-- The first part ends at the first mark. -/
theorem splitAt_append {mark : Char} {cs : List Char} (rest : List Char) (h : mark ∉ cs) :
    splitAt mark (cs ++ mark :: rest) = cs :: splitAt mark rest := by
  rw [splitAt_append_cons, splitAt_of_not_mem h, List.singleton_append]

/-- No mark stands at the beginning if the first part is not empty. -/
theorem takeWhile_of_splitAt {mark : Char} {cs first : List Char} {more : List (List Char)}
    (h : splitAt mark cs = first :: more) (hne : first ≠ []) :
    cs.takeWhile (· = mark) = [] := by
  cases cs with
  | nil => rfl
  | cons c rest =>
    by_cases hc : c = mark
    · rw [splitAt, if_pos hc] at h
      exact absurd (List.cons.inj h).1.symm hne
    · exact List.takeWhile_cons_of_neg (by simpa using hc)

/-- Parts that hold no mark are found again after they were joined. -/
theorem splitAt_intercalate {mark : Char} {parts : List (List Char)} (hne : parts ≠ [])
    (h : ∀ part ∈ parts, mark ∉ part) : splitAt mark ([mark].intercalate parts) = parts := by
  induction parts with
  | nil => exact absurd rfl hne
  | cons part rest ih =>
    obtain ⟨hpart, hrest⟩ := List.forall_mem_cons.1 h
    cases rest with
    | nil => rw [List.intercalate_singleton, splitAt_of_not_mem hpart]
    | cons next rest =>
      rw [List.intercalate_cons_cons, List.append_assoc, List.singleton_append,
        splitAt_append _ hpart, ih (List.cons_ne_nil next rest) hrest]

end SchemaClasses.Text
