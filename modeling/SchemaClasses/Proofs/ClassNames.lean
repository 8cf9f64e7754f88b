import SchemaClasses.Proofs.CharacterSets
import SchemaClasses.Proofs.Words

/-!
# Class names of class names

A class name is made of words whose first characters are in upper case.  Made again from itself, it
is cut into words at other places, because the words of the first text now stand side by side; but
each longer word still begins with a character in upper case, and that is not changed a second time.
So nothing happens, with one exception: a letter may become a letter with combining marks behind it
in upper case, and the marks are left out the second time.

Behind this stands what the tables say about one character (`upperChar_of_wordKind`).  It follows
that the part of a class name before its first mark is its own class name (`joinWords_takeWhile`),
and that what follows a mark never begins with one (`exists_of_joinWords_cons`).
-/

namespace SchemaClasses.Text

variable {d : Char} {k : WordKind}

/-- A name begins with a character in upper case, of the kind of its first word. -/
lemma exists_of_joinWords_cons {cs rest : List Char}
    (h : joinWords wordKind none cs = d :: rest) : ∃ c w ws k,
      words wordKind cs = (c :: w) :: ws ∧ wordKind c = some k ∧ wordKind d = some k := by
  rw [joinWords_eq_flatMap] at h
  cases hwords : words wordKind cs with
  | nil => simp [hwords] at h
  | cons w ws =>
      obtain ⟨c, w', k, rfl, hkind⟩ := kind_of_mem_words (hwords ▸ List.mem_cons_self)
      have hc := hkind c List.mem_cons_self
      obtain ⟨d', others, hupper, hd', -⟩ := upperChar_of_wordKind hc
      rw [hwords, List.flatMap_cons, mapFirst_cons, hupper] at h
      obtain ⟨rfl, -⟩ := List.cons.inj h
      exact ⟨c, w', ws, k, rfl, hc, hd'⟩

/-- A word whose first character is in upper case is kept. -/
lemma joinWords_cons_append {run : List Char} (hsettled : upperChar d = [d])
    (hkind : ∀ e ∈ d :: run, wordKind e = some k) (previous : Option WordKind)
    (after : List Char) :
    joinWords wordKind previous (d :: run ++ after) =
      d :: run ++ joinWords wordKind (some k) after := by
  obtain ⟨hd, hrun⟩ := List.forall_mem_cons.1 hkind
  have hkept : joinWords wordKind (some k) (run ++ after) =
      run ++ joinWords wordKind (some k) after := by
    clear hkind
    induction run with
    | nil => rfl
    | cons e run ih =>
        obtain ⟨he, hrun⟩ := List.forall_mem_cons.1 hrun
        rw [List.cons_append, joinWords_cons_of_some he, if_pos rfl, ih hrun]
        rfl
  rw [List.cons_append, joinWords_cons_of_some hd, hsettled, ite_self, hkept]
  rfl

/-- **What stands before the first mark of a name is its own name.**  The induction is on the text
of the name; the kind of the last character of the text is that of the last character of the name,
so a word of the text that goes on is inside a word of the name. -/
lemma joinWords_takeWhile (cs : List Char) (previous previous' : Option WordKind)
    (h : ∀ k, previous = some k → previous' = some k) :
    joinWords wordKind previous' ((joinWords wordKind previous cs).takeWhile isAlphanumeric) =
      (joinWords wordKind previous cs).takeWhile isAlphanumeric := by
  induction cs generalizing previous previous' with
  | nil => simp [joinWords]
  | cons c rest ih =>
      cases hkind : wordKind c with
      | none =>
          rw [joinWords_cons_of_none hkind]
          exact ih none previous' (by simp)
      | some k =>
          rw [joinWords_cons_of_some hkind]
          have hrest := ih (some k) (some k) fun _ => id
          by_cases hsame : previous = some k
          · rw [if_pos hsame, List.singleton_append,
              List.takeWhile_cons_of_pos (isAlphanumeric_of_wordKind hkind),
              joinWords_cons_of_some hkind, if_pos (h k hsame), hrest]
            rfl
          · obtain ⟨d, others, hupper, hd, hsettled, hothers⟩ := upperChar_of_wordKind hkind
            -- Only a part of what the character becomes may be left, but its beginning is.
            have hrun : ∀ e ∈ d :: others.takeWhile isAlphanumeric, wordKind e = some k := by
              refine List.forall_mem_cons.2 ⟨hd, fun e he => ?_⟩
              refine (hothers e ((List.takeWhile_sublist _).mem he)).resolve_right fun hmark => ?_
              have hkept := List.mem_takeWhile_imp he
              rw [isAlphanumeric_of_isCombining hmark] at hkept
              cases hkept
            rw [if_neg hsame, hupper, List.cons_append,
              List.takeWhile_cons_of_pos (isAlphanumeric_of_wordKind hd), List.takeWhile_append]
            split
            · rename_i hall
              have hothers : others.takeWhile isAlphanumeric = others :=
                (List.takeWhile_sublist _).eq_of_length hall
              rw [hothers] at hrun
              rw [← List.cons_append, joinWords_cons_append hsettled hrun, hrest]
            · have hpart := joinWords_cons_append hsettled hrun previous' []
              rwa [joinWords, List.append_nil] at hpart

/-- A name that is its own name has no marks: what stands behind the first of them would have to
begin with it. -/
lemma isAlphanumeric_of_joinWords_eq {cs : List Char}
    (h : joinWords wordKind none (joinWords wordKind none cs) = joinWords wordKind none cs) :
    ∀ c ∈ joinWords wordKind none cs, isAlphanumeric c = true := by
  have hpart := joinWords_takeWhile cs none none fun _ => id
  have hsplit := (joinWords wordKind none cs).takeWhile_append_dropWhile (p := isAlphanumeric)
  cases hrest : (joinWords wordKind none cs).dropWhile isAlphanumeric with
  | nil => exact List.dropWhile_eq_nil_iff.1 hrest
  | cons m after =>
      have hmark : isAlphanumeric m = false := by
        have hhead := List.head_dropWhile_not isAlphanumeric (hrest ▸ List.cons_ne_nil m after)
        simpa only [hrest, List.head_cons] using hhead
      rw [hrest] at hsplit
      rw [← hsplit, joinWords_append_cons (wordKind_eq_none_iff.2 hmark), hpart,
        List.append_right_inj] at h
      obtain ⟨-, -, -, k, -, -, hkind⟩ := exists_of_joinWords_cons h
      rw [isAlphanumeric_of_wordKind hkind] at hmark
      cases hmark

/-- The marks of a name come from letters at the beginning of words. -/
lemma exists_mark_iff (cs : List Char) :
    (∃ c ∈ joinWords wordKind none cs, isAlphanumeric c = false) ↔
      ∃ w ∈ words wordKind cs, ∃ c, w.head? = some c ∧ isLetter c = true ∧
        ∃ d ∈ upperChar c, isCombining d = true := by
  simp only [joinWords_eq_flatMap, List.mem_flatMap]
  constructor
  · rintro ⟨m, ⟨w, hw, hm⟩, hmark⟩
    obtain ⟨c, rest, k, rfl, hkind⟩ := kind_of_mem_words hw
    obtain ⟨hc, hrest⟩ := List.forall_mem_cons.1 hkind
    have hkept : ∀ d, wordKind d = some k → m ≠ d := by
      rintro d hd rfl
      rw [isAlphanumeric_of_wordKind hd] at hmark
      cases hmark
    have hfirst : m ∈ upperChar c := by
      rw [mapFirst_cons, List.mem_append] at hm
      exact hm.resolve_right fun hm => hkept m (hrest m hm) rfl
    cases k with
    | digits =>
        rw [upperChar_of_isDigit (wordKind_eq_digits_iff.1 hc), List.mem_singleton] at hfirst
        exact absurd hfirst (hkept c hc)
    | letters =>
        refine ⟨_, hw, c, rfl, wordKind_eq_letters_iff.1 hc, m, hfirst, ?_⟩
        obtain ⟨d, others, hupper, hd, -, hothers⟩ := upperChar_of_wordKind hc
        rw [hupper] at hfirst
        have hmem := (List.mem_cons.1 hfirst).resolve_left (hkept d hd)
        exact (hothers m hmem).resolve_left fun hm => hkept m hm rfl
  · rintro ⟨w, hw, c, hhead, -, m, hm, hmark⟩
    obtain ⟨rest, rfl⟩ := List.head?_eq_some_iff.1 hhead
    refine ⟨m, ⟨_, hw, ?_⟩, isAlphanumeric_of_isCombining hmark⟩
    exact List.mem_append_left rest hm

/-- **A class name is its own class name exactly if all its characters are alphanumeric**, and that
fails exactly if a word of the text begins with a letter that has combining marks in upper case. -/
theorem pascalCase_pascalCase_eq_iff (t : String) :
    (pascalCase (pascalCase t) = pascalCase t ↔
      ∀ c ∈ (pascalCase t).toList, isAlphanumeric c = true) ∧
    ((∃ c ∈ (pascalCase t).toList, isAlphanumeric c = false) ↔
      ∃ w ∈ words wordKind t.toList, ∃ c, w.head? = some c ∧ isLetter c = true ∧
        ∃ d ∈ upperChar c, isCombining d = true) := by
  have hname : (pascalCase t).toList = joinWords wordKind none t.toList := String.toList_ofList
  have hfixed : pascalCase (pascalCase t) = pascalCase t ↔
      joinWords wordKind none (joinWords wordKind none t.toList) =
        joinWords wordKind none t.toList := by
    rw [← String.toList_inj, pascalCase, String.toList_ofList, hname]
  rw [hfixed, hname]
  refine ⟨⟨isAlphanumeric_of_joinWords_eq, fun h => ?_⟩, exists_mark_iff t.toList⟩
  have hpart := joinWords_takeWhile t.toList none none fun _ => id
  rwa [List.takeWhile_eq_self_iff.2 h] at hpart

end SchemaClasses.Text
