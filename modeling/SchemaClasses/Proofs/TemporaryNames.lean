import Mathlib.Tactic.Lemma
import SchemaClasses.Files.Tree

/-!
# Names of temporary files

A temporary file must not take the place of anything.  Its name is longer than all names in the
tree, but what counts is the name that the file system gives back, which may be shorter than the
one that was asked for: bytes that spell a character become this one character.  The end of a
temporary name is plain (`stored_append`), and it alone is long enough, so the name is new in every
directory (`node?_temporaryName`), whatever the name of the file that it is for.
-/

namespace SchemaClasses

/-! ## Code points -/

namespace Text

lemma pointsAfter_of_not_mem {cs : List Char} (h : mark ∉ cs) :
    pointsAfter false cs = cs.map Char.toNat := by
  induction cs with
  | nil => rfl
  | cons c rest ih =>
      rw [List.mem_cons, not_or] at h
      rw [pointsAfter, if_neg (Ne.symm h.1), ih h.2, List.map_cons]

lemma codePoints_of_not_mem {s : String} (h : mark ∉ s.toList) :
    codePoints s = s.toList.map Char.toNat :=
  pointsAfter_of_not_mem h

/-- Characters behind a point stand for themselves, whatever comes before it. -/
lemma pointsAfter_append (marked : Bool) (cs : List Char) {tail : List Char} (h : mark ∉ tail) :
    ∃ ns, pointsAfter marked (cs ++ '.' :: tail) = ns ++ tail.map Char.toNat := by
  have htail := pointsAfter_of_not_mem h
  induction cs generalizing marked with
  | nil =>
      cases marked with
      | true => exact ⟨[markedPoint '.'], by rw [List.nil_append, pointsAfter, htail]; rfl⟩
      | false =>
          have hpoint : '.' ≠ mark := by decide
          refine ⟨['.'.toNat], ?_⟩
          rw [List.nil_append, pointsAfter, if_neg hpoint, htail]
          rfl
  | cons c rest ih =>
      cases marked with
      | true =>
          obtain ⟨ns, hns⟩ := ih false
          exact ⟨markedPoint c :: ns, by rw [List.cons_append, pointsAfter, hns]; rfl⟩
      | false =>
          by_cases hc : c = mark
          · obtain ⟨ns, hns⟩ := ih true
            exact ⟨ns, by rw [List.cons_append, pointsAfter, if_pos hc, hns]⟩
          · obtain ⟨ns, hns⟩ := ih false
            exact ⟨c.toNat :: ns, by rw [List.cons_append, pointsAfter, if_neg hc, hns]; rfl⟩

lemma isHalf_toNat (c : Char) : isHalf c.toNat = false := by
  have hvalid : c.toNat.isValidChar := c.valid
  simp only [Nat.isValidChar] at hvalid
  simp only [isHalf, Bool.and_eq_false_iff, decide_eq_false_iff_not]
  omega

lemma length_le_encode (ns : List Nat) : ns.length ≤ (encode ns).length := by
  induction ns with
  | nil => exact Nat.le_refl 0
  | cons n rest ih =>
      have hpoint : 1 ≤ (encodePoint n).length := by
        rw [encodePoint]
        split
        · simp
        · split <;> simp
      have hcons : encode (n :: rest) = encodePoint n ++ encode rest := List.flatMap_cons
      rw [hcons, List.length_append, List.length_cons]
      omega

end Text

/-! ## Stored names -/

namespace FileName

lemma isLoneByte_toNat (c : Char) : isLoneByte c.toNat = false := by
  have hhalf := Text.isHalf_toNat c
  simp only [Text.isHalf, Bool.and_eq_false_iff, decide_eq_false_iff_not] at hhalf
  rw [isLoneByte, Bool.and_eq_false_iff, decide_eq_false_iff_not, decide_eq_false_iff_not, byteZero]
  omega

lemma any_isLoneByte_map (cs : List Char) : (cs.map Char.toNat).any isLoneByte = false := by
  simp [isLoneByte_toNat]

/-- What spells a character is a run of bytes. -/
lemma firstSpelled?_eq_some {ns : List Nat} {c : Char} {k : Nat}
    (h : firstSpelled? ns = some (c, k)) : ∀ n ∈ ns.take k, isLoneByte n = true := by
  obtain ⟨k', -, hk⟩ := List.exists_of_findSome?_eq_some h
  obtain ⟨c', hspelled, hck⟩ := Option.map_eq_some_iff.1 hk
  obtain ⟨-, rfl⟩ := Prod.mk.inj hck
  rw [spelled?] at hspelled
  split at hspelled
  · rename_i hall
    exact List.all_eq_true.1 hall
  · simp at hspelled

/-- Nothing is spelled across the first code point that shows no byte, so what begins there stays. -/
lemma settled_append (xs : List Nat) {ys : List Nat} (h : ys.any isLoneByte = false) :
    ∃ zs, settled (xs ++ ys) = zs ++ ys := by
  induction hlength : xs.length using Nat.strongRecOn generalizing xs with
  | ind length ih =>
      subst hlength
      cases xs with
      | nil => exact ⟨[], settled_eq_self h⟩
      | cons n rest =>
          rw [List.cons_append, settled]
          split
          · rename_i c k hfirst
            by_cases hk : k - 1 ≤ rest.length
            · rw [List.drop_append_of_le_length hk]
              obtain ⟨zs, hzs⟩ := ih (rest.drop (k - 1)).length
                (by rw [List.length_drop, List.length_cons]; omega) _ rfl
              exact ⟨c.toNat :: zs, by rw [hzs, List.cons_append]⟩
            · cases ys with
              | nil => exact ⟨_, (List.append_nil _).symm⟩
              | cons y ys =>
                  have htake : y ∈ (n :: (rest ++ y :: ys)).take k := by
                    have hlong : k - (n :: rest).length = (k - rest.length - 2) + 1 := by
                      rw [List.length_cons]
                      omega
                    rw [← List.cons_append, List.take_append, hlong, List.take_succ_cons]
                    exact List.mem_append_right _ List.mem_cons_self
                  rw [List.any_cons, firstSpelled?_eq_some hfirst y htake] at h
                  cases h
          · obtain ⟨zs, hzs⟩ := ih rest.length (Nat.lt_succ_self _) rest rfl
            exact ⟨n :: zs, by rw [hzs, List.cons_append]⟩

lemma stored_of_not_mem {name : String} (h : Text.mark ∉ name.toList) : stored name = name := by
  refine stored_eq_self ?_
  rw [Text.codePoints_of_not_mem h]
  exact any_isLoneByte_map _

/-- **A name is given back at least as long as its plain end.** -/
lemma length_le_stored (start : List Char) {tail : List Char} (h : Text.mark ∉ tail) :
    tail.length ≤ (stored (String.ofList (start ++ '.' :: tail))).length := by
  obtain ⟨ns, hns⟩ := Text.pointsAfter_append false start h
  have hpoints : Text.codePoints (String.ofList (start ++ '.' :: tail)) =
      ns ++ tail.map Char.toNat := by
    rw [Text.codePoints, String.toList_ofList, hns]
  rw [stored]
  split
  · obtain ⟨zs, hzs⟩ := settled_append ns (any_isLoneByte_map tail)
    have hencode := Text.length_le_encode (settled (ns ++ tail.map Char.toNat))
    rw [hpoints, String.length_ofList]
    rw [hzs, List.length_append, List.length_map] at hencode
    rw [hzs]
    omega
  · rw [String.length_ofList, List.length_append, List.length_cons]
    omega

end FileName

/-! ## Names in a tree -/

namespace FileTree

variable {t : FileTree}

lemma le_foldl_max {ns : List Nat} {m n : Nat} (h : n ≤ m ∨ n ∈ ns) : n ≤ ns.foldl max m := by
  induction ns generalizing m with
  | nil => simpa using h
  | cons k rest ih =>
      rw [List.foldl_cons]
      refine ih ?_
      rcases h with h | h
      · exact Or.inl (Nat.le_trans h (Nat.le_max_left m k))
      · rcases List.mem_cons.1 h with rfl | h
        · exact Or.inl (Nat.le_max_right m n)
        · exact Or.inr h

lemma length_le_longestName {l : Location} {n : FileNode} (h : t.entries.get? l = some n) :
    (l.getLast?.getD "").length ≤ t.longestName := by
  obtain ⟨⟨l', n'⟩, hfind, -⟩ := Option.map_eq_some_iff.1 h
  have hl : l' = l := by simpa using List.find?_some hfind
  rw [longestName]
  refine le_foldl_max (Or.inr ?_)
  refine List.mem_map.2 ⟨_, List.mem_of_find?_eq_some hfind, ?_⟩
  rw [hl]

lemma longestName_lt (t : FileTree) (name : String) :
    t.longestName < (FileName.stored (t.temporaryName name)).length := by
  have hname : t.temporaryName name = String.ofList ('.' :: name.toList ++
      '.' :: (List.replicate t.longestName '_' ++ ['.', 't', 'm', 'p'])) := by
    rw [temporaryName, ← String.toList_inj]
    simp
  have hplain : Text.mark ∉ List.replicate t.longestName '_' ++ ['.', 't', 'm', 'p'] := by
    rw [List.mem_append, List.mem_replicate]
    rintro (⟨-, hmark⟩ | hmark)
    · exact absurd hmark (by decide)
    · exact absurd hmark (by decide)
  have hlength := FileName.length_le_stored ('.' :: name.toList) hplain
  rw [← hname, List.length_append, List.length_replicate] at hlength
  exact Nat.lt_of_lt_of_le (Nat.lt_add_of_pos_right (by decide)) hlength

/-- **Nothing stands under a temporary name.** -/
theorem node?_temporaryName (t : FileTree) (directory : Location) (name : String) :
    t.node? (directory ++ [t.temporaryName name]) = none := by
  rw [node?, if_neg (by simp)]
  cases hnode : t.entries.get? (Location.stored (directory ++ [t.temporaryName name])) with
  | none => rfl
  | some n =>
      have hlast : Location.stored (directory ++ [t.temporaryName name]) =
          Location.stored directory ++ [FileName.stored (t.temporaryName name)] := List.map_append
      have hlength := length_le_longestName hnode
      rw [hlast, List.getLast?_concat] at hlength
      exact absurd (longestName_lt t name) (Nat.not_lt.2 hlength)

end FileTree

end SchemaClasses
