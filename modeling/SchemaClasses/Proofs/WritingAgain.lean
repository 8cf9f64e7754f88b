import SchemaClasses.Proofs.Overlay
import SchemaClasses.Proofs.SameTrees

/-!
# Writing once more

Whether a file can be written depends on the tree in two ways only: something may be in the way to
it, and a directory may be in its place.  All else that is asked for, of names, lengths and
characters, is the same in every tree.  So what was written once can be written into any tree in
which the directories above it are there and none is in its place (`writeOne_again`), and the tree
after writing is such a tree.  Writing the same files once more is then not refused, and changes
nothing (`writeAll_again`).

Of artifacts the same holds if files may be overwritten.  If they may not, all of them are found in
their places (`writeArtifacts_occupied`).
-/

namespace SchemaClasses

/-! ## Ways that are there -/

lemma Location.above_of_prefix {l l' : Location} (h : l <+: l') (hne : l ≠ l') : l.Above l' := by
  refine ⟨h.map FileName.stored, fun heq => hne (h.eq_of_length ?_)⟩
  have hlength := congrArg List.length heq
  rwa [stored, stored, List.length_map, List.length_map] at hlength

namespace FileTree

variable {t u u' : FileTree} {here l : Location} {names : List String}

/-- All directories on a way are there, the one it ends at included. -/
def HasWay (t : FileTree) (l : Location) : Prop := ∀ before, before <+: l → t.isDirectory before

lemma hasWay_of_above {name : String} (h : ∀ l', l'.Above (l ++ [name]) → t.isDirectory l') :
    t.HasWay l :=
  fun _ hbefore => h _ (Location.above_concat_iff.2 (hbefore.map FileName.stored))

lemma HasWay.node?_of_cons {name : String} (h : t.HasWay (here ++ name :: names)) :
    t.node? (here ++ [name]) = some .directory := by
  refine isDirectory_iff.1 (h _ ?_)
  rw [List.append_cons here name names]
  exact List.prefix_append _ _

/-- Along directories that are there none is made. -/
lemma makeWay_of_hasWay {made : Bool} (hup : Location.up ∉ names) (h : t.HasWay (here ++ names)) :
    t.makeWay here made names = (t, .ok (here ++ names)) := by
  induction names generalizing here with
  | nil => rw [makeWay, List.append_nil]
  | cons name rest ih =>
      rw [List.mem_cons, not_or] at hup
      rw [makeWay]
      dsimp only
      rw [if_neg (Ne.symm hup.1), h.node?_of_cons]
      rw [List.append_cons here name rest] at h ⊢
      exact ih hup.2 h

lemma missing_of_hasWay (hup : Location.up ∉ names) (h : t.HasWay (here ++ names)) :
    t.missing here names = 0 := by
  induction names generalizing here with
  | nil => rw [missing]
  | cons name rest ih =>
      rw [List.mem_cons, not_or] at hup
      rw [missing, Location.step, if_neg (Ne.symm hup.1), h.node?_of_cons]
      rw [List.append_cons here name rest] at h
      exact ih hup.2 h

/-- A directory that could be made in some tree can be made where it is there, and nothing is
done. -/
lemma makeDirectory_again (hup : Location.up ∉ names) (h : u.makeDirectory names = (u', .ok l))
    (hway : t.HasWay names) : t.makeDirectory names = (t, .ok names) := by
  rw [makeDirectory] at h ⊢
  split at h
  · cases h
  · split at h
    · cases h
    · rename_i hfits
      rw [if_neg hfits, missing_of_hasWay hup hway, if_neg (by decide)]
      exact makeWay_of_hasWay hup hway

/-- Along directories that are there, what stands at the end of the way is found. -/
lemma walk?_of_above (hup : Location.up ∉ names)
    (h : ∀ l, l.Above (here ++ names) → t.isDirectory l) (hpresent : t.present (here ++ names)) :
    t.walk? here names = some (here ++ names) := by
  induction names generalizing here with
  | nil =>
      rw [List.append_nil] at hpresent ⊢
      rw [walk?, if_pos hpresent]
  | cons name rest ih =>
      rw [List.mem_cons, not_or] at hup
      have hhere : here.Above (here ++ name :: rest) :=
        Location.above_of_prefix (List.prefix_append _ _) (by simp)
      rw [walk?, if_pos (h here hhere), Location.step, if_neg (Ne.symm hup.1)]
      rw [List.append_cons here name rest] at h hpresent ⊢
      exact ih hup.2 h hpresent

/-- What is found on a way that is short enough can be looked at. -/
lemma refusesLook_of_above (hup : Location.up ∉ l) (hfits : Location.fits 0 l = true)
    (h : ∀ l', l'.Above l → t.isDirectory l') (hpresent : t.present l = true) :
    t.refusesLook l = false := by
  have hfound : t.walk? [] l = some l := walk?_of_above hup h hpresent
  rw [refusesLook, hfits, hfound]
  rfl

end FileTree

namespace Output

open FileTree (HasWay)

variable {t t' u u' : FileTree} {l : Location} {content : String} {atomic : Bool}
  {files : List (Location × String)}

/-! ## One file -/

lemma replaceFile_again {directory : Location} {names : List String}
    (h : replaceFile u directory names content = (u', .ok ()))
    (hfree : t.isDirectory (directory ++ [names.getLast?.getD ""]) = false) :
    ∃ t', replaceFile t directory names content = (t', .ok ()) := by
  rw [replaceFile] at h ⊢
  dsimp only at h ⊢
  split at h
  · cases h
  · split_ifs at h with hlength hhalf hname hnames
    · cases h
    · cases h
    · cases h
    · cases h
    · rw [if_neg hlength, if_neg hhalf, if_neg hname, if_neg hnames]
      set temporary := directory ++ [t.temporaryName (names.getLast?.getD "")] with htemporary
      have hnew : t.isDirectory temporary = false := by
        rw [FileTree.isDirectory, FileTree.node?_temporaryName]
        rfl
      have hne : temporary ≠ [] := by simp [htemporary]
      rw [FileTree.renameFile, FileTree.isDirectory_put_file hne hnew, hfree,
        FileTree.content?_put_file hne, if_pos rfl]
      exact ⟨_, rfl⟩

lemma writeFile_again (h : u.writeFile l content = (u', .ok ())) (hfree : t.isDirectory l = false) :
    ∃ t', t.writeFile l content = (t', .ok ()) := by
  rw [FileTree.writeFile] at h ⊢
  split_ifs at h with hdirectory hlength hhalf
  · cases h
  · cases h
  · cases h
  · rw [hfree, if_neg Bool.false_ne_true, if_neg hlength, if_neg hhalf]
    exact ⟨_, rfl⟩

/-- **What was written once can be written again**, into any tree in which the way to it is there
and no directory is in its place. -/
theorem writeOne_again {f : Location × String} (hup : Location.up ∉ f.1)
    (h : writeOne atomic u f = (u', .ok ())) (hway : ∀ l, l.Above f.1 → t.isDirectory l)
    (hfree : t.isDirectory f.1 = false) : ∃ t', writeOne atomic t f = (t', .ok ()) := by
  obtain ⟨l, content⟩ := f
  rcases List.eq_nil_or_concat l with rfl | ⟨directory, name, rfl⟩
  · cases hfree
  · rw [List.concat_eq_append] at hup h hway hfree ⊢
    dsimp only at hup hfree
    have hdirectory : Location.up ∉ directory := fun hmem => hup (List.mem_append_left _ hmem)
    have hthere := FileTree.hasWay_of_above hway
    cases atomic with
    | true =>
        change write u (directory ++ [name]) content = _ at h
        change ∃ t', write t (directory ++ [name]) content = _
        rw [write, List.dropLast_concat] at h ⊢
        split at h
        · cases h
        · rename_i made place hmade
          obtain rfl := FileTree.location_of_makeDirectory hmade
          rw [Location.follow_of_not_mem hdirectory, List.nil_append] at h
          rw [FileTree.makeDirectory_again hdirectory hmade hthere]
          refine replaceFile_again h ?_
          rwa [List.getLast?_concat, Option.getD_some]
    | false =>
        change writePlain u (directory ++ [name]) content = _ at h
        change ∃ t', writePlain t (directory ++ [name]) content = _
        rw [writePlain, List.dropLast_concat] at h ⊢
        split at h
        · cases h
        · rename_i made place hmade
          rw [FileTree.makeDirectory_again hdirectory hmade hthere]
          exact writeFile_again h hfree

/-! ## Many files -/

/-- Files that were written in some tree can be written where all their ways are there. -/
lemma exists_writeAll (hup : ∀ f ∈ files, Location.up ∉ f.1)
    (h : writeAll atomic u files = (u', .ok ()))
    (hway : ∀ f ∈ files, ∀ l, l.Above f.1 → t.isDirectory l)
    (hfree : ∀ f ∈ files, t.isDirectory f.1 = false) :
    ∃ t', writeAll atomic t files = (t', .ok ()) := by
  induction files generalizing t u with
  | nil => exact ⟨t, rfl⟩
  | cons f rest ih =>
      rw [List.forall_mem_cons] at hup hway hfree
      rw [writeAll_cons] at h
      split at h
      · rename_i made hmade
        obtain ⟨next, hnext⟩ := writeOne_again hup.1 hmade hway.1 hfree.1
        -- The directories above the file are there already, so no others come to them.
        have hkept : ∀ l, next.isDirectory l = t.isDirectory l := by
          intro l
          rw [Bool.eq_iff_iff, isDirectory_of_writeOne hup.1 hnext, or_iff_left_of_imp (hway.1 l)]
        rw [writeAll_cons, hnext]
        refine ih hup.2 h (fun g hg l habove => ?_) (fun g hg => ?_)
        · rw [hkept]
          exact hway.2 g hg l habove
        · rw [hkept]
          exact hfree.2 g hg
      · cases h

lemma exists_lastWritten?_of_mem {f : Location × String} (h : f ∈ files) :
    ∃ content, lastWritten? files f.1 = some content := by
  rw [← Option.isSome_iff_exists, lastWritten?, Option.isSome_map, List.find?_isSome]
  exact ⟨f, List.mem_reverse.2 h, beq_self_eq_true _⟩

/-- Where files have been written stand files. -/
lemma exists_content_of_writeAll (hup : ∀ f ∈ files, Location.up ∉ f.1)
    (h : writeAll atomic t files = (t', .ok ())) {f : Location × String} (hf : f ∈ files) :
    ∃ content, t'.content? f.1 = some content := by
  obtain ⟨content, hcontent⟩ := exists_lastWritten?_of_mem hf
  refine ⟨content, ?_⟩
  rw [content?_of_writeAll hup h, hcontent, Option.some_or]

/-- Laying files over a tree a second time changes nothing. -/
lemma overlay_of_overlaid (h : ∀ l, t'.node? l = overlay t files l) (l : Location) :
    overlay t' files l = t'.node? l := by
  have hl := h l
  rw [overlay] at hl ⊢
  split
  · rename_i content hcontent
    rw [hl, hcontent]
  · rename_i hnone
    rw [hnone] at hl
    split
    · rename_i habove
      rw [hl]
      exact (if_pos habove).symm
    · rfl

/-- **Writing files once more changes nothing**, and none is refused. -/
theorem writeAll_again (hup : ∀ f ∈ files, Location.up ∉ f.1)
    (h : writeAll atomic t files = (t', .ok ())) :
    ∃ t'', writeAll atomic t' files = (t'', .ok ()) ∧ t''.Same t' := by
  have hway : ∀ f ∈ files, ∀ l, l.Above f.1 → t'.isDirectory l = true := by
    intro f hf l habove
    exact (isDirectory_of_writeAll hup h l).2 (Or.inr ⟨f, hf, habove⟩)
  have hfree : ∀ f ∈ files, t'.isDirectory f.1 = false := by
    intro f hf
    obtain ⟨content, hcontent⟩ := exists_content_of_writeAll hup h hf
    exact FileTree.isDirectory_of_content? hcontent
  obtain ⟨t'', hagain⟩ := exists_writeAll hup h hway hfree
  refine ⟨t'', hagain, fun l => ?_⟩
  rw [node?_of_writeAll hup hagain, overlay_of_overlaid (node?_of_writeAll hup h)]

/-! ## Artifacts -/

variable {root : Location} {rule : OutputRule} {artifacts : List Artifact} {places : List Location}

/-- The files that are written for artifacts. -/
lemma exists_writeAll_of_writeArtifacts (hroot : Location.up ∉ root)
    (h : writeArtifacts t root rule artifacts = (t', .ok places)) :
    ∃ files, traverse (placed root) artifacts = .ok files ∧ files.map (·.1) = places ∧
      (∀ f ∈ files, Location.up ∉ f.1) ∧ writeAll rule.atomic t files = (t', .ok ()) := by
  obtain ⟨files, hplaced, rfl, hwritten⟩ := writeAll_of_writeArtifacts h
  have hinside := hplaced.imp fun (a : Artifact) f (hf : _ ∧ _) =>
    (placed_eq_ok_iff (a := a)).2 ⟨target_eq_ok_iff.1 hf.1, hf.2⟩
  refine ⟨files, traverse_eq_ok_iff.2 hinside, rfl, fun f hf => ?_, hwritten⟩
  obtain ⟨a, -, ha⟩ := forall₂_right hinside hf
  exact up_not_mem_of_resolve hroot (placed_eq_ok_iff.1 ha).1.1

/-- **Writing artifacts once more changes nothing**, if they may be overwritten. -/
theorem writeArtifacts_again (hroot : Location.up ∉ root)
    (h : writeArtifacts t root rule artifacts = (t', .ok places)) :
    ∃ t'', writeArtifacts t' root { rule with overwrite := true } artifacts = (t'', .ok places) ∧
      t''.Same t' := by
  obtain ⟨files, hplaced, rfl, hup, hwritten⟩ := exists_writeAll_of_writeArtifacts hroot h
  obtain ⟨t'', hagain, hsame⟩ := writeAll_again hup hwritten
  refine ⟨t'', ?_, hsame⟩
  rw [writeArtifacts, hplaced]
  dsimp only
  rw [hagain]
  rfl

/-- **Artifacts that may not be overwritten are found in their places**, all of them. -/
theorem writeArtifacts_occupied (hroot : Location.up ∉ root) (hrule : rule.overwrite = false)
    (hne : artifacts ≠ []) (h : writeArtifacts t root rule artifacts = (t', .ok places)) :
    writeArtifacts t' root rule artifacts = (t', .error (.allOccupied places)) := by
  obtain ⟨files, hplaced, rfl, hup, hwritten⟩ := exists_writeAll_of_writeArtifacts hroot h
  have hplaces : List.Forall₂ (fun (a : Artifact) l => Inside root a.path l) artifacts
      (files.map (·.1)) :=
    List.forall₂_map_right_iff.2
      ((traverse_eq_ok_iff.1 hplaced).imp fun _ _ hf => (placed_eq_ok_iff.1 hf).1)
  have hthere : ∀ l ∈ files.map (·.1), t'.present l = true := by
    rw [List.forall_mem_map]
    intro f hf
    obtain ⟨content, hcontent⟩ := exists_content_of_writeAll hup hwritten hf
    rw [FileTree.present, FileTree.node?_eq_file_iff.2 hcontent]
    rfl
  have hfits : ∀ l ∈ files.map (·.1), Location.fits 0 l = true := by
    -- The first time all places were looked at, or nothing would have been written.
    by_contra hlong
    simp only [not_forall, Bool.not_eq_true, exists_prop] at hlong
    obtain ⟨l, hl, hfits⟩ := hlong
    have hrefuses : t.refusesLook l = true := by
      rw [FileTree.refusesLook, hfits]
      rfl
    rw [(writeArtifacts_of_places t hrule hplaces).1 ⟨l, hl, hrefuses⟩] at h
    cases h
  have hlooked : ∀ l ∈ files.map (·.1), t'.refusesLook l = false := by
    intro l hl
    obtain ⟨f, hf, rfl⟩ := List.mem_map.1 hl
    refine FileTree.refusesLook_of_above (hup f hf) (hfits _ hl) (fun l' habove => ?_)
      (hthere _ hl)
    exact (isDirectory_of_writeAll hup hwritten l').2 (Or.inr ⟨f, hf, habove⟩)
  have hfirst : ∃ l ∈ files.map (·.1), t'.present l = true := by
    obtain ⟨a, rest, rfl⟩ := List.exists_cons_of_ne_nil hne
    obtain ⟨l, hl, -⟩ := forall₂_left hplaces List.mem_cons_self
    exact ⟨l, hl, hthere l hl⟩
  rw [(writeArtifacts_of_places t' hrule hplaces).2 hlooked hfirst, List.filter_eq_self.2 hthere]

end Output

end SchemaClasses
