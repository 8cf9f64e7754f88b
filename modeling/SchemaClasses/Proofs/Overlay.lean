import SchemaClasses.Proofs.Checks
import SchemaClasses.Proofs.Refusals

/-!
# The tree after writing

What files hold after a run is told by `content?_of_writeAll`.  For the whole tree the directories
are missing: writing makes those on the way to a file and touches no others.  `makeWay` adds the
prefixes of its way one by one (`isDirectory_makeWay`), a file never takes the place of a directory,
and the temporary file comes and goes (`isDirectory_of_replaceFile`).

Contents and directories together are all there is to a tree, so the tree after writing is the one
before, overlaid with the files and the ways to them, and nothing else (`node?_of_writeAll`).
-/

namespace SchemaClasses

/-- A location on the way from the root to another one. -/
def Location.Above (l l' : Location) : Prop := l.stored <+: l'.stored ∧ l.stored ≠ l'.stored

instance (l l' : Location) : Decidable (l.Above l') :=
  inferInstanceAs (Decidable (l.stored <+: l'.stored ∧ l.stored ≠ l'.stored))

namespace Location

variable {l directory : Location} {name : String}

lemma not_concat_prefix : ¬ stored (directory ++ [name]) <+: stored directory := by
  intro h
  have hlength := h.length_le
  rw [stored, stored, List.length_map, List.length_map, List.length_append,
    List.length_singleton] at hlength
  omega

/-- A prefix of a name in a directory is the name itself or a prefix of the directory. -/
lemma prefix_concat_iff : l.stored <+: stored (directory ++ [name]) ↔
    stored (directory ++ [name]) = l.stored ∨ l.stored <+: directory.stored := by
  have hconcat : stored (directory ++ [name]) = directory.stored ++ [FileName.stored name] := by
    rw [stored, List.map_append, List.map_singleton, stored]
  rw [hconcat, List.prefix_concat_iff, eq_comm]

lemma above_concat_iff : l.Above (directory ++ [name]) ↔ l.stored <+: directory.stored := by
  rw [Above, prefix_concat_iff]
  constructor
  · rintro ⟨heq | hbefore, hne⟩
    · exact absurd heq.symm hne
    · exact hbefore
  · intro hbefore
    exact ⟨Or.inr hbefore, fun heq => not_concat_prefix (heq ▸ hbefore)⟩

end Location

namespace FileTree

variable {t t' : FileTree} {l l' : Location} {content : String} {names : List String}

/-! ## Directories after a change -/

lemma isDirectory_iff : t.isDirectory l = true ↔ t.node? l = some .directory := beq_iff_eq

lemma isDirectory_congr (h : l.stored = l'.stored) : t.isDirectory l = t.isDirectory l' := by
  rw [isDirectory, isDirectory, node?_congr h]

lemma isDirectory_put_directory (h : l ≠ []) :
    (t.put l .directory).isDirectory l' = true ↔
      t.isDirectory l' = true ∨ l.stored = l'.stored := by
  rw [isDirectory_iff, isDirectory_iff, node?_put h]
  split
  · rename_i hsame
    simp [hsame]
  · rename_i hother
    simp [hother]

lemma isDirectory_put_file (h : l ≠ []) (hfree : t.isDirectory l = false) :
    (t.put l (.file content)).isDirectory l' = t.isDirectory l' := by
  rw [isDirectory, node?_put h]
  split
  · rename_i hsame
    rw [← isDirectory_congr hsame, hfree]
    rfl
  · rfl

lemma isDirectory_remove (h : l ≠ []) (hfree : t.isDirectory l = false) :
    (t.remove l).isDirectory l' = t.isDirectory l' := by
  rw [isDirectory, node?_remove h]
  split
  · rename_i hsame
    rw [← isDirectory_congr hsame, hfree]
    rfl
  · rfl

lemma isDirectory_of_content? (h : t.content? l = some content) : t.isDirectory l = false := by
  rw [content?] at h
  split at h
  · rename_i hfile
    rw [isDirectory, hfile]
    rfl
  · cases h

lemma node?_eq_file_iff :
    t.node? l = some (.file content) ↔ t.content? l = some content := by
  rw [content?]
  rcases t.node? l with _ | _ | content'
  · simp
  · simp
  · simp

/-- Directories and contents are all there is to a tree. -/
lemma node?_eq (t : FileTree) (l : Location) :
    t.node? l = if t.isDirectory l then some .directory else (t.content? l).map .file := by
  rw [isDirectory, content?]
  rcases t.node? l with _ | _ | content
  · rfl
  · rfl
  · rfl

/-! ## Ways -/

/-- **Making a way makes the directories on it**, and no others. -/
lemma isDirectory_makeWay {here : Location} {made : Bool} (hup : Location.up ∉ names)
    (h : t.makeWay here made names = (t', .ok l)) (l' : Location) :
    t'.isDirectory l' = true ↔ t.isDirectory l' = true ∨
      l'.stored <+: Location.stored (here ++ names) ∧ ¬ l'.stored <+: here.stored := by
  induction names generalizing t here made with
  | nil =>
      obtain ⟨rfl, -⟩ := Prod.mk.inj h
      rw [List.append_nil]
      simp
  | cons name rest ih =>
      rw [List.mem_cons, not_or] at hup
      have hway : here ++ name :: rest = here ++ [name] ++ rest := by simp
      have hnext : (here ++ [name]).stored <+: Location.stored (here ++ [name] ++ rest) :=
        (List.prefix_append _ rest).map _
      rw [makeWay] at h
      dsimp only at h
      rw [if_neg (Ne.symm hup.1)] at h
      rw [hway]
      -- A prefix of the whole way that is none of the way so far is the next directory, or later.
      have hsplit : l'.stored <+: Location.stored (here ++ [name] ++ rest) ∧
            ¬ l'.stored <+: here.stored ↔
          (here ++ [name]).stored = l'.stored ∨
            l'.stored <+: Location.stored (here ++ [name] ++ rest) ∧
              ¬ l'.stored <+: (here ++ [name]).stored := by
        rw [Location.prefix_concat_iff, not_or]
        constructor
        · rintro ⟨hwhole, hlater⟩
          exact (em _).imp_right fun hne => ⟨hwhole, hne, hlater⟩
        · rintro (heq | ⟨hwhole, -, hlater⟩)
          · exact heq ▸ ⟨hnext, Location.not_concat_prefix⟩
          · exact ⟨hwhole, hlater⟩
      rw [hsplit]
      split at h
      · rename_i hdirectory
        have hthere : (here ++ [name]).stored = l'.stored → t.isDirectory l' = true := by
          intro heq
          rw [← isDirectory_congr heq]
          exact isDirectory_iff.2 hdirectory
        rw [ih hup.2 h, ← or_assoc, or_iff_left_of_imp hthere]
      · split at h
        · rw [ih hup.2 h, isDirectory_put_directory (by simp), or_assoc]
        · cases h
      · cases h

lemma isDirectory_makeDirectory (hup : Location.up ∉ names)
    (h : t.makeDirectory names = (t', .ok l)) (l' : Location) :
    t'.isDirectory l' = true ↔ t.isDirectory l' = true ∨ l'.stored <+: Location.stored names := by
  rw [makeDirectory] at h
  split at h
  · cases h
  · split at h
    · cases h
    · split at h
      · cases h
      · rw [isDirectory_makeWay hup h, List.nil_append, Location.stored_nil, List.prefix_nil,
          Location.stored_eq_nil_iff]
        by_cases hroot : l' = []
        · subst hroot
          exact iff_of_true (Or.inl rfl) (Or.inl rfl)
        · rw [and_iff_left hroot]

/-! ## Files -/

/-- A file that is written takes the place of no directory. -/
lemma isDirectory_of_writeFile (h : t.writeFile l content = (t', .ok ())) (l' : Location) :
    t'.isDirectory l' = t.isDirectory l' := by
  rw [writeFile] at h
  split at h
  · cases h
  · rename_i hdirectory
    have hne : l ≠ [] := by
      rintro rfl
      exact hdirectory rfl
    split at h
    · cases h
    · split at h
      · cases h
      · obtain ⟨rfl, -⟩ := Prod.mk.inj h
        exact isDirectory_put_file hne (Bool.not_eq_true _ ▸ hdirectory)

/-- Nor does a file that is moved. -/
lemma isDirectory_of_renameFile {source : Location} (hsource : source ≠ [])
    (h : t.renameFile source l = (t', .ok ())) (l' : Location) :
    t'.isDirectory l' = t.isDirectory l' := by
  rw [renameFile] at h
  split at h
  · cases h
  · rename_i hdirectory
    have hne : l ≠ [] := by
      rintro rfl
      exact hdirectory rfl
    split at h
    · rename_i content hcontent
      have hremove : ∀ l', (t.remove source).isDirectory l' = t.isDirectory l' :=
        fun l' => isDirectory_remove hsource (isDirectory_of_content? hcontent)
      obtain ⟨rfl, -⟩ := Prod.mk.inj h
      rw [isDirectory_put_file hne, hremove]
      rw [hremove]
      exact Bool.not_eq_true _ ▸ hdirectory
    · cases h

end FileTree

namespace Output

variable {t t' : FileTree} {names : List String} {content : String} {l target : Location}
  {files : List (Location × String)}

/-! ## One file -/

lemma isDirectory_of_replaceFile {directory : Location}
    (h : replaceFile t directory names content = (t', .ok ())) (l : Location) :
    t'.isDirectory l = t.isDirectory l := by
  obtain ⟨name, -, -, hrename⟩ := renameFile_of_replaceFile h
  have hfree : t.isDirectory (directory ++ [t.temporaryName name]) = false := by
    rw [FileTree.isDirectory, FileTree.node?_temporaryName]
    rfl
  rw [FileTree.isDirectory_of_renameFile (by simp) hrename,
    FileTree.isDirectory_put_file (by simp) hfree]

/-- **Writing a file makes the directories above it**, and no others. -/
lemma isDirectory_of_write (hup : Location.up ∉ target) (h : write t target content = (t', .ok ()))
    (l : Location) : t'.isDirectory l = true ↔ t.isDirectory l = true ∨ l.Above target := by
  rw [write] at h
  split at h
  · cases h
  · rename_i made directory hmade
    obtain ⟨name, hlast, -⟩ := renameFile_of_replaceFile h
    obtain ⟨before, rfl⟩ := List.getLast?_eq_some_iff.1 hlast
    rw [List.dropLast_concat] at hmade
    rw [isDirectory_of_replaceFile h, Location.above_concat_iff]
    exact FileTree.isDirectory_makeDirectory (fun hmem => hup (List.mem_append_left _ hmem)) hmade l

lemma isDirectory_of_writePlain (hup : Location.up ∉ target)
    (h : writePlain t target content = (t', .ok ())) (l : Location) :
    t'.isDirectory l = true ↔ t.isDirectory l = true ∨ l.Above target := by
  rw [writePlain] at h
  split at h
  · cases h
  · rename_i made directory hmade
    rcases List.eq_nil_or_concat target with rfl | ⟨before, name, rfl⟩
    · -- At the root stands a directory, in the place of which no file is written.
      cases h
    · rw [List.concat_eq_append] at hup h hmade ⊢
      rw [List.dropLast_concat] at hmade
      rw [FileTree.isDirectory_of_writeFile h, Location.above_concat_iff]
      exact FileTree.isDirectory_makeDirectory (fun hmem => hup (List.mem_append_left _ hmem))
        hmade l

lemma isDirectory_of_writeOne {atomic : Bool} {f : Location × String} (hup : Location.up ∉ f.1)
    (h : writeOne atomic t f = (t', .ok ())) (l : Location) :
    t'.isDirectory l = true ↔ t.isDirectory l = true ∨ l.Above f.1 := by
  cases atomic with
  | true => exact isDirectory_of_write hup h l
  | false => exact isDirectory_of_writePlain hup h l

/-! ## Many files -/

/-- **After writing, the directories above the files are there**, and no others than before. -/
lemma isDirectory_of_writeAll {atomic : Bool} (hfiles : ∀ f ∈ files, Location.up ∉ f.1)
    (h : writeAll atomic t files = (t', .ok ())) (l : Location) :
    t'.isDirectory l = true ↔ t.isDirectory l = true ∨ ∃ f ∈ files, l.Above f.1 := by
  induction files generalizing t with
  | nil =>
      obtain ⟨rfl, -⟩ := Prod.mk.inj h
      simp
  | cons f rest ih =>
      obtain ⟨hf, hrest⟩ := List.forall_mem_cons.1 hfiles
      rw [writeAll_cons] at h
      split at h
      · rename_i written hwritten
        rw [ih hrest h, isDirectory_of_writeOne hf hwritten, List.exists_mem_cons_iff, or_assoc]
      · cases h

/-- A tree with files laid over it: the last one written to a location counts, above the files are
directories, and elsewhere everything is as it was. -/
def overlay (t : FileTree) (files : List (Location × String)) (l : Location) : Option FileNode :=
  match lastWritten? files l with
  | some content => some (.file content)
  | none => if ∃ f ∈ files, l.Above f.1 then some .directory else t.node? l

/-- **Writing lays the files over the tree**, and does nothing else. -/
theorem node?_of_writeAll {atomic : Bool} (hfiles : ∀ f ∈ files, Location.up ∉ f.1)
    (h : writeAll atomic t files = (t', .ok ())) (l : Location) :
    t'.node? l = overlay t files l := by
  have hcontent := content?_of_writeAll hfiles h l
  have hdirectory := isDirectory_of_writeAll hfiles h l
  rw [overlay]
  cases hlast : lastWritten? files l with
  | some content =>
      rw [hlast, Option.some_or] at hcontent
      rw [FileTree.node?_eq, FileTree.isDirectory_of_content? hcontent, hcontent]
      rfl
  | none =>
      rw [hlast, Option.none_or] at hcontent
      dsimp only
      split
      · rename_i habove
        exact FileTree.isDirectory_iff.1 (hdirectory.2 (Or.inr habove))
      · rename_i hnone
        rw [or_iff_left hnone, Bool.coe_iff_coe] at hdirectory
        rw [FileTree.node?_eq, FileTree.node?_eq t, hcontent, hdirectory]

end Output

end SchemaClasses
