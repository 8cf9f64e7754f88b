import SchemaClasses.Proofs.Overlay
import SchemaClasses.Proofs.Refusals

/-!
# Trees that hold the same

Two trees that differ in the order of their entries are not equal, but nothing that can be looked up
tells them apart.  `FileTree.Same` is this equality, and every operation of a file system respects
it: it does the same to both trees and answers the same (`Same.makeWay`, `Same.makeDirectory`).

This is what makes the two ways of writing a file comparable.  The one that goes through a temporary
file puts the file into the tree, takes it out again and puts it into its place; the other only does
the last of these.  Wherever the longer name of the temporary file can be used, both come to the
same end, whether the file is written or refused (`agree_write`).
-/

namespace SchemaClasses

namespace FileTree

variable {t u : FileTree} {l : Location} {names : List String}

/-- The same stands at every location of two trees. -/
def Same (t u : FileTree) : Prop := ∀ l, t.node? l = u.node? l

/-- Two operations on a tree give the same answer and leave the same behind. -/
def Agree {α ε : Type} (r r' : FileTree × Except ε α) : Prop := r.2 = r'.2 ∧ r.1.Same r'.1

lemma Same.refl (t : FileTree) : t.Same t := fun _ => rfl

lemma Agree.refl {α ε : Type} (r : FileTree × Except ε α) : Agree r r := ⟨rfl, .refl r.1⟩

namespace Same

lemma isDirectory (h : t.Same u) (l : Location) : t.isDirectory l = u.isDirectory l := by
  rw [FileTree.isDirectory, FileTree.isDirectory, h l]

lemma put (h : t.Same u) (hl : l ≠ []) (n : FileNode) : (t.put l n).Same (u.put l n) := by
  intro l'
  rw [node?_put hl, node?_put hl, h l']

/-- A file that is put where nothing stands, and taken away again, leaves nothing behind. -/
lemma remove_put (h : t.Same u) (hl : l ≠ []) (hfree : t.node? l = none) (n : FileNode) :
    ((t.put l n).remove l).Same u := by
  intro l'
  rw [node?_remove hl, node?_put hl, ← h l']
  split
  · rename_i hsame
    rw [← node?_congr hsame, hfree]
  · rfl

/-! ## Directories -/

lemma missing (h : t.Same u) (here : Location) (names : List String) :
    t.missing here names = u.missing here names := by
  induction names generalizing here with
  | nil => rfl
  | cons name rest ih =>
      rw [FileTree.missing, FileTree.missing, h]
      split
      · exact ih _
      · rfl
      · rfl

lemma makeWay (h : t.Same u) (here : Location) (made : Bool) (names : List String) :
    Agree (t.makeWay here made names) (u.makeWay here made names) := by
  induction names generalizing t u here made with
  | nil => exact ⟨rfl, h⟩
  | cons name rest ih =>
      rw [FileTree.makeWay, FileTree.makeWay]
      dsimp only
      split
      · exact ih h _ _
      · rw [h]
        split
        · exact ih h _ _
        · split
          · exact ih (h.put (by simp) _) _ _
          · exact ⟨rfl, h⟩
        · exact ⟨rfl, h⟩

lemma makeDirectory (h : t.Same u) (names : List String) :
    Agree (t.makeDirectory names) (u.makeDirectory names) := by
  rw [FileTree.makeDirectory, FileTree.makeDirectory, h.missing]
  split
  · exact ⟨rfl, h⟩
  · split
    · exact ⟨rfl, h⟩
    · split
      · exact ⟨rfl, h⟩
      · exact h.makeWay [] false names

end Same

end FileTree

/-! ## Places of files -/

/-- A location that a path can lead to: its names are not empty either. -/
structure Location.Named (l : Location) : Prop extends l.Possible where
  named : ∀ name ∈ l, name ≠ ""

/-- A location that stays short enough with the name of a temporary file in place of its own. -/
structure Location.Roomy (l : Location) : Prop where
  name : FileName.fits Output.temporaryBytes (l.getLast?.getD "") = true
  way : Location.fits Output.temporaryBytes l = true

instance (l : Location) : Decidable l.Roomy :=
  decidable_of_iff (FileName.fits Output.temporaryBytes (l.getLast?.getD "") = true ∧
    Location.fits Output.temporaryBytes l = true) ⟨fun h => ⟨h.1, h.2⟩, fun h => ⟨h.1, h.2⟩⟩

namespace Location

variable {here l : Location} {path : String}

lemma named_nil : Named [] := ⟨⟨List.not_mem_nil, List.forall_mem_nil _⟩, List.forall_mem_nil _⟩

lemma isStep_of_mem_names {name : String} (h : name ∈ (WrittenPath.ofText path).names) :
    WrittenPath.isStep name = true := (List.mem_filter.1 h).2

/-- A path that is understood from a location with names leads to another one. -/
lemma Named.resolve (h : here.Named) (hl : Output.resolve here path = .ok l) : l.Named := by
  refine ⟨h.toPossible.resolve hl, fun name hname => ?_⟩
  rw [Output.resolve] at hl
  split at hl
  · cases hl
  · rw [← Except.ok.inj hl, WrittenPath.locate] at hname
    rcases mem_follow hname with hbefore | hafter
    · split at hbefore
      · cases hbefore
      · exact h.named name hbefore
    · have hstep := isStep_of_mem_names hafter
      rw [WrittenPath.isStep, Bool.and_eq_true, decide_eq_true_eq] at hstep
      exact hstep.1

lemma fits_of_fits {added : Nat} (h : Location.fits added l = true) :
    Location.fits 0 l = true := by
  rw [Location.fits, decide_eq_true_eq] at h ⊢
  omega

end Location

lemma FileName.fits_of_fits {added : Nat} {name : String} (h : FileName.fits added name = true) :
    FileName.fits 0 name = true := by
  rw [FileName.fits, decide_eq_true_eq] at h ⊢
  omega

/-! ## One file -/

namespace Output

open FileTree (Same Agree)

variable {t u : FileTree} {l : Location} {content : String}

/-- What `replaceFile` does where no length and no character stands in its way. -/
lemma replaceFile_concat {directory : Location} {name : String} (t : FileTree)
    (hl : (directory ++ [name]).Named) (hroomy : (directory ++ [name]).Roomy)
    (hspelled : Text.hasHalf content = false) :
    replaceFile t directory (directory ++ [name]) content =
      match (t.put (directory ++ [t.temporaryName name]) (.file content)).renameFile
          (directory ++ [t.temporaryName name]) (directory ++ [name]) with
      | (t', .ok ()) => (t', .ok ())
      | (t', .error e) => (t'.remove (directory ++ [t.temporaryName name]), .error e) := by
  have hmem : name ∈ directory ++ [name] := by simp
  have hname : (directory ++ [name]).getLast?.getD "" = name := by simp
  have hfits := hroomy.name
  rw [hname] at hfits
  rw [replaceFile, hname]
  dsimp only
  rw [hl.asked name hmem]
  dsimp only
  have hnot : name ≠ Location.up := fun h => hl.up_not_mem (h ▸ hmem)
  rw [hfits, hroomy.way, hspelled, Location.fits_of_fits hroomy.way,
    decide_eq_false (hl.named name hmem), decide_eq_false hnot]
  rfl

/-- **Replacing a file and writing it leave the same tree.** -/
lemma agree_replaceFile (h : t.Same u) (hl : l.Named) (hroomy : l.Roomy)
    (hspelled : Text.hasHalf content = false) :
    Agree (replaceFile t l.dropLast l content) (u.writeFile l content) := by
  rcases List.eq_nil_or_concat l with rfl | ⟨directory, name, rfl⟩
  · -- At the root stands a directory, which neither way takes the place of.
    have hreplace : replaceFile t [] [] content = (t, .error .isDirectory) := by
      rw [replaceFile, hspelled]
      rfl
    rw [List.dropLast_nil, hreplace]
    exact ⟨rfl, h⟩
  · rw [List.concat_eq_append] at hl hroomy ⊢
    rw [List.dropLast_concat, replaceFile_concat t hl hroomy hspelled]
    set temporary := directory ++ [t.temporaryName name] with htemporary
    have hfree : t.node? temporary = none := FileTree.node?_temporaryName t directory name
    have hne : temporary ≠ [] := by simp [htemporary]
    have hput : ∀ l', (t.put temporary (.file content)).isDirectory l' = u.isDirectory l' := by
      intro l'
      rw [← h.isDirectory, FileTree.isDirectory_put_file hne]
      rw [FileTree.isDirectory, hfree]
      rfl
    rw [FileTree.renameFile, hput, FileTree.writeFile]
    cases u.isDirectory (directory ++ [name]) with
    | true => exact ⟨rfl, h.remove_put hne hfree _⟩
    | false =>
      have hfits : FileName.fits 0 name = true := by
        have hname := FileName.fits_of_fits hroomy.name
        rwa [List.getLast?_concat, Option.getD_some] at hname
      rw [FileTree.content?_put_file hne, if_pos rfl, Location.fits_of_fits hroomy.way,
        List.getLast?_concat, Option.all_some, hfits, hspelled]
      exact ⟨rfl, (h.remove_put hne hfree _).put (by simp) _⟩

/-- **A file is written in one way as in the other**, and refused in one way as in the other. -/
theorem agree_write (h : t.Same u) (hl : l.Named) (hroomy : l.Roomy)
    (hspelled : Text.hasHalf content = false) :
    Agree (write t l content) (writePlain u l content) := by
  obtain ⟨hresult, hsame⟩ := h.makeDirectory l.dropLast
  rw [write, writePlain]
  cases hmade : t.makeDirectory l.dropLast with
  | mk made result =>
      cases hmade' : u.makeDirectory l.dropLast with
      | mk made' result' =>
          rw [hmade, hmade'] at hresult hsame
          dsimp only at hresult hsame
          subst hresult
          cases result with
          | error e => exact ⟨rfl, hsame⟩
          | ok directory =>
              obtain rfl := FileTree.location_of_makeDirectory hmade
              rw [Location.follow_of_not_mem fun hmem => hl.up_not_mem
                ((List.dropLast_sublist l).mem hmem), List.nil_append]
              exact agree_replaceFile hsame hl hroomy hspelled

/-! ## Many files -/

/-- A file that can be written in both ways. -/
structure Writable (f : Location × String) : Prop where
  named : f.1.Named
  roomy : f.1.Roomy
  spelled : Text.hasHalf f.2 = false

/-- **Many files are written in one way as in the other.** -/
theorem agree_writeAll {files : List (Location × String)} (h : t.Same u)
    (hfiles : ∀ f ∈ files, Writable f) :
    Agree (writeAll true t files) (writeAll false u files) := by
  induction files generalizing t u with
  | nil => exact ⟨rfl, h⟩
  | cons f rest ih =>
      obtain ⟨hf, hrest⟩ := List.forall_mem_cons.1 hfiles
      obtain ⟨hresult, hsame⟩ := agree_write h hf.named hf.roomy hf.spelled
      rw [writeAll_cons, writeAll_cons, writeOne, writeOne, if_pos rfl,
        if_neg Bool.false_ne_true]
      cases hwritten : write t f.1 f.2 with
      | mk t' result =>
          cases hwritten' : writePlain u f.1 f.2 with
          | mk u' result' =>
              rw [hwritten, hwritten'] at hresult hsame
              dsimp only at hresult hsame
              subst hresult
              cases result with
              | error e => exact ⟨rfl, hsame⟩
              | ok written => exact ih hsame hrest

end Output

end SchemaClasses
