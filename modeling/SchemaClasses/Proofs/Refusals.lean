import SchemaClasses.Proofs.Writing

/-!
# Where writing stops

A write can be refused, and then the writing of many files ends with it: the files before it have
been written and those behind it are not touched (`writeAll_eq_error`).  Where names can be asked
for at all, there are three kinds of reasons (`refusal_of_writeOne`): something is in the way or has
too long a name, too many directories are missing, or the content has no bytes.  The last of these
is no business of the file system.

A refused write leaves the files as they are.  Only a file that is written directly may have been
begun, and is empty then (`content?_of_refused`).
-/

namespace SchemaClasses

/-! ## Names that can be asked for -/

/-- A location where a directory can stand: its names can be asked for, and none goes up. -/
structure Location.Possible (l : Location) : Prop where
  up_not_mem : up ∉ l
  asked : ∀ name ∈ l, OsError.ofNames? [name] = none

lemma OsError.ofNames?_eq_none_iff {names : List String} :
    ofNames? names = none ↔ ∀ name ∈ names, ofNames? [name] = none := by
  have hone : ∀ name, ofNames? [name] = none ↔
      FileName.hasBytes name = true ∧ FileName.hasNull name = false := by
    intro name
    cases hbytes : FileName.hasBytes name <;> cases hnull : FileName.hasNull name <;>
      simp [ofNames?, hbytes, hnull]
  have hall : ofNames? names = none ↔
      names.all FileName.hasBytes = true ∧ names.any FileName.hasNull = false := by
    cases hbytes : names.all FileName.hasBytes <;> cases hnull : names.any FileName.hasNull <;>
      simp [ofNames?, hbytes, hnull]
  simp only [hone, hall, List.all_eq_true, List.any_eq_false, Bool.not_eq_true, forall_and]

namespace Location

variable {here l : Location}

lemma mem_follow {names : List String} {name : String} (h : name ∈ follow here names) :
    name ∈ here ∨ name ∈ names := by
  induction names generalizing here with
  | nil => exact Or.inl h
  | cons first rest ih =>
      rw [List.mem_cons]
      rcases ih h with hstep | hrest
      · rw [step] at hstep
        split at hstep
        · exact Or.inl ((List.dropLast_sublist here).mem hstep)
        · rw [List.mem_append, List.mem_singleton] at hstep
          exact hstep.imp_right Or.inl
      · exact Or.inr (Or.inr hrest)

/-- A path that is understood from a possible location leads to another one. -/
lemma Possible.resolve {path : String} (h : here.Possible)
    (hl : Output.resolve here path = .ok l) : l.Possible := by
  refine ⟨Output.up_not_mem_of_resolve h.up_not_mem hl, fun name hname => ?_⟩
  rw [Output.resolve] at hl
  split at hl
  · cases hl
  · rename_i hnames
    rw [List.findSome?_eq_none_iff] at hnames
    rw [← Except.ok.inj hl, WrittenPath.locate] at hname
    rcases mem_follow hname with hbefore | hafter
    · split at hbefore
      · cases hbefore
      · exact h.asked name hbefore
    · exact hnames name hafter

end Location

/-! ## Reasons -/

/-- Two refusals are the same if they leave the same tree for the same reason. -/
lemma error_inj {α ε : Type} {t t' : FileTree} {e e' : ε}
    (h : (t, (.error e : Except ε α)) = (t', .error e')) : t = t' ∧ e = e' := by
  obtain ⟨ht, he⟩ := Prod.mk.inj h
  exact ⟨ht, Except.error.inj he⟩

/-- Something is in the way, or a name is too long. -/
inductive OsError.Obstruction : OsError → Prop where
  | fileInPlace (l : Location) : Obstruction (.fileInPlace l)
  | notDirectory : Obstruction .notDirectory
  | isDirectory : Obstruction .isDirectory
  | nameTooLong : Obstruction .nameTooLong

/-- Why a file is not written. -/
inductive Output.Refusal (t : FileTree) (l : Location) (content : String) : OsError → Prop where
  | obstructed {e : OsError} (obstruction : e.Obstruction) : Refusal t l content e
  | tooDeep (missing : FileTree.mostMissing < t.missing [] l.dropLast) :
      Refusal t l content .tooDeep
  | unspelled (half : Text.hasHalf content = true) : Refusal t l content .halfCharacter

namespace FileTree

variable {t t' : FileTree} {l l' : Location} {names : List String} {content : String} {e : OsError}

lemma obstruction_of_makeWay {here : Location} {made : Bool}
    (h : t.makeWay here made names = (t', .error e)) : e.Obstruction := by
  induction names generalizing t here made with
  | nil => cases h
  | cons name rest ih =>
      rw [makeWay] at h
      dsimp only at h
      split at h
      · exact ih h
      · split at h
        · exact ih h
        · split at h
          · exact ih h
          · obtain ⟨-, rfl⟩ := error_inj h
            exact .nameTooLong
        · obtain ⟨-, rfl⟩ := error_inj h
          split
          · exact .fileInPlace _
          · exact .notDirectory

lemma refusal_of_makeDirectory (hnames : OsError.ofNames? l.dropLast = none)
    (h : t.makeDirectory l.dropLast = (t', .error e)) : Output.Refusal t l content e := by
  rw [makeDirectory, hnames] at h
  dsimp only at h
  split at h
  · obtain ⟨-, rfl⟩ := error_inj h
    exact .obstructed .nameTooLong
  · split at h
    · rename_i hdeep
      obtain ⟨-, rfl⟩ := error_inj h
      exact .tooDeep hdeep
    · exact .obstructed (obstruction_of_makeWay h)

lemma refusal_of_writeFile {before : FileTree} (h : t.writeFile l content = (t', .error e)) :
    Output.Refusal before l content e := by
  rw [writeFile] at h
  split at h
  · obtain ⟨-, rfl⟩ := error_inj h
    exact .obstructed .isDirectory
  · split at h
    · obtain ⟨-, rfl⟩ := error_inj h
      exact .obstructed .nameTooLong
    · split at h
      · rename_i hhalf
        obtain ⟨-, rfl⟩ := error_inj h
        exact .unspelled hhalf
      · cases h

/-- A file that cannot be moved is left where it is. -/
lemma renameFile_eq_error {source : Location} (h : t.renameFile source l = (t', .error e)) :
    t' = t ∧ e.Obstruction := by
  rw [renameFile] at h
  split at h
  · obtain ⟨rfl, rfl⟩ := error_inj h
    exact ⟨rfl, .isDirectory⟩
  · split at h
    · cases h
    · obtain ⟨rfl, rfl⟩ := error_inj h
      exact ⟨rfl, .notDirectory⟩

lemma content?_of_writeFile_error (h : t.writeFile l content = (t', .error e)) (l' : Location) :
    t'.content? l' = t.content? l' ∨ l.stored = l'.stored ∧ t'.content? l' = some "" := by
  rw [writeFile] at h
  split at h
  · obtain ⟨rfl, -⟩ := error_inj h
    exact Or.inl rfl
  · rename_i hdirectory
    have hne : l ≠ [] := by
      rintro rfl
      exact hdirectory rfl
    split at h
    · obtain ⟨rfl, -⟩ := error_inj h
      exact Or.inl rfl
    · split at h
      · obtain ⟨rfl, -⟩ := error_inj h
        rw [content?_put_file hne]
        split
        · rename_i hsame
          exact Or.inr ⟨hsame, rfl⟩
        · exact Or.inl rfl
      · cases h

end FileTree

namespace Output

variable {t t' : FileTree} {names : List String} {content : String} {l l' : Location}
  {files : List (Location × String)} {atomic : Bool} {e : OsError}

/-! ## One file -/

/-- A file that is not moved to its place takes nothing with it when its temporary file goes. -/
lemma node?_of_replaceFile_error {directory : Location}
    (h : replaceFile t directory names content = (t', .error e)) (l' : Location) :
    t'.node? l' = t.node? l' := by
  rw [replaceFile] at h
  dsimp only at h
  split at h
  · obtain ⟨rfl, -⟩ := error_inj h
    rfl
  · split_ifs at h
    · obtain ⟨rfl, -⟩ := error_inj h
      rfl
    · obtain ⟨rfl, -⟩ := error_inj h
      rfl
    · obtain ⟨rfl, -⟩ := error_inj h
      rfl
    · obtain ⟨rfl, -⟩ := error_inj h
      rfl
    · split at h
      · cases h
      · rename_i put e' hrename
        obtain ⟨rfl, -⟩ := FileTree.renameFile_eq_error hrename
        obtain ⟨rfl, -⟩ := error_inj h
        have hfree := FileTree.node?_temporaryName t directory (names.getLast?.getD "")
        rw [FileTree.node?_remove (by simp), FileTree.node?_put (by simp)]
        split
        · rename_i hsame
          rw [← FileTree.node?_congr hsame, hfree]
        · rfl

lemma refusal_of_replaceFile {directory : Location} {before : FileTree}
    (hnames : OsError.ofNames? [l.getLast?.getD ""] = none)
    (h : replaceFile t directory l content = (t', .error e)) : Refusal before l content e := by
  rw [replaceFile] at h
  dsimp only at h
  rw [hnames] at h
  dsimp only at h
  split_ifs at h with hlength hhalf hname hway
  · obtain ⟨-, rfl⟩ := error_inj h
    exact .obstructed .nameTooLong
  · obtain ⟨-, rfl⟩ := error_inj h
    exact .unspelled hhalf
  · obtain ⟨-, rfl⟩ := error_inj h
    exact .obstructed .isDirectory
  · obtain ⟨-, rfl⟩ := error_inj h
    exact .obstructed .nameTooLong
  · split at h
    · cases h
    · rename_i put e' hrename
      obtain ⟨-, rfl⟩ := error_inj h
      exact .obstructed (FileTree.renameFile_eq_error hrename).2

/-- Write one of many files. -/
def writeOne (atomic : Bool) (t : FileTree) (f : Location × String) :
    FileTree × Except OsError Unit :=
  if atomic then write t f.1 f.2 else writePlain t f.1 f.2

/-- **Why a file is refused**, under names that can be asked for. -/
theorem refusal_of_writeOne {f : Location × String}
    (hnames : ∀ name ∈ f.1, OsError.ofNames? [name] = none)
    (h : writeOne atomic t f = (t', .error e)) : Refusal t f.1 f.2 e := by
  have hway : OsError.ofNames? f.1.dropLast = none := OsError.ofNames?_eq_none_iff.2
    fun name hname => hnames name ((List.dropLast_sublist f.1).mem hname)
  have hlast : OsError.ofNames? [f.1.getLast?.getD ""] = none := by
    cases hname : f.1.getLast? with
    | none => decide +kernel
    | some name => exact hnames name (List.mem_of_getLast? hname)
  cases atomic with
  | true =>
      change write t f.1 f.2 = (t', .error e) at h
      rw [write] at h
      split at h
      · rename_i hmade
        obtain ⟨-, rfl⟩ := error_inj h
        exact FileTree.refusal_of_makeDirectory hway hmade
      · exact refusal_of_replaceFile hlast h
  | false =>
      change writePlain t f.1 f.2 = (t', .error e) at h
      rw [writePlain] at h
      split at h
      · rename_i hmade
        obtain ⟨-, rfl⟩ := error_inj h
        exact FileTree.refusal_of_makeDirectory hway hmade
      · exact FileTree.refusal_of_writeFile h

/-- **A refused write leaves the files as they are**, except that a file which is written directly
may be empty. -/
theorem content?_of_refused {f : Location × String} (h : writeOne atomic t f = (t', .error e))
    (l : Location) : t'.content? l = t.content? l ∨
      atomic = false ∧ f.1.stored = l.stored ∧ t'.content? l = some "" := by
  cases atomic with
  | true =>
      left
      change write t f.1 f.2 = (t', .error e) at h
      rw [write] at h
      split at h
      · rename_i made e' hmade
        obtain ⟨rfl, -⟩ := error_inj h
        rw [← FileTree.content?_makeDirectory t f.1.dropLast l, hmade]
      · rename_i made directory hmade
        have hkept : t'.content? l = made.content? l := by
          rw [FileTree.content?, node?_of_replaceFile_error h, FileTree.content?]
        rw [hkept, ← FileTree.content?_makeDirectory t f.1.dropLast l, hmade]
  | false =>
      change writePlain t f.1 f.2 = (t', .error e) at h
      rw [writePlain] at h
      split at h
      · rename_i made e' hmade
        obtain ⟨rfl, -⟩ := error_inj h
        rw [← FileTree.content?_makeDirectory t f.1.dropLast l, hmade]
        exact Or.inl rfl
      · rename_i made directory hmade
        rw [← FileTree.content?_makeDirectory t f.1.dropLast l, hmade]
        exact (FileTree.content?_of_writeFile_error h l).imp_right fun hempty => ⟨rfl, hempty⟩

/-! ## Many files -/

lemma writeAll_cons (atomic : Bool) (t : FileTree) (f : Location × String)
    (rest : List (Location × String)) : writeAll atomic t (f :: rest) =
      match writeOne atomic t f with
      | (t, .ok ()) => writeAll atomic t rest
      | (t, .error e) => (t, .error (.system e)) := rfl

/-- **Writing stops at the first file that is refused.** -/
theorem writeAll_eq_error {e : OutputError} (h : writeAll atomic t files = (t', .error e)) :
    ∃ before f after written reason, files = before ++ f :: after ∧
      writeAll atomic t before = (written, .ok ()) ∧
      writeOne atomic written f = (t', .error reason) ∧ e = .system reason := by
  induction files generalizing t with
  | nil => cases h
  | cons f rest ih =>
      rw [writeAll_cons] at h
      split at h
      · rename_i made hmade
        obtain ⟨before, g, after, written, reason, rfl, hbefore, hg, he⟩ := ih h
        refine ⟨f :: before, g, after, written, reason, rfl, ?_, hg, he⟩
        rw [writeAll_cons, hmade]
        exact hbefore
      · rename_i made reason hmade
        obtain ⟨rfl, rfl⟩ := error_inj h
        exact ⟨[], f, rest, t, reason, rfl, rfl, hmade, rfl⟩

end Output

end SchemaClasses
