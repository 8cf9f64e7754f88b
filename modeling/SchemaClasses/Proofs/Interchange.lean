import SchemaClasses.Proofs.SameTrees

/-!
# Two ways of writing

Files are written through temporary ones, or directly.  Which of the two is chosen makes no
difference in the end: the answer is the same and so is the tree, whatever stood there before, and
also if the writing stops in the middle (`writeArtifacts_either_way`).  Two things are set aside.  A
place must be short enough for the name of the temporary file, which is longer than its own; and a
content must have bytes, because a file that is written directly is begun before its content is
looked at.

What comes of it is one of five things (`Course`).  Three of them end before anything is written.
In the other two the files are laid over the tree in order, either all of them or those before the
first one that is blocked.  What blocks a file is found in the tree as it is then (`Blocked`), and
it may be a file that was written a moment ago.
-/

namespace SchemaClasses

namespace Location

lemma size_concat (directory : Location) (name : String) :
    size (directory ++ [name]) = size directory + (FileName.size name + 1) := by
  have hsum : ∀ l : Location, size l = (l.map fun name => FileName.size name + 1).sum :=
    fun l => rfl
  rw [hsum, hsum, List.map_append, List.sum_append, List.map_singleton, List.sum_singleton]

/-- The directory of a short location is short. -/
lemma fits_dropLast {l : Location} (h : fits 0 l = true) : fits 0 l.dropLast = true := by
  rcases List.eq_nil_or_concat l with rfl | ⟨directory, name, rfl⟩
  · exact h
  · rw [List.concat_eq_append, fits, size_concat, decide_eq_true_eq] at h
    rw [List.concat_eq_append, List.dropLast_concat, fits, decide_eq_true_eq]
    omega

end Location

namespace Output

/-- Why a file has no way into a tree, if `look` tells what stands where. -/
inductive Blocked (look : Location → Option FileNode) (l : Location) : OsError → Prop where
  /-- A directory stands in its place. -/
  | directory (there : look l = some .directory) : Blocked look l .isDirectory
  /-- The way to it leads through a file. -/
  | throughFile {above : Location} {content : String} (way : above.Above l)
      (there : look above = some (.file content)) : Blocked look l .notDirectory
  /-- A file stands in the place of a directory that was to be made. -/
  | fileInPlace {above : Location} {content : String} (way : above.Above l)
      (there : look above = some (.file content)) : Blocked look l (.fileInPlace above)
  /-- A directory would get a name that is too long. -/
  | longName {name : String} (way : name ∈ l.dropLast) (long : FileName.fits 0 name = false) :
      Blocked look l .nameTooLong
  /-- There are too many directories to make. -/
  | tooDeep (deep : FileTree.mostMissing < l.length) : Blocked look l .tooDeep

end Output

namespace FileTree

variable {t t' : FileTree} {l : Location} {names : List String} {e : OsError}

lemma missing_le_length (t : FileTree) (here : Location) (names : List String) :
    t.missing here names ≤ names.length := by
  induction names generalizing here with
  | nil => exact Nat.le_refl 0
  | cons name rest ih =>
      rw [missing, List.length_cons]
      split
      · exact Nat.le_succ_of_le (ih _)
      · exact Nat.zero_le _
      · split
        · exact Nat.le_refl _
        · exact Nat.zero_le _

/-- A directory that is made on the way to a file blocks nothing. -/
lemma blocked_of_put_directory {target : Location} (hne : l ≠ []) (hfree : t.node? l = none)
    (hway : l.Above target) (h : Output.Blocked (t.put l .directory).node? target e) :
    Output.Blocked t.node? target e := by
  have hfile : ∀ {above : Location} {content : String},
      (t.put l .directory).node? above = some (.file content) →
        t.node? above = some (.file content) := by
    intro above content there
    rw [node?_eq_file_iff, content?_put_directory hne hfree] at there
    exact node?_eq_file_iff.2 there
  cases h with
  | directory there =>
      rw [node?_put hne, if_neg hway.2] at there
      exact .directory there
  | throughFile way there => exact .throughFile way (hfile there)
  | fileInPlace way there => exact .fileInPlace way (hfile there)
  | longName way long => exact .longName way long
  | tooDeep deep => exact .tooDeep deep

/-- What a way cannot be made through was in the tree before: making directories makes no files. -/
lemma blocked_of_makeWay {here : Location} {made : Bool} (hup : Location.up ∉ names) (name : String)
    (h : t.makeWay here made names = (t', .error e)) :
    Output.Blocked t.node? (here ++ names ++ [name]) e := by
  induction names generalizing t here made with
  | nil => cases h
  | cons first rest ih =>
      rw [List.mem_cons, not_or] at hup
      have hway : here ++ first :: rest = here ++ [first] ++ rest := by simp
      have habove : (here ++ [first]).Above (here ++ [first] ++ rest ++ [name]) :=
        Location.above_concat_iff.2 ((List.prefix_append _ rest).map _)
      rw [makeWay] at h
      dsimp only at h
      rw [if_neg (Ne.symm hup.1)] at h
      rw [hway]
      split at h
      · exact ih hup.2 h
      · rename_i hnone
        split at h
        · exact blocked_of_put_directory (by simp) hnone habove (ih hup.2 h)
        · rename_i hlong
          obtain ⟨-, rfl⟩ := error_inj h
          have hmem : first ∈ (here ++ [first] ++ rest ++ [name]).dropLast := by
            rw [List.dropLast_concat]
            simp
          exact .longName hmem (Bool.not_eq_true _ ▸ hlong)
      · rename_i content hfile
        obtain ⟨-, rfl⟩ := error_inj h
        split
        · exact .fileInPlace habove hfile
        · exact .throughFile habove hfile

lemma blocked_of_makeDirectory {directory : Location} {name : String}
    (hl : (directory ++ [name]).Named) (hfits : Location.fits 0 directory = true)
    (h : t.makeDirectory directory = (t', .error e)) :
    Output.Blocked t.node? (directory ++ [name]) e := by
  have hnames : OsError.ofNames? directory = none := OsError.ofNames?_eq_none_iff.2
    fun name hname => hl.asked name (List.mem_append_left _ hname)
  rw [makeDirectory, hnames, hfits] at h
  dsimp only at h
  rw [if_neg (by decide)] at h
  split at h
  · rename_i hdeep
    obtain ⟨-, rfl⟩ := error_inj h
    have hlength := t.missing_le_length [] directory
    exact .tooDeep (by rw [List.length_append]; omega)
  · exact blocked_of_makeWay (fun hmem => hl.up_not_mem (List.mem_append_left _ hmem)) name h

end FileTree

namespace Output

open FileTree (Same Agree)

variable {t t' : FileTree} {root : Location} {overwrite : Bool} {artifacts : List Artifact}
  {files : List (Location × String)} {f : Location × String} {e : OsError}

/-! ## One file -/

/-- **A file that can be written in both ways is refused only where something blocks it.** -/
lemma blocked_of_writePlain (hf : Writable f) (h : writePlain t f.1 f.2 = (t', .error e)) :
    Blocked t.node? f.1 e := by
  obtain ⟨l, content⟩ := f
  obtain ⟨hl, hroomy, hspelled⟩ := hf
  dsimp only at hl hroomy hspelled h ⊢
  rw [writePlain] at h
  rcases List.eq_nil_or_concat l with rfl | ⟨directory, name, rfl⟩
  · obtain ⟨-, rfl⟩ := error_inj h
    exact .directory rfl
  · rw [List.concat_eq_append] at hl hroomy h ⊢
    have hfits := Location.fits_dropLast (Location.fits_of_fits hroomy.way)
    rw [List.dropLast_concat] at hfits h
    split at h
    · rename_i made e' hmade
      obtain ⟨-, rfl⟩ := error_inj h
      exact FileTree.blocked_of_makeDirectory hl hfits hmade
    · rename_i made made' hmade
      have hname := FileName.fits_of_fits hroomy.name
      rw [List.getLast?_concat, Option.getD_some] at hname
      rw [FileTree.writeFile, Location.fits_of_fits hroomy.way, List.getLast?_concat,
        Option.all_some, hname, hspelled] at h
      split at h
      · rename_i hdirectory
        obtain ⟨-, rfl⟩ := error_inj h
        have hup : Location.up ∉ directory :=
          fun hmem => hl.up_not_mem (List.mem_append_left _ hmem)
        rw [FileTree.isDirectory_makeDirectory hup hmade] at hdirectory
        exact .directory (FileTree.isDirectory_iff.1
          (hdirectory.resolve_right Location.not_concat_prefix))
      · cases h

/-- A file that is refused leaves all files as they are. -/
lemma content?_of_writePlain_error (hf : Writable f)
    (h : writePlain t f.1 f.2 = (t', .error e)) (l : Location) : t'.content? l = t.content? l := by
  obtain ⟨hresult, hsame⟩ := agree_write (.refl t) hf.named hf.roomy hf.spelled
  cases hwrite : write t f.1 f.2 with
  | mk written result =>
      rw [hwrite, h] at hresult hsame
      dsimp only at hresult hsame
      subst hresult
      have hone : writeOne true t f = (written, .error e) := hwrite
      rw [FileTree.content?, ← hsame l, ← FileTree.content?]
      exact (content?_of_refused hone l).resolve_right fun hempty => Bool.noConfusion hempty.1

/-! ## All artifacts -/

/-- Where artifacts go, each with its content. -/
def Places (root : Location) (artifacts : List Artifact) (files : List (Location × String)) :
    Prop :=
  List.Forall₂ (fun (a : Artifact) f => Inside root a.path f.1 ∧ a.content = f.2) artifacts files

lemma places_iff : Places root artifacts files ↔
    traverse (placed root) artifacts = .ok files := by
  simp only [traverse_eq_ok_iff, placed_eq_ok_iff, Places]

/-- What can come of writing artifacts below an output directory: the tree afterwards, and the
answer. -/
inductive Course (t : FileTree) (root : Location) (overwrite : Bool) (artifacts : List Artifact) :
    FileTree × Except OutputError (List Location) → Prop where
  /-- The first path that is refused decides. -/
  | misplaced {before after : List Artifact} {a : Artifact} {e : OutputError}
      (order : artifacts = before ++ a :: after)
      (placed : ∀ b ∈ before, ∃ l, Inside root b.path l) (refused : Refused root a.path e) :
      Course t root overwrite artifacts (t, .error e)
  | unlooked {files : List (Location × String)} (places : Places root artifacts files)
      (keep : overwrite = false) (refuses : ∃ f ∈ files, t.refusesLook f.1 = true) :
      Course t root overwrite artifacts (t, .error (.system .nameTooLong))
  | occupied {files : List (Location × String)} (places : Places root artifacts files)
      (keep : overwrite = false) (found : ∃ f ∈ files, t.present f.1 = true) :
      Course t root overwrite artifacts
        (t, .error (.allOccupied ((files.map (·.1)).filter t.present)))
  /-- The files before the first one that is blocked are laid over the tree. -/
  | stopped {before after : List (Location × String)} {f : Location × String} {t' : FileTree}
      {reason : OsError} (places : Places root artifacts (before ++ f :: after))
      (blocked : Blocked (overlay t before) f.1 reason)
      (kept : ∀ l, t'.content? l = (lastWritten? before l).or (t.content? l)) :
      Course t root overwrite artifacts (t', .error (.system reason))
  /-- All files are laid over the tree, and nothing else has changed. -/
  | finished {files : List (Location × String)} {t' : FileTree}
      (places : Places root artifacts files)
      (free : overwrite = false → ∀ f ∈ files, t.present f.1 = false)
      (overlaid : ∀ l, t'.node? l = overlay t files l) :
      Course t root overwrite artifacts (t', .ok (files.map (·.1)))

/-- The answer to the caller when files have been written: their places, or why one was refused. -/
def answer (places : List Location) (r : FileTree × Except OutputError Unit) :
    FileTree × Except OutputError (List Location) := (r.1, r.2.map fun _ => places)

lemma agree_answer {r r' : FileTree × Except OutputError Unit} (places : List Location)
    (h : Agree r r') : Agree (answer places r) (answer places r') :=
  ⟨congrArg (Except.map fun _ => places) h.1, h.2⟩

/-- Artifacts that pass the checks are written. -/
lemma writeArtifacts_eq_answer {rule : OutputRule} (places : Places root artifacts files)
    (looks : rule.overwrite = false → ∀ f ∈ files, t.refusesLook f.1 = false)
    (free : rule.overwrite = false → ∀ f ∈ files, t.present f.1 = false) :
    writeArtifacts t root rule artifacts =
      answer (files.map (·.1)) (writeAll rule.atomic t files) := by
  have hlooks : ¬ (!rule.overwrite && (files.map (·.1)).any t.refusesLook) = true := by
    simpa using looks
  have hfree : ¬ (!rule.overwrite && !((files.map (·.1)).filter t.present).isEmpty) = true := by
    simpa using free
  rw [writeArtifacts, places_iff.1 places]
  dsimp only
  rw [if_neg hlooks, if_neg hfree, answer]
  split
  · rename_i hwritten
    rw [hwritten]
    rfl
  · rename_i hwritten
    rw [hwritten]
    rfl

/-- Writing files that can be written in both ways lays them over the tree, as far as it comes. -/
lemma course_of_writeAll (places : Places root artifacts files)
    (free : overwrite = false → ∀ f ∈ files, t.present f.1 = false)
    (hfiles : ∀ f ∈ files, Writable f) :
    Course t root overwrite artifacts (answer (files.map (·.1)) (writeAll false t files)) := by
  have hup : ∀ f ∈ files, Location.up ∉ f.1 := fun f hf => (hfiles f hf).named.up_not_mem
  cases hwritten : writeAll false t files with
  | mk t' result =>
      cases result with
      | ok u => exact .finished places free (node?_of_writeAll hup hwritten)
      | error e =>
          obtain ⟨before, f, after, written, reason, rfl, hbefore, hstop, rfl⟩ :=
            writeAll_eq_error hwritten
          have hplain : writePlain written f.1 f.2 = (t', .error reason) := hstop
          have hf : Writable f := hfiles f (by simp)
          have hbefores : ∀ g ∈ before, Location.up ∉ g.1 :=
            fun g hg => hup g (List.mem_append_left _ hg)
          have hlook : overlay t before = written.node? :=
            funext fun l => (node?_of_writeAll hbefores hbefore l).symm
          refine .stopped places (hlook ▸ blocked_of_writePlain hf hplain) fun l => ?_
          rw [content?_of_writePlain_error hf hplain, content?_of_writeAll hbefores hbefore]

/-- With all places found, the checks and the writes that follow are the same in both ways. -/
lemma exists_course_of_places (t : FileTree) (overwrite : Bool)
    (places : Places root artifacts files) (hfiles : ∀ f ∈ files, Writable f) :
    ∃ after, Course t root overwrite artifacts after ∧
      ∀ atomic, Agree (writeArtifacts t root ⟨overwrite, atomic⟩ artifacts) after := by
  have hinside : List.Forall₂ (fun (a : Artifact) l => Inside root a.path l) artifacts
      (files.map (·.1)) := List.forall₂_map_right_iff.2 (places.imp fun _ _ hf => hf.1)
  have hchecks : ∀ atomic, overwrite = false → _ := fun atomic hkeep =>
    writeArtifacts_of_places t
      (show OutputRule.overwrite ⟨overwrite, atomic⟩ = false from hkeep) hinside
  have hany : ∀ {p : Location → Bool}, (∃ f ∈ files, p f.1 = true) →
      ∃ l ∈ files.map (·.1), p l = true := fun ⟨f, hf, hp⟩ => ⟨f.1, List.mem_map_of_mem hf, hp⟩
  by_cases hrefuses : overwrite = false ∧ ∃ f ∈ files, t.refusesLook f.1 = true
  · refine ⟨_, .unlooked places hrefuses.1 hrefuses.2, fun atomic => ?_⟩
    rw [(hchecks atomic hrefuses.1).1 (hany hrefuses.2)]
    exact .refl _
  · have hlooks : overwrite = false → ∀ f ∈ files, t.refusesLook f.1 = false := by
      simpa using hrefuses
    by_cases hpresent : overwrite = false ∧ ∃ f ∈ files, t.present f.1 = true
    · refine ⟨_, .occupied places hpresent.1 hpresent.2, fun atomic => ?_⟩
      rw [(hchecks atomic hpresent.1).2 (List.forall_mem_map.2 (hlooks hpresent.1))
        (hany hpresent.2)]
      exact .refl _
    · have hfree : overwrite = false → ∀ f ∈ files, t.present f.1 = false := by
        simpa using hpresent
      refine ⟨_, course_of_writeAll places hfree hfiles, fun atomic => ?_⟩
      rw [writeArtifacts_eq_answer places hlooks hfree]
      refine agree_answer _ ?_
      cases atomic with
      | true => exact agree_writeAll (.refl t) hfiles
      | false => exact .refl _

/-- **The two ways of writing come to the same end.**  Let every place leave room for the name of a
temporary file, and every content have bytes.  Then, for every tree, artifacts are written through
temporary files with the same answer and the same tree as directly.  Either they are not begun, or
all of them are laid over the tree and their places are returned in order, or those before the first
one that is blocked. -/
theorem writeArtifacts_either_way {dir : String} (hroot : resolve [] dir = .ok root)
    (hspelled : ∀ a ∈ artifacts, Text.hasHalf a.content = false)
    (hroomy : ∀ a ∈ artifacts, ∀ l, Inside root a.path l → l.Roomy) (t : FileTree)
    (overwrite : Bool) :
    ∃ after, Course t root overwrite artifacts after ∧
      ∀ atomic, Agree (writeArtifacts t root ⟨overwrite, atomic⟩ artifacts) after := by
  cases hplaced : traverse (placed root) artifacts with
  | error e =>
      obtain ⟨before, a, after, rfl, hbefore, ha⟩ := traverse_eq_error_iff.1 hplaced
      refine ⟨(t, .error e), .misplaced rfl (fun b hb => exists_placed_iff.1 (hbefore b hb))
        (placed_eq_error_iff.1 ha), fun atomic => ?_⟩
      rw [writeArtifacts, hplaced]
      exact .refl _
  | ok files =>
      have hplaces : Places root artifacts files := places_iff.2 hplaced
      refine exists_course_of_places t overwrite hplaces fun f hf => ?_
      obtain ⟨a, ha, hinside, hcontent⟩ := forall₂_right hplaces hf
      exact ⟨(Location.named_nil.resolve hroot).resolve hinside.1, hroomy a ha f.1 hinside,
        hcontent ▸ hspelled a ha⟩

/-- Artifacts of which the second has no way, because the first is a file. -/
def conflicting : List Artifact := [⟨"a", "1"⟩, ⟨"a/b", "2"⟩, ⟨"c", "3"⟩]

theorem writeArtifacts_conflicting :
    resolve [] "/out" = .ok ["out"] ∧ (∀ a ∈ conflicting, Text.hasHalf a.content = false) ∧
    (∀ a ∈ conflicting, ∀ l, Inside ["out"] a.path l → l.Roomy) ∧
    ∃ after, Course {} ["out"] false conflicting after ∧
      (∀ atomic, Agree (writeArtifacts {} ["out"] ⟨false, atomic⟩ conflicting) after) ∧
      after.2 = .error (.system (.fileInPlace ["out", "a"])) ∧
      after.1.content? ["out", "a"] = some "1" ∧ after.1.content? ["out", "c"] = none := by
  have hroot : resolve [] "/out" = .ok ["out"] := by decide +kernel
  have hspelled : ∀ a ∈ conflicting, Text.hasHalf a.content = false := by decide +kernel
  have hplaces : List.Forall₂ (fun (a : Artifact) l => resolve ["out"] a.path = .ok l) conflicting
      [["out", "a"], ["out", "a", "b"], ["out", "c"]] :=
    .cons (by decide +kernel) (.cons (by decide +kernel) (.cons (by decide +kernel) .nil))
  have hshort : ∀ l ∈ [["out", "a"], ["out", "a", "b"], ["out", "c"]], Location.Roomy l := by
    decide +kernel
  have hroomy : ∀ a ∈ conflicting, ∀ l, Inside ["out"] a.path l → l.Roomy := by
    intro a ha l hl
    obtain ⟨l', hmem, hl'⟩ := forall₂_left hplaces ha
    exact Except.ok.inj (hl'.symm.trans hl.1) ▸ hshort l' hmem
  obtain ⟨after, hcourse, hagree⟩ := writeArtifacts_either_way hroot hspelled hroomy {} false
  obtain ⟨hresult, hsame⟩ := hagree false
  refine ⟨hroot, hspelled, hroomy, after, hcourse, hagree, ?_, ?_, ?_⟩
  · rw [← hresult]
    decide +kernel
  · rw [FileTree.content?, ← hsame, ← FileTree.content?]
    decide +kernel
  · rw [FileTree.content?, ← hsame, ← FileTree.content?]
    decide +kernel

end Output

end SchemaClasses
