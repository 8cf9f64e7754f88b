import SchemaClasses.Proofs.SameTrees

/-!
# Histories of writing

A program writes files one after the other, makes directories in between, and goes on when a step is
refused.  What a file holds in the end depends on the steps that succeeded only: the last of them
that wrote to its place (`content?_runAll`).  That no other file appears includes the temporary
files, which come and go within a step.

A file that must be new is looked for first, and is written only if nothing is found.  The look
follows the way as it is, while writing makes the directories that are missing on it.  The two come
to the same place as long as the way goes up from directories that are there (`Grounded`); then
nothing is ever overwritten (`content?_writeNew_of_grounded`).  On other ways something is: see
`writeNew_overwrites`.
-/

namespace SchemaClasses

/-! ## Trees as a file system grows them -/

/-- Two places that are the same are in the same directory. -/
lemma Location.stored_eq_of_concat {l l' : Location} {name name' : String}
    (h : Location.stored (l ++ [name]) = Location.stored (l' ++ [name'])) :
    l.stored = l'.stored := by
  rw [stored, stored, List.map_append, List.map_append] at h
  exact List.append_inj_left' h rfl

namespace FileTree

variable {t t' : FileTree} {l : Location} {names : List String}

/-- What stands anywhere stands in a directory. -/
def Rooted (t : FileTree) : Prop :=
  ∀ l name, t.present (l ++ [name]) = true → t.isDirectory l = true

/-- Every directory that a way leaves by going up is there. -/
def Grounded (t : FileTree) : Location → List String → Prop
  | _, [] => True
  | here, name :: rest =>
    (name = Location.up → t.isDirectory here = true) ∧ t.Grounded (Location.step here name) rest

lemma present_iff :
    t.present l = true ↔ t.isDirectory l = true ∨ ∃ content, t.content? l = some content := by
  rw [present, isDirectory, content?]
  rcases t.node? l with _ | _ | content
  · simp
  · simp
  · simp

/-- On a grounded way to something, every step starts from a directory. -/
lemma isDirectory_of_grounded (hrooted : t.Rooted) {here : Location} (hne : names ≠ [])
    (hgrounded : t.Grounded here names)
    (hpresent : t.present (Location.follow here names) = true) : t.isDirectory here = true := by
  induction names generalizing here with
  | nil => exact absurd rfl hne
  | cons name rest ih =>
      obtain ⟨hback, hgrounded⟩ := hgrounded
      have hnext : t.present (Location.step here name) = true := by
        cases rest with
        | nil => exact hpresent
        | cons name' rest' =>
            exact present_iff.2 (Or.inl (ih (List.cons_ne_nil _ _) hgrounded hpresent))
      by_cases hup : name = Location.up
      · exact hback hup
      · rw [Location.step, if_neg hup] at hnext
        exact hrooted here name hnext

/-- **What stands at the end of a grounded way is found by walking it.** -/
lemma walk?_of_grounded (hrooted : t.Rooted) {here : Location}
    (hgrounded : t.Grounded here names)
    (hpresent : t.present (Location.follow here names) = true) :
    t.walk? here names = some (Location.follow here names) := by
  induction names generalizing here with
  | nil =>
      rw [Location.follow_nil] at hpresent ⊢
      rw [walk?, if_pos hpresent]
  | cons name rest ih =>
      have hdirectory := isDirectory_of_grounded hrooted (List.cons_ne_nil name rest) hgrounded
        hpresent
      rw [walk?, if_pos hdirectory, Location.follow_cons]
      exact ih hgrounded.2 hpresent

lemma Same.rooted (h : t.Same t') (hrooted : t'.Rooted) : t.Rooted := by
  intro l name hpresent
  rw [h.isDirectory]
  refine hrooted l name ?_
  rwa [present, ← h]

lemma Rooted.dropLast (h : t.Rooted) (hl : t.isDirectory l = true) :
    t.isDirectory l.dropLast = true := by
  rcases List.eq_nil_or_concat l with rfl | ⟨before, name, rfl⟩
  · exact hl
  · rw [List.concat_eq_append] at hl ⊢
    rw [List.dropLast_concat]
    exact h before name (present_iff.2 (Or.inl hl))

/-- A directory that is made in another one is rooted. -/
lemma Rooted.put_directory {name : String} (h : t.Rooted) (hl : t.isDirectory l = true) :
    (t.put (l ++ [name]) .directory).Rooted := by
  intro l' name' hpresent
  rw [isDirectory_put_directory (by simp)]
  rw [present, node?_put (by simp)] at hpresent
  split at hpresent
  · rename_i hsame
    exact Or.inl (isDirectory_congr (Location.stored_eq_of_concat hsame) ▸ hl)
  · exact Or.inl (h l' name' hpresent)

/-- **Making a way keeps a tree rooted**, and ends at a directory if it comes to its end. -/
lemma rooted_makeWay {here : Location} {made : Bool} (hrooted : t.Rooted)
    (hhere : t.isDirectory here = true) :
    (t.makeWay here made names).1.Rooted ∧ ∀ l, (t.makeWay here made names).2 = .ok l →
      (t.makeWay here made names).1.isDirectory l = true := by
  induction names generalizing t here made with
  | nil =>
      rw [makeWay]
      refine ⟨hrooted, fun l hl => ?_⟩
      rw [← Except.ok.inj hl]
      exact hhere
  | cons name rest ih =>
      rw [makeWay]
      dsimp only
      split
      · exact ih hrooted (hrooted.dropLast hhere)
      · split
        · rename_i hdirectory
          exact ih hrooted (isDirectory_iff.2 hdirectory)
        · split
          · refine ih (hrooted.put_directory hhere) ?_
            exact (isDirectory_put_directory (by simp)).2 (Or.inr rfl)
          · exact ⟨hrooted, by simp⟩
        · exact ⟨hrooted, by simp⟩

lemma rooted_makeDirectory (hrooted : t.Rooted) (names : List String) :
    (t.makeDirectory names).1.Rooted ∧ ∀ l, (t.makeDirectory names).2 = .ok l →
      (t.makeDirectory names).1.isDirectory l = true := by
  rw [makeDirectory]
  split
  · exact ⟨hrooted, by simp⟩
  · split
    · exact ⟨hrooted, by simp⟩
    · split
      · exact ⟨hrooted, by simp⟩
      · exact rooted_makeWay hrooted rfl

end FileTree

namespace Output

variable {t t' : FileTree} {names : List String} {content : String} {l : Location} {e : OsError}

/-! ## One file -/

/-- Putting a file in a directory keeps a tree rooted, whether it succeeds or not. -/
lemma rooted_replaceFile {directory : Location} (hrooted : t.Rooted)
    (hdirectory : t.isDirectory directory = true) :
    (replaceFile t directory names content).1.Rooted := by
  cases hwrite : replaceFile t directory names content with
  | mk t' result =>
      cases result with
      | error e => exact FileTree.Same.rooted (node?_of_replaceFile_error hwrite) hrooted
      | ok u =>
          obtain ⟨name, -, -, hrename⟩ := renameFile_of_replaceFile hwrite
          obtain ⟨written, -, hall⟩ := FileTree.content?_of_renameFile (by simp) hrename
          intro l name' hpresent
          rw [isDirectory_of_replaceFile hwrite]
          rcases FileTree.present_iff.1 hpresent with hthere | ⟨content', hcontent⟩
          · rw [isDirectory_of_replaceFile hwrite] at hthere
            exact hrooted l name' (FileTree.present_iff.2 (Or.inl hthere))
          · rw [hall] at hcontent
            split_ifs at hcontent with hsame hother
            · rwa [← FileTree.isDirectory_congr (Location.stored_eq_of_concat hsame)]
            · rw [FileTree.content?_put_file (by simp), if_neg hother] at hcontent
              exact hrooted l name' (FileTree.present_iff.2 (Or.inr ⟨content', hcontent⟩))

/-- **Writing a file keeps a tree rooted**, whether it succeeds or not. -/
lemma rooted_write (hrooted : t.Rooted) : (write t names content).1.Rooted := by
  obtain ⟨hmade, hdirectory⟩ := FileTree.rooted_makeDirectory hrooted names.dropLast
  rw [write]
  split
  · rename_i made e heq
    rwa [heq] at hmade
  · rename_i made directory heq
    rw [heq] at hmade hdirectory
    exact rooted_replaceFile hmade (hdirectory directory rfl)

/-- Names that are written are names that can be asked for. -/
lemma ofNames?_of_write (h : write t names content = (t', .ok ())) :
    OsError.ofNames? names = none := by
  have hdirectories : OsError.ofNames? names.dropLast = none := by
    rw [write, FileTree.makeDirectory] at h
    cases hnames : OsError.ofNames? names.dropLast with
    | none => rfl
    | some e =>
        rw [hnames] at h
        cases h
  rw [write] at h
  split at h
  · cases h
  · rename_i made directory hmade
    have hlast : OsError.ofNames? [names.getLast?.getD ""] = none := by
      rw [replaceFile] at h
      dsimp only at h
      split at h
      · cases h
      · rename_i hnone
        exact hnone
    obtain ⟨name, hname, -⟩ := renameFile_of_replaceFile h
    obtain ⟨before, rfl⟩ := List.getLast?_eq_some_iff.1 hname
    rw [List.dropLast_concat] at hdirectories
    rw [hname, Option.getD_some] at hlast
    rw [OsError.ofNames?_eq_none_iff] at hdirectories ⊢
    intro other hother
    rcases List.mem_append.1 hother with hbefore | hlastName
    · exact hdirectories other hbefore
    · rwa [List.mem_singleton.1 hlastName]

/-! ## New files -/

variable {path : WrittenPath}

/-- What can be looked for and is there is reported, and nothing is done. -/
lemma writeNew_of_walk? (hnames : OsError.ofNames? path.names = none)
    (h : t.walk? [] path.names = some l) :
    writeNew t path content = (t, .error (if Location.fits 0 path.names then .occupied path
      else .system .nameTooLong)) := by
  rw [writeNew, FileTree.standsAt, hnames, FileTree.refusesLook, h]
  cases Location.fits 0 path.names with
  | true => rfl
  | false => rfl

/-- A new file is written, or nothing but directories is made. -/
lemma writeNew_cases (t : FileTree) (path : WrittenPath) (content : String) :
    (∃ e, writeNew t path content = (t, .error e)) ∨
      t.standsAt path.names = .ok false ∧
        writeNew t path content = ((write t path.names content).1,
          (write t path.names content).2.mapError .system) := by
  rw [writeNew]
  cases hstands : t.standsAt path.names with
  | error e => exact Or.inl ⟨_, rfl⟩
  | ok there =>
      cases there with
      | true => exact Or.inl ⟨_, rfl⟩
      | false =>
          refine Or.inr ⟨rfl, ?_⟩
          dsimp only
          cases write t path.names content with
          | mk t' result => cases result <;> rfl

/-- A write that fails leaves all files as they were. -/
lemma content?_of_write_error (h : write t names content = (t', .error e)) (l : Location) :
    t'.content? l = t.content? l := by
  have hstep : writeOne true t (names, content) = (t', .error e) := h
  rcases content?_of_refused hstep l with hkept | ⟨hplain, -⟩
  · exact hkept
  · cases hplain

/-- **On a grounded way a new file takes the place of nothing.** -/
lemma content?_writeNew_of_grounded (hrooted : t.Rooted) (hgrounded : t.Grounded [] path.names)
    {kept : String} (hl : t.content? l = some kept) :
    (writeNew t path content).1.content? l = some kept := by
  rcases writeNew_cases t path content with ⟨e, h⟩ | ⟨hstands, h⟩
  · rw [h, hl]
  · rw [h]
    cases hwrite : write t path.names content with
    | mk t' result =>
        cases result with
        | error e => rw [content?_of_write_error hwrite, hl]
        | ok u =>
            rw [content?_of_write hwrite, hl]
            split
            -- The new file would have been found where it is written.
            · rename_i hsame
              have hthere : t.present (Location.follow [] path.names) = true := by
                rw [FileTree.present, FileTree.node?_congr hsame]
                exact FileTree.present_iff.2 (Or.inr ⟨kept, hl⟩)
              have hwalk := FileTree.walk?_of_grounded hrooted hgrounded hthere
              rw [FileTree.standsAt, ofNames?_of_write hwrite, hwalk] at hstands
              simp only [Option.isSome_none, Bool.false_eq_true, if_false,
                Option.isSome_some] at hstands
              split at hstands
              · cases hstands
              · cases hstands
            · rfl

end Output

/-! ## Steps -/

namespace Output

/-- What a program asks of the file system, one thing at a time. -/
inductive Step where
  | write (names : List String) (content : String)
  | writeNew (path : WrittenPath) (content : String)
  | makeDirectory (names : List String)

namespace Step

variable {t t' : FileTree} {s : Step} {l : Location}

/-- The tree after a step, and why it fails if it does. -/
def run (t : FileTree) : Step → FileTree × Except OutputError Unit
  | write names content =>
    ((Output.write t names content).1, (Output.write t names content).2.mapError .system)
  | writeNew path content => Output.writeNew t path content
  | makeDirectory names =>
    ((t.makeDirectory names).1, ((t.makeDirectory names).2.map fun _ => ()).mapError .system)

/-- The file that a step is to write: its place and its content. -/
def file? : Step → Option (Location × String)
  | write names content => some (Location.follow [] names, content)
  | writeNew path content => some (Location.follow [] path.names, content)
  | makeDirectory _ => none

/-- The file that a step writes, if it succeeds. -/
def written? (t : FileTree) (s : Step) : Option (Location × String) :=
  (s.run t).2.toOption.bind fun _ => s.file?

/-- The tree after steps in order; the next step follows also on one that fails. -/
def runAll (t : FileTree) (steps : List Step) : FileTree :=
  steps.foldl (fun t s => (s.run t).1) t

/-- The files that are written by steps in order. -/
def written : FileTree → List Step → List (Location × String)
  | _, [] => []
  | t, s :: rest => (s.written? t).toList ++ written (s.run t).1 rest

/-- What files hold after an attempt to write one. -/
lemma content?_fst_write (t : FileTree) (names : List String) (content : String) (l : Location) :
    (Output.write t names content).1.content? l =
      (lastWritten? (((Output.write t names content).2.toOption.bind fun _ =>
        some (Location.follow [] names, content)).toList) l).or (t.content? l) := by
  cases hwrite : Output.write t names content with
  | mk t' result =>
      cases result with
      | error e => exact content?_of_write_error hwrite l
      | ok u =>
          rw [content?_of_write hwrite]
          change _ = (lastWritten? [(Location.follow [] names, content)] l).or (t.content? l)
          rw [lastWritten?_cons]
          split
          · rfl
          · rfl

/-- **A step changes the file that it writes, and no other.** -/
lemma content?_run (t : FileTree) (s : Step) (l : Location) :
    (s.run t).1.content? l = (lastWritten? (s.written? t).toList l).or (t.content? l) := by
  cases s with
  | write names content =>
      rw [written?, run, toOption_mapError]
      exact content?_fst_write t names content l
  | writeNew path content =>
      rw [written?, run]
      rcases writeNew_cases t path content with ⟨e, h⟩ | ⟨-, h⟩
      · rw [h]
        rfl
      · rw [h, toOption_mapError]
        exact content?_fst_write t path.names content l
  | makeDirectory names =>
      rw [written?, run, file?, Option.bind_fun_none]
      exact FileTree.content?_makeDirectory t names l

lemma rooted_run (hrooted : t.Rooted) (s : Step) : (s.run t).1.Rooted := by
  cases s with
  | write names content => exact rooted_write hrooted
  | writeNew path content =>
      rw [run]
      rcases writeNew_cases t path content with ⟨e, h⟩ | ⟨-, h⟩
      · rw [h]
        exact hrooted
      · rw [h]
        exact rooted_write hrooted
  | makeDirectory names => exact (FileTree.rooted_makeDirectory hrooted names).1

lemma rooted_runAll (hrooted : t.Rooted) (steps : List Step) : (runAll t steps).Rooted := by
  induction steps generalizing t with
  | nil => exact hrooted
  | cons s rest ih => exact ih (rooted_run hrooted s)

/-! ## Runs -/

lemma lastWritten?_append (files files' : List (Location × String)) (l : Location) :
    lastWritten? (files ++ files') l = (lastWritten? files' l).or (lastWritten? files l) := by
  rw [lastWritten?, lastWritten?, lastWritten?, List.reverse_append, List.find?_append, Option.map_or]

/-- **A file holds what the last successful step wrote to its place**, and else what it held. -/
theorem content?_runAll (t : FileTree) (steps : List Step) (l : Location) :
    (runAll t steps).content? l = (lastWritten? (written t steps) l).or (t.content? l) := by
  induction steps generalizing t with
  | nil => rfl
  | cons s rest ih =>
      have hstep := ih (s.run t).1
      rw [content?_run, ← Option.or_assoc, ← lastWritten?_append] at hstep
      exact hstep

/-- **What a step does to the files of a tree.**  A file that is there afterwards was there before or
is the one that the step writes, so no temporary file stays; a step that fails changes none.  A file
that must be new is refused where something is found, and then nothing at all changes; on a grounded
way it never changes a file that was there. -/
structure Careful (t : FileTree) (s : Step) : Prop where
  nothingElse : ∀ l content, (s.run t).1.content? l = some content →
    t.content? l = some content ∨
      ∃ place, s.written? t = some (place, content) ∧ place.stored = l.stored
  failing : ∀ e, (s.run t).2 = .error e → ∀ l, (s.run t).1.content? l = t.content? l
  refusing : ∀ path content l, s = .writeNew path content → OsError.ofNames? path.names = none →
    t.walk? [] path.names = some l → s.run t = (t, .error
      (if Location.fits 0 path.names then .occupied path else .system .nameTooLong))
  keeping : ∀ path content, s = .writeNew path content → t.Grounded [] path.names →
    ∀ l kept, t.content? l = some kept → (s.run t).1.content? l = some kept

lemma careful (hrooted : t.Rooted) (s : Step) : s.Careful t := by
  refine ⟨fun l content h => ?_, fun e h l => ?_, fun path content l hs hnames hwalk => ?_,
    fun path content hs hgrounded l kept h => ?_⟩
  · rw [content?_run] at h
    cases hwritten : s.written? t with
    | none =>
        rw [hwritten] at h
        exact Or.inl h
    | some f =>
        obtain ⟨place, written⟩ := f
        rw [hwritten, Option.toList_some, lastWritten?_cons] at h
        split at h
        · rename_i hsame
          obtain rfl : written = content := Option.some.inj h
          exact Or.inr ⟨place, rfl, hsame⟩
        · exact Or.inl h
  · rw [content?_run, written?, h]
    rfl
  · rw [hs]
    exact writeNew_of_walk? hnames hwalk
  · rw [hs]
    exact content?_writeNew_of_grounded hrooted hgrounded h

/-- **Histories of writing.**  After any steps, failing ones among them, every file holds what was
last written to its place, and what it held at first if nothing was; and every single step was
careful with the tree it met. -/
theorem history_of_rooted (hrooted : t.Rooted) (steps : List Step) :
    (∀ l, (runAll t steps).content? l = (lastWritten? (written t steps) l).or (t.content? l)) ∧
    ∀ before s after, steps = before ++ s :: after → s.Careful (runAll t before) := by
  refine ⟨content?_runAll t steps, fun before s after _ => ?_⟩
  exact careful (rooted_runAll hrooted before) s

/-! ## Up from a directory that is not there -/

lemma rooted_empty : ({} : FileTree).Rooted := by
  intro l name hpresent
  have hempty : ({} : FileTree).node? (l ++ [name]) = none := by simp [FileTree.node?, Entries.get?]
  rw [FileTree.present, hempty] at hpresent
  cases hpresent

/-- A file is written, and once more as if it were new; its place is then taken for a directory. -/
def clumsy : List Step := [
  .write ["out", "b"] "keep",
  .writeNew ⟨1, ["out", "b"]⟩ "new",
  .makeDirectory ["out", "b"]]

theorem history_of_clumsy :
    ({} : FileTree).Rooted ∧
    (∀ l, (runAll {} clumsy).content? l =
      (lastWritten? (written {} clumsy) l).or (({} : FileTree).content? l)) ∧
    ∀ before s after, clumsy = before ++ s :: after → s.Careful (runAll {} before) :=
  ⟨rooted_empty, history_of_rooted rooted_empty clumsy⟩

/-- **A file that must be new can take the place of another**: its way goes through a directory that
is not there when the file is looked for, and up again once the directory has been made. -/
theorem writeNew_overwrites :
    ∃ t s, t = runAll {} [.write ["out", "b"] "keep"] ∧
      s = Step.writeNew ⟨1, ["out", "a", "..", "b"]⟩ "new" ∧ t.Rooted ∧
      t.content? ["out", "b"] = some "keep" ∧
      (s.run t).2 = .ok () ∧ (s.run t).1.content? ["out", "b"] = some "new" := by
  refine ⟨_, _, rfl, rfl, rooted_runAll rooted_empty _, by decide +kernel, ?_, by decide +kernel⟩
  exact toOption_eq_some.1 (by decide +kernel)

end Step

end Output

end SchemaClasses
