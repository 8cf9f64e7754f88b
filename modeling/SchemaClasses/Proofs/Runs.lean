import Mathlib.Data.List.TakeWhile
import SchemaClasses.Proofs.Overlay
import SchemaClasses.Proofs.Plans

/-!
# All or nothing

A run that ends early leaves the tree as it was.  One that comes to write goes one of four ways
(`Plan.Course`): what is already there stops it, or the file system refuses to look, and the tree is
as it was; all files are written, and the tree is the old one with just these files laid over it; or
some file is refused, with the ones before it written.  Classes that could not be rendered stop
nothing.  They are reported in the end, when everything else has been written.

`run_all_or_nothing` says this of every run, together with what is printed.  Only the refused write
is left between all and nothing, and it need not come from the file system: a title can hold half of
a pair, which no file can (`run_of_halves`).
-/

namespace SchemaClasses.CommandLine

variable {t : FileTree} {here : Location} {args : List String} {p : Plan}
  {files : List (Location × String)}

/-! ## The second half -/

/-- The ways the second half of a run can go, with the tree and the end of each. -/
inductive Plan.Course (t : FileTree) (p : Plan) (files : List (Location × String)) :
    FileTree × Ending → Prop where
  | occupied (keep : p.settings.outputRule.overwrite = false)
      (found : ∃ f ∈ files, t.present f.1 = true) : Course t p files
        (t, .stopped (.output (.allOccupied ((files.map (·.1)).filter t.present))))
  | unlooked (keep : p.settings.outputRule.overwrite = false)
      (refuses : ∃ f ∈ files, t.refusesLook f.1 = true) : Course t p files
        (t, .stopped (.output (.system .nameTooLong)))
  | refused {before after : List (Location × String)} {f : Location × String}
      {written t' : FileTree} {reason : OsError} (order : files = before ++ f :: after)
      (overlaid : ∀ l, written.node? l = Output.overlay t before l)
      (refusal : Output.Refusal written f.1 f.2 reason)
      (kept : ∀ l, t'.content? l = written.content? l ∨
        p.settings.outputRule.atomic = false ∧ f.1.stored = l.stored ∧ t'.content? l = some "") :
      Course t p files (t', .stopped (.output (.system reason)))
  | finished {t' : FileTree} (free : p.settings.outputRule.overwrite = false →
        ∀ f ∈ files, t.present f.1 = false)
      (overlaid : ∀ l, t'.node? l = Output.overlay t files l) :
      Course t p files (t', .finished (files.map (·.1)) p.generated.failures)

/-- **Writing a plan goes one of these ways.** -/
theorem course_of_write (t : FileTree) (hplaces : p.Places files)
    (hpossible : ∀ f ∈ files, f.1.Possible) : p.Course t files (p.write t) := by
  have hup : ∀ f ∈ files, Location.up ∉ f.1 := fun f hf => (hpossible f hf).up_not_mem
  have hlook : (!p.settings.outputRule.overwrite && (files.map (·.1)).any t.refusesLook) = true ↔
      p.settings.outputRule.overwrite = false ∧ ∃ f ∈ files, t.refusesLook f.1 = true := by
    rw [Bool.and_eq_true, Bool.not_eq_true', List.any_map, List.any_eq_true]
    rfl
  have hfound : (!p.settings.outputRule.overwrite &&
        !((files.map (·.1)).filter t.present).isEmpty) = true ↔
      p.settings.outputRule.overwrite = false ∧ ∃ f ∈ files, t.present f.1 = true := by
    simp
  rw [Plan.write, Output.writeArtifacts, places_iff.1 hplaces]
  dsimp only
  split_ifs with hrefuses hpresent
  · obtain ⟨hkeep, hrefuses⟩ := hlook.1 hrefuses
    exact .unlooked hkeep hrefuses
  · obtain ⟨hkeep, hpresent⟩ := hfound.1 hpresent
    exact .occupied hkeep hpresent
  · cases hwritten : Output.writeAll p.settings.outputRule.atomic t files with
    | mk t' result =>
        cases result with
        | ok u =>
            refine .finished (fun hkeep f hf => ?_) (Output.node?_of_writeAll hup hwritten)
            rw [← Bool.not_eq_true]
            exact fun hthere => hpresent (hfound.2 ⟨hkeep, f, hf, hthere⟩)
        | error e =>
            obtain ⟨before, f, after, written, reason, rfl, hbefore, hstop, rfl⟩ :=
              Output.writeAll_eq_error hwritten
            have hf := hpossible f (by simp)
            exact .refused rfl
              (Output.node?_of_writeAll (fun f hf => hup f (List.mem_append_left _ hf)) hbefore)
              (Output.refusal_of_writeOne hf.asked hstop) (Output.content?_of_refused hstop)

/-! ## Whole runs -/

/-- Ends at which nothing has been written. -/
inductive Ending.Unwritten : Ending → Prop where
  | usage (e : UsageError) : Unwritten (.usage e)
  | help : Unwritten .help
  | failure (f : Failure) : Unwritten (.stopped (.failure f))
  | occupied (targets : List Location) : Unwritten (.stopped (.output (.allOccupied targets)))

lemma Plan.Course.eq_of_unwritten {after : FileTree × Ending} (h : p.Course t files after)
    (hunwritten : after.2.Unwritten) : after.1 = t := by
  cases h with
  | occupied keep found => rfl
  | unlooked keep refuses => rfl
  | refused order overlaid refusal kept => cases hunwritten
  | finished free overlaid => cases hunwritten

/-- A finished run has written its files and nothing else. -/
lemma Plan.Course.overlaid_of_finished {t' : FileTree} {written : List Location}
    {failures : List (ClassFailure Failure)}
    (h : p.Course t files (t', .finished written failures)) :
    files.map (·.1) = written ∧ p.generated.failures = failures ∧
      ∀ l, t'.node? l = Output.overlay t files l := by
  generalize hafter : (t', Ending.finished written failures) = after at h
  cases h with
  | occupied keep found => cases hafter
  | unlooked keep refuses => cases hafter
  | refused order overlaid refusal kept => cases hafter
  | finished free overlaid =>
      obtain ⟨rfl, hending⟩ := Prod.mk.inj hafter
      obtain ⟨rfl, rfl⟩ := Ending.finished.inj hending
      exact ⟨rfl, rfl, overlaid⟩

lemma exists_course (hhere : here.Possible) (h : plan t here args = .ok p) :
    ∃ doc m project files, p.Reads t doc ∧
      Generation.Yields doc {} p.request.language p.settings m project p.generated ∧
      p.Places files ∧ p.Course t files (run t here args) := by
  obtain ⟨g, -, -, hprepare⟩ := plan_eq_ok h
  obtain ⟨doc, hreads⟩ := exists_reads hprepare
  obtain ⟨m, project, hyields⟩ := Generation.exists_yields hreads.generated
  obtain ⟨files, hplaces, hpossible⟩ := exists_places_of_plan (possible_output hhere h) hyields
  refine ⟨doc, m, project, files, hreads, hyields, hplaces, ?_⟩
  rw [run_of_plan_ok h]
  exact course_of_write t hplaces hpossible

/-- If all lines can be printed, they all are, and only the failures decide what the run returns. -/
lemma Ending.output_of_printable {written : List Location} (failures : List (ClassFailure Failure))
    (h : ∀ l ∈ written, printable (writtenLine l) = true) :
    (finished written failures).output = printed (String.join (written.map writtenLine)) ∧
      (finished written failures).exitCode = if failures.isEmpty then 0 else 1 := by
  have hall : written.all (printable ∘ writtenLine) = true := List.all_eq_true.2 h
  constructor
  · rw [output, List.takeWhile_eq_self_iff.2]
    rw [List.forall_mem_map]
    exact h
  · rw [exitCode, unhandled?, if_pos hall]
    rfl

/-- A line that cannot be printed stops the printing, when everything has been written. -/
lemma Ending.exitCode_of_unprintable {written : List Location}
    (failures : List (ClassFailure Failure))
    (h : ∃ l ∈ written, printable (writtenLine l) = false) :
    (finished written failures).exitCode = 1 := by
  have hnot : ¬ written.all (printable ∘ writtenLine) = true := by
    obtain ⟨l, hl, hline⟩ := h
    rw [List.all_eq_true]
    exact fun hall => Bool.false_ne_true (hline.symm.trans (hall l hl))
  rw [exitCode, unhandled?, if_neg hnot]
  rfl

/-- A directory with an empty document. -/
def bare : FileTree := ⟨[(["w"], .directory), (["w", "a.json"], .file "\x7b\x7d")]⟩

lemma possible_w : Location.Possible ["w"] := ⟨by decide, by decide⟩

/-- A directory with a document of one class, in the title of which stands half of a pair. -/
def halfTitle : FileTree := ⟨[(["w"], .directory), (["w", "a.json"], .file
  ("\x7b\"info\": \x7b\"title\": \"\\ud800\"\x7d, "
    ++ "\"components\": \x7b\"schemas\": \x7b\"A\": \x7b\x7d\x7d\x7d\x7d"))]⟩

lemma run_halfTitle : ∃ p, plan halfTitle ["w"] ["a.json", "o"] = .ok p ∧
    p.generated.artifacts.map (·.path) = ["src/A.class.php", "README.md", "composer.json"] ∧
    ∃ t', run halfTitle ["w"] ["a.json", "o"] =
        (t', .stopped (.output (.system .halfCharacter))) ∧
      t'.present ["w", "o", "src", "A.class.php"] = true ∧
      t'.present ["w", "o", "README.md"] = false := by
  obtain ⟨p, hplan, hfacts⟩ : ∃ p, plan halfTitle ["w"] ["a.json", "o"] = .ok p ∧
      (fun after : FileTree × Except OutputError (List Location) =>
        (p.generated.artifacts.map (·.path), after.2,
          after.1.present ["w", "o", "src", "A.class.php"],
          after.1.present ["w", "o", "README.md"]))
        (Output.writeArtifacts halfTitle p.request.output p.settings.outputRule
          p.generated.artifacts) =
      (["src/A.class.php", "README.md", "composer.json"], .error (.system .halfCharacter), true,
        false) := exists_ok_of_toOption (by decide +kernel)
  simp only [Prod.mk.injEq] at hfacts
  obtain ⟨hpaths, hrefused, hpresent⟩ := hfacts
  have hrun := run_of_plan_ok hplan
  rw [Plan.write_of_error (Prod.ext rfl hrefused)] at hrun
  exact ⟨p, hplan, hpaths, _, hrun, hpresent⟩

/-- The name of a file that is a single byte, and no character. -/
def loneByte : String := String.ofList (Text.encode [0xDCFF])

lemma run_loneByte : ∃ t' written,
    run bare ["w"] ["a.json", loneByte] = (t', .finished written []) ∧
      (Ending.finished written []).exitCode = 1 ∧ (Ending.finished written []).output = "" := by
  obtain ⟨p, hplan, hfacts⟩ : ∃ p, plan bare ["w"] ["a.json", loneByte] = .ok p ∧
      (p.generated.failures.isEmpty, (Output.writeArtifacts bare p.request.output
        p.settings.outputRule p.generated.artifacts).2) =
      (true, .ok [["w", loneByte, "README.md"], ["w", loneByte, "composer.json"]]) :=
    exists_ok_of_toOption (by decide +kernel)
  rw [Prod.mk.injEq, List.isEmpty_iff] at hfacts
  obtain ⟨hfailures, hwritten⟩ := hfacts
  have hrun := run_of_plan_ok hplan
  rw [Plan.write_of_ok (Prod.ext rfl hwritten), hfailures] at hrun
  exact ⟨_, _, hrun, by decide +kernel, by decide +kernel⟩

end SchemaClasses.CommandLine
