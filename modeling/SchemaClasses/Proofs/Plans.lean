import SchemaClasses.CommandLine.Run
import SchemaClasses.Proofs.Checks
import SchemaClasses.Proofs.Isolation
import SchemaClasses.Proofs.OutputPlaces
import SchemaClasses.Proofs.Refusals

/-!
# What a run is going to do

A run has two halves.  In the first it reads its arguments, its settings and the document, checks
and renders; what comes out is a `Plan`, or the run ends.  Only in the second half, `Plan.write`, it
writes (`run_eq`).  So an end in the first half leaves everything as it was, and `Ending.Early`
lists these ends (`failsOnly_plan`).

What a plan holds is what its document gives rise to (`Generation.Yields`), and all of it has a
place below the output directory, under plain names: no artifact of a plan is ever refused for its
path (`exists_places_of_plan`).
-/

namespace SchemaClasses

/-! ## What is generated -/

lemma ClassModel.plain_fileName_of_mem {doc : Document} {home : Value} {registry : TypeRegistry}
    {accessibility : Accessibility} {m : ClassModel}
    (h : ofDocument doc home registry accessibility = .ok m) {d : ClassDef} (hd : d ∈ m.classes)
    (language : Language) : FileName.Plain (language.fileName d.name) := by
  obtain ⟨⟨key, hname⟩, -⟩ := names_of_mem h hd
  rw [hname]
  exact FileName.plain_fileName language key

namespace Generation

variable {doc : Document} {registry : TypeRegistry} {language : Language} {settings : Settings}
  {g : Generated Failure} {m : ClassModel} {project : List Artifact}

/-- What a document gives rise to: the classes of its model, each as a file or as a failure, and the
project files behind them. -/
structure Yields (doc : Document) (registry : TypeRegistry) (language : Language)
    (settings : Settings) (m : ClassModel) (project : List Artifact) (g : Generated Failure) :
    Prop where
  model : modelOf doc registry settings = .ok m
  writable : Writable (writer language settings) m.classes
  projectFiles : Project.files doc m language settings = .ok project
  artifacts : g.artifacts =
    m.classes.filterMap (artifact? (pathIn language) (writer language settings)) ++ project
  failures : g.failures = m.classes.filterMap (failure? (writer language settings))

lemma exists_yields (h : ofDocument doc registry language settings = .ok g) :
    ∃ m project, Yields doc registry language settings m project g := by
  simp only [ofDocument, ofDocumentWith, withProject, run, bind_eq_ok, mapError_eq_ok] at h
  obtain ⟨m, hm, generated, ⟨-, -, hwritten⟩, project, hproject, h⟩ := h
  obtain rfl := Except.ok.inj h
  have hfailures := failures_of_writeAll hwritten
  exact ⟨m, project, hm, writable_of_writeAll hwritten, hproject,
    by rw [artifacts_of_writeAll hwritten], hfailures⟩

/-- **Every artifact has a path of plain names.** -/
lemma Yields.exists_names (h : Yields doc registry language settings m project g) {a : Artifact}
    (ha : a ∈ g.artifacts) : ∃ names : List String, names ≠ [] ∧
      (∀ name ∈ names, FileName.Plain name) ∧ a.path = "/".intercalate names := by
  rw [h.artifacts] at ha
  rcases path_of_mem (paths_of_files h.projectFiles) ha with ⟨c, hc, hpath⟩ | hlisted
  · refine ⟨[language.sourceDirectory, language.fileName c.name], List.cons_ne_nil _ _, ?_,
      by rw [hpath, pathIn_eq_intercalate]⟩
    rw [List.forall_mem_cons, List.forall_mem_singleton]
    exact ⟨FileName.plain_sourceDirectory language,
      ClassModel.plain_fileName_of_mem h.model hc language⟩
  · refine ⟨[a.path], List.cons_ne_nil _ _, ?_, String.intercalate_singleton.symm⟩
    rw [List.forall_mem_singleton]
    exact FileName.plain_of_mem_projectFiles hlisted

/-- The project files are always among the artifacts. -/
lemma Yields.artifacts_ne_nil (h : Yields doc registry language settings m project g) :
    g.artifacts ≠ [] := by
  have hpaths := paths_of_files h.projectFiles
  rw [h.artifacts, Ne, List.append_eq_nil_iff, not_and]
  rintro - rfl
  cases hpaths

end Generation

namespace CommandLine

variable {t : FileTree} {here : Location} {args : List String} {g : Given} {r : Request}

/-! ## Plans -/

/-- What a run is going to write, and where. -/
structure Plan where
  request : Request
  settings : Settings
  generated : Generated Failure

/-- The first half of a run. -/
def plan (t : FileTree) (here : Location) (args : List String) : Except Ending Plan := do
  let g ← (readArguments args {}).mapError .usage
  if g.isOn .help then throw .help
  let r ← request t here g
  let (settings, generated) ← (prepare t r).mapError .stopped
  return ⟨r, settings, generated⟩

/-- The second half of a run. -/
def Plan.write (t : FileTree) (p : Plan) : FileTree × Ending :=
  match Output.writeArtifacts t p.request.output p.settings.outputRule p.generated.artifacts with
  | (t, .error e) => (t, .stopped (.output e))
  | (t, .ok written) => (t, .finished written p.generated.failures)

/-- **A run plans, and then it writes.** -/
theorem run_eq (t : FileTree) (here : Location) (args : List String) :
    run t here args =
      match plan t here args with
      | .error ending => (t, ending)
      | .ok p => p.write t := by
  rw [run, plan]
  cases readArguments args {} with
  | error e => rfl
  | ok g =>
      dsimp only
      by_cases hhelp : g.isOn .help
      · rw [if_pos hhelp]
        simp only [Except.mapError, bind, Except.bind, hhelp]
        rfl
      · rw [if_neg hhelp]
        simp only [Except.mapError, bind, Except.bind, hhelp]
        cases request t here g with
        | error ending => rfl
        | ok r =>
            dsimp only
            rw [perform]
            cases prepare t r with
            | error s => rfl
            | ok x => rfl

lemma run_of_plan_error {ending : Ending} (h : plan t here args = .error ending) :
    run t here args = (t, ending) := by
  rw [run_eq, h]

lemma run_of_plan_ok {p : Plan} (h : plan t here args = .ok p) : run t here args = p.write t := by
  rw [run_eq, h]

lemma Plan.write_of_ok {p : Plan} {t' : FileTree} {written : List Location}
    (h : Output.writeArtifacts t p.request.output p.settings.outputRule p.generated.artifacts =
      (t', .ok written)) : p.write t = (t', .finished written p.generated.failures) := by
  rw [write, h]

lemma Plan.write_of_error {p : Plan} {t' : FileTree} {e : OutputError}
    (h : Output.writeArtifacts t p.request.output p.settings.outputRule p.generated.artifacts =
      (t', .error e)) : p.write t = (t', .stopped (.output e)) := by
  rw [write, h]

lemma plan_eq_ok {p : Plan} (h : plan t here args = .ok p) :
    ∃ g, readArguments args {} = .ok g ∧ request t here g = .ok p.request ∧
      prepare t p.request = .ok (p.settings, p.generated) := by
  rw [plan, bind_eq_ok] at h
  obtain ⟨g, hg, h⟩ := h
  rw [mapError_eq_ok] at hg
  by_cases hhelp : g.isOn .help
  · rw [if_pos hhelp] at h
    cases h
  · rw [if_neg hhelp] at h
    simp only [bind_eq_ok, mapError_eq_ok] at h
    obtain ⟨r, hr, made, hmade, h⟩ := h
    obtain rfl := Except.ok.inj h
    exact ⟨g, hg, hr, hmade⟩

/-! ## Ends before the first write -/

/-- How a run ends that has not begun to write. -/
inductive Ending.Early : Ending → Prop where
  | usage (e : UsageError) : Early (.usage e)
  | help : Early .help
  | failure (f : Failure) : Early (.stopped (.failure f))
  | system (e : OsError) : Early (.stopped (.output (.system e)))

/-- An early end that is an error. -/
inductive Ending.Faulty : Ending → Prop where
  | usage (e : UsageError) : Faulty (.usage e)
  | failure (f : Failure) : Faulty (.stopped (.failure f))
  | system (e : OsError) : Faulty (.stopped (.output (.system e)))

lemma Ending.Faulty.early {ending : Ending} (h : ending.Faulty) : ending.Early := by
  cases h with
  | usage e => exact .usage e
  | failure f => exact .failure f
  | system e => exact .system e

lemma failsOnly_place (path : String) : FailsOnly Ending.Faulty (place here path) :=
  .mapError fun e _ => .system e

lemma failsOnly_existing (path : String) : FailsOnly Ending.Faulty (existing t here path) := by
  refine .bind (failsOnly_place path) fun l => ?_
  split
  · exact .ok l
  · exact .throw (.usage _)

lemma failsOnly_documentPlace (path : String) :
    FailsOnly Ending.Faulty (documentPlace t here path) := by
  refine .bind (failsOnly_existing path) fun l => ?_
  split
  · exact .throw (.usage _)
  · exact .ok l

lemma failsOnly_outputPlace (path : String) :
    FailsOnly Ending.Faulty (outputPlace t here path) := by
  refine .bind (failsOnly_place path) fun l => ?_
  split
  · exact .throw (.usage _)
  · exact .ok l

lemma failsOnly_configPlace : FailsOnly Ending.Faulty (configPlace t here g) := by
  rw [configPlace]
  split
  · exact (failsOnly_existing _).map
  · exact .ok none

lemma failsOnly_chosenLanguage : FailsOnly Ending.Faulty (chosenLanguage g) :=
  .mapError fun _ _ => .usage _

lemma failsOnly_checkField (f : Field) : FailsOnly Ending.Faulty (checkField t here g f) := by
  cases f with
  | config => exact failsOnly_configPlace.map
  | language => exact failsOnly_chosenLanguage.map
  | server | modelsNamespace | servicesNamespace => exact .ok ()

lemma failsOnly_request : FailsOnly Ending.Faulty (request t here g) := by
  refine .bind (.traverse failsOnly_checkField) fun _ => .bind failsOnly_configPlace fun config =>
    .bind failsOnly_chosenLanguage fun language => ?_
  dsimp only
  split
  · refine .bind (failsOnly_documentPlace _) fun document => ?_
    split
    · refine .bind (failsOnly_outputPlace _) fun output => ?_
      split
      · exact .ok _
      · exact .throw (.usage _)
    · exact .throw (.usage _)
  · exact .throw (.usage _)

/-! Reading and rendering fail with what stops a run. -/

lemma failsOnly_fileText (l : Location) :
    FailsOnly (fun s : Stop => (Ending.stopped s).Faulty) (fileText t l) := by
  rw [fileText]
  split
  · exact .ok _
  · exact .throw (.system _)

lemma failsOnly_fileSettings (config : Option Location) :
    FailsOnly (fun s : Stop => (Ending.stopped s).Faulty) (fileSettings t config) := by
  cases config with
  | none => exact .ok _
  | some l =>
      refine .bind (failsOnly_fileText l) fun _ => .bind ?_ fun _ => ?_
      · exact .mapError fun u _ => .failure (.unreadable u)
      · exact .mapError fun f _ => .failure f

lemma failsOnly_prepare : FailsOnly (fun s : Stop => (Ending.stopped s).Faulty) (prepare t r) := by
  refine .bind (failsOnly_fileSettings _) fun _ => .bind (failsOnly_fileText _) fun _ =>
    .bind ?_ fun _ => .bind ?_ fun _ => .ok _
  · exact .mapError fun f _ => .failure f
  · exact .mapError fun f _ => .failure f

/-- **A run that does not come to write ends early.** -/
theorem failsOnly_plan : FailsOnly Ending.Early (plan t here args) := by
  refine .bind (.mapError fun e _ => .usage e) fun g => ?_
  split
  · exact .throw .help
  · exact .mono (.bind failsOnly_request fun _ => .bind failsOnly_prepare.mapError fun _ => .ok _)
      fun _ => Ending.Faulty.early

/-- Unless help was asked for, it ends with an error. -/
lemma faulty_of_plan_error {ending : Ending} (hg : readArguments args {} = .ok g)
    (hhelp : g.isOn .help = false) (h : plan t here args = .error ending) : ending.Faulty := by
  refine FailsOnly.bind_of_ok (.mapError fun e _ => .usage e) (fun g' hg' => ?_) ending h
  obtain rfl := Except.ok.inj ((mapError_eq_ok.1 hg').symm.trans hg)
  rw [hhelp, if_neg Bool.false_ne_true]
  exact .bind failsOnly_request fun _ => .bind failsOnly_prepare.mapError fun _ => .ok _

/-! ## What a plan holds -/

variable {p : Plan}

/-- The document that a plan was made from, as it was read. -/
structure Plan.Reads (t : FileTree) (p : Plan) (doc : Document) : Prop where
  read : ∃ text, t.content? p.request.document = some text ∧
    Document.ofFile (p.request.document.getLast?.getD "") text = .ok doc
  generated : Generation.ofDocument doc {} p.request.language p.settings = .ok p.generated

lemma exists_reads (h : prepare t p.request = .ok (p.settings, p.generated)) :
    ∃ doc, p.Reads t doc := by
  simp only [prepare, bind_eq_ok, mapError_eq_ok] at h
  obtain ⟨_, -, text, htext, doc, hdoc, generated, hgenerated, h⟩ := h
  obtain ⟨hsettings, rfl⟩ := Prod.mk.inj (Except.ok.inj h)
  rw [hsettings] at hgenerated
  refine ⟨doc, ⟨text, ?_, hdoc⟩, hgenerated⟩
  rw [fileText] at htext
  split at htext
  · rename_i content hcontent
    rw [hcontent, Except.ok.inj htext]
  · cases htext

lemma request_eq_ok (h : request t here g = .ok r) :
    configPlace t here g = .ok r.config ∧ (∃ path, Output.resolve here path = .ok r.output) ∧
      r.parameters.force = g.isOn .force := by
  simp only [request, bind_eq_ok] at h
  obtain ⟨-, -, config, hconfig, language, -, h⟩ := h
  split at h
  · simp only [bind_eq_ok] at h
    obtain ⟨document, -, h⟩ := h
    split at h
    · rename_i path more hrest
      rw [bind_eq_ok] at h
      obtain ⟨output, houtput, h⟩ := h
      split at h
      · obtain rfl := Except.ok.inj h
        simp only [outputPlace, place, bind_eq_ok, mapError_eq_ok] at houtput
        obtain ⟨l, hl, houtput⟩ := houtput
        split at houtput
        · cases houtput
        · obtain rfl := Except.ok.inj houtput
          exact ⟨hconfig, ⟨path, hl⟩, rfl⟩
      · cases h
    · cases h
  · cases h

/-! ## Places of the artifacts -/

lemma possible_output (hhere : here.Possible) (h : plan t here args = .ok p) :
    p.request.output.Possible := by
  obtain ⟨g, -, hrequest, -⟩ := plan_eq_ok h
  obtain ⟨-, ⟨path, hpath⟩, -⟩ := request_eq_ok hrequest
  exact hhere.resolve hpath

/-- The files of a plan: the artifacts in order, each with its place below the output directory. -/
def Plan.Places (p : Plan) (files : List (Location × String)) : Prop :=
  List.Forall₂ (fun (a : Artifact) f => Output.Inside p.request.output a.path f.1 ∧
    a.content = f.2) p.generated.artifacts files

variable {doc : Document} {m : ClassModel} {project : List Artifact}
  {files : List (Location × String)}

lemma places_iff : p.Places files ↔
    traverse (Output.placed p.request.output) p.generated.artifacts = .ok files := by
  simp only [traverse_eq_ok_iff, Output.placed_eq_ok_iff, Plan.Places]

/-- Every artifact of a plan has a place, by names that can be asked for. -/
lemma exists_place (hroot : p.request.output.Possible)
    (h : Generation.Yields doc {} p.request.language p.settings m project p.generated)
    {a : Artifact} (ha : a ∈ p.generated.artifacts) :
    ∃ l : Location, l.Possible ∧ Output.target p.request.output a.path = .ok l := by
  obtain ⟨names, hne, hplain, hpath⟩ := h.exists_names ha
  refine ⟨p.request.output ++ names, ⟨?_, ?_⟩, by
    rw [hpath, Output.target_intercalate _ hne hplain]⟩
  · rw [List.mem_append]
    rintro (hmem | hmem)
    · exact hroot.up_not_mem hmem
    · exact (hplain _ hmem).ne_up rfl
  · rw [List.forall_mem_append]
    exact ⟨hroot.asked, fun name hname => (hplain name hname).ofNames?_eq_none⟩

/-- **All artifacts of a plan have places**, and all of these are possible. -/
theorem exists_places_of_plan (hroot : p.request.output.Possible)
    (h : Generation.Yields doc {} p.request.language p.settings m project p.generated) :
    ∃ files, p.Places files ∧ ∀ f ∈ files, f.1.Possible := by
  refine (exists_forall₂_iff.2 fun a ha => ?_).imp fun files => forall₂_and_right.1
  obtain ⟨l, hpossible, hl⟩ := exists_place hroot h ha
  exact ⟨(l, a.content), ⟨Output.target_eq_ok_iff.1 hl, rfl⟩, hpossible⟩

end CommandLine

end SchemaClasses
