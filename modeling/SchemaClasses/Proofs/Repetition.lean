import SchemaClasses.Proofs.Overwriting
import SchemaClasses.Proofs.Switches
import SchemaClasses.Proofs.WritingAgain

/-!
# Running once more

A run that has finished leaves behind all that it read: the settings file and the document are among
the files that were there, and no file that was there has changed.  So the same command line makes
the same plan once more, but for its switches (`plan_again`).  What is recorded of a command line
names no switch, and nothing that is generated depends on the mode of the output, so the files are
the same as well.

All that is left is whether they may be overwritten.  If not, they are in the way of themselves; if
they may, they are written as they stand.  In both cases the tree stays as it is (`run_again`).  What
this does not cover are command lines that ask for help, which end well every time, and the switch
`--verbose` alone, which overwrites nothing (`run_again_of_help`).
-/

namespace SchemaClasses

/-! ## What is kept -/

/-- What stands in one tree stands in another as well. -/
def FileTree.Kept (t t' : FileTree) : Prop := ∀ l n, t.node? l = some n → t'.node? l = some n

namespace FileTree.Kept

variable {t t' : FileTree} {l : Location} {content : String}

lemma present (h : t.Kept t') (hl : t.present l = true) : t'.present l = true := by
  obtain ⟨n, hn⟩ := Option.isSome_iff_exists.1 hl
  rw [FileTree.present, h l n hn]
  rfl

lemma content? (h : t.Kept t') (hl : t.content? l = some content) :
    t'.content? l = some content := by
  rw [← node?_eq_file_iff] at hl ⊢
  exact h l _ hl

/-- A file that is there does not become a directory. -/
lemma isDirectory (h : t.Kept t') (hl : t.present l = true) :
    t'.isDirectory l = t.isDirectory l := by
  obtain ⟨n, hn⟩ := Option.isSome_iff_exists.1 hl
  rw [FileTree.isDirectory, FileTree.isDirectory, hn, h l n hn]

end FileTree.Kept

/-- Where nothing may be overwritten, everything is kept. -/
lemma Output.kept_of_writeArtifacts {t t' : FileTree} {root : Location} {rule : OutputRule}
    {artifacts : List Artifact} {places : List Location} (hroot : Location.up ∉ root)
    (hrule : rule.overwrite = false)
    (h : writeArtifacts t root rule artifacts = (t', .ok places)) : t.Kept t' := by
  obtain ⟨files, -, -, hup, hwritten⟩ := exists_writeAll_of_writeArtifacts hroot h
  intro l n hn
  cases n with
  | directory =>
      rw [← FileTree.isDirectory_iff] at hn ⊢
      exact (isDirectory_of_writeAll hup hwritten l).2 (Or.inl hn)
  | file content =>
      rw [FileTree.node?_eq_file_iff] at hn ⊢
      have hkept : (writeArtifacts t root rule artifacts).1.content? l = some content :=
        content?_of_writeArtifacts_keep hroot hrule hn
      rwa [h] at hkept

namespace CommandLine

open Settings (declaredMode)

/-! ## The same plan -/

variable {t t' : FileTree} {here : Location} {args args' : List String} {g g' : Given} {p : Plan}
  {r : Request}

/-- The same request with other switches. -/
def Request.switched (r : Request) (g : Given) : Request :=
  { r with parameters :=
    { r.parameters with force := g.isOn .force, verbose := g.isOn .verbose } }

/-- The same plan with other switches. -/
def Plan.switched (p : Plan) (g : Given) : Plan where
  request := p.request.switched g
  settings :=
    { p.settings with outputMode := if g.isOn .force then .force else p.settings.outputMode }
  generated := p.generated

lemma Given.Echoes.field? (h : g'.Echoes g) (f : Field) : g'.field? f = g.field? f := by
  rw [Given.field?, Given.field?, h.fields]

lemma Given.Echoes.chosenLanguage (h : g'.Echoes g) : chosenLanguage g' = chosenLanguage g := by
  rw [CommandLine.chosenLanguage, CommandLine.chosenLanguage, languageCode, languageCode, h.field?]

lemma existing_kept {path : String} {l : Location} (hkept : t.Kept t')
    (h : existing t here path = .ok l) : existing t' here path = .ok l ∧ t.present l = true := by
  rw [existing, bind_eq_ok] at h ⊢
  obtain ⟨l', hl', h⟩ := h
  split at h
  · rename_i hpresent
    obtain rfl := Except.ok.inj h
    exact ⟨⟨l', hl', if_pos (hkept.present hpresent)⟩, hpresent⟩
  · cases h

lemma documentPlace_kept {path : String} {l : Location} (hkept : t.Kept t')
    (h : documentPlace t here path = .ok l) : documentPlace t' here path = .ok l := by
  rw [documentPlace, bind_eq_ok] at h ⊢
  obtain ⟨l', hl', h⟩ := h
  obtain ⟨hexisting, hpresent⟩ := existing_kept hkept hl'
  refine ⟨l', hexisting, ?_⟩
  rwa [hkept.isDirectory hpresent]

lemma outputPlace_free {path : String} {l : Location} (h : outputPlace t here path = .ok l)
    (hfree : t'.content? l = none) : outputPlace t' here path = .ok l := by
  rw [outputPlace, bind_eq_ok] at h ⊢
  obtain ⟨l', hl', h⟩ := h
  split at h
  · cases h
  · obtain rfl := Except.ok.inj h
    exact ⟨l', hl', if_neg (by rw [hfree]; exact Bool.false_ne_true)⟩

lemma configPlace_kept {config : Option Location} (hkept : t.Kept t') (hechoes : g'.Echoes g)
    (h : configPlace t here g = .ok config) : configPlace t' here g' = .ok config := by
  rw [configPlace] at h ⊢
  rw [hechoes.field?]
  split at h
  · obtain ⟨l, hl, rfl⟩ := map_eq_ok.1 h
    exact map_eq_ok.2 ⟨l, (existing_kept hkept hl).1, rfl⟩
  · exact h

lemma checkField_kept {f : Field} (hkept : t.Kept t') (hechoes : g'.Echoes g)
    (h : checkField t here g f = .ok ()) : checkField t' here g' f = .ok () := by
  cases f with
  | config =>
      obtain ⟨config, hconfig, -⟩ := map_eq_ok.1 h
      exact map_eq_ok.2 ⟨config, configPlace_kept hkept hechoes hconfig, rfl⟩
  | language =>
      rw [checkField] at h ⊢
      rwa [hechoes.chosenLanguage]
  | server | modelsNamespace | servicesNamespace => rfl

/-- **A request is made once more** where all that it looked at is kept, unless the output directory
has become a file. -/
lemma request_again (hkept : t.Kept t') (hechoes : g'.Echoes g) (h : request t here g = .ok r)
    (hfree : t'.content? r.output = none) : request t' here g' = .ok (r.switched g') := by
  simp only [request, bind_eq_ok] at h ⊢
  obtain ⟨checks, hchecks, config, hconfig, language, hlanguage, h⟩ := h
  have hfields : ∃ checks', traverse (checkField t' here g') (g'.fields.reverse.map (·.1)) =
      .ok checks' := by
    rw [hechoes.fields, traverse_isOk_iff]
    intro f hf
    obtain ⟨u, hu⟩ := traverse_isOk_iff.1 ⟨checks, hchecks⟩ f hf
    exact ⟨(), checkField_kept hkept hechoes hu⟩
  obtain ⟨checks', hchecks'⟩ := hfields
  refine ⟨checks', hchecks', config, configPlace_kept hkept hechoes hconfig, language,
    hechoes.chosenLanguage.trans hlanguage, ?_⟩
  rw [hechoes.arguments]
  split at h
  · rename_i path rest _
    simp only [bind_eq_ok] at h ⊢
    obtain ⟨document, hdocument, h⟩ := h
    refine ⟨document, documentPlace_kept hkept hdocument, ?_⟩
    split at h
    · rename_i output more
      rw [bind_eq_ok] at h ⊢
      obtain ⟨place, hplace, h⟩ := h
      split at h
      · rename_i hmore
        obtain rfl := Except.ok.inj h
        refine ⟨place, outputPlace_free hplace hfree, ?_⟩
        rw [if_pos hmore]
        simp only [Request.switched, languageCode, hechoes.field?]
        rfl
      · cases h
    · cases h
  · cases h

lemma fileText_kept {l : Location} {text : String} (hkept : t.Kept t')
    (h : fileText t l = .ok text) : fileText t' l = .ok text := by
  rw [fileText] at h ⊢
  split at h
  · rename_i content hcontent
    rw [hkept.content? hcontent]
    exact h
  · cases h

lemma fileSettings_kept {config : Option Location} {s : Settings} (hkept : t.Kept t')
    (h : fileSettings t config = .ok s) : fileSettings t' config = .ok s := by
  cases config with
  | none => exact h
  | some l =>
      simp only [fileSettings, bind_eq_ok] at h ⊢
      obtain ⟨text, htext, h⟩ := h
      exact ⟨text, fileText_kept hkept htext, h⟩

/-- The switches decide on the mode of the output and on nothing else: the recorded command line
names none of them. -/
lemma withParameters_switched (s : Settings) (q : Parameters) (force verbose : Bool) :
    withParameters s { q with force := force, verbose := verbose } =
      { withParameters s q with outputMode := if force then .force else s.outputMode } := rfl

/-- What is generated does not depend on the mode of the output. -/
lemma ofDocument_outputMode (doc : Document) (registry : TypeRegistry) (language : Language)
    (s : Settings) (mode : OutputMode) :
    Generation.ofDocument doc registry language { s with outputMode := mode } =
      Generation.ofDocument doc registry language s := rfl

/-- **What is generated once is generated once more** where all that was read is kept. -/
lemma prepare_again (hkept : t.Kept t') (hforce : p.request.parameters.force = false)
    (h : prepare t p.request = .ok (p.settings, p.generated)) (g' : Given) :
    prepare t' (p.request.switched g') =
      .ok ((p.switched g').settings, (p.switched g').generated) := by
  simp only [prepare, bind_eq_ok] at h ⊢
  obtain ⟨s, hs, text, htext, doc, hdoc, generated, hgenerated, h⟩ := h
  obtain ⟨hsettings, rfl⟩ := Prod.mk.inj (Except.ok.inj h)
  refine ⟨s, fileSettings_kept hkept hs, text, fileText_kept hkept htext, doc, hdoc,
    p.generated, ?_, ?_⟩
  · rw [Request.switched, withParameters_switched, ofDocument_outputMode]
    exact hgenerated
  · have hmode : p.settings.outputMode = s.outputMode := by
      rw [← hsettings, withParameters, hforce]
      rfl
    rw [Request.switched, withParameters_switched, Plan.switched, hmode, hsettings]
    rfl

lemma plan_ok (hg : readArguments args {} = .ok g) (hhelp : g.isOn .help = false)
    (hrequest : request t here g = .ok p.request)
    (hprepare : prepare t p.request = .ok (p.settings, p.generated)) :
    plan t here args = .ok p := by
  rw [plan, bind_eq_ok]
  refine ⟨g, mapError_eq_ok.2 hg, ?_⟩
  rw [hhelp, if_neg Bool.false_ne_true]
  simp only [bind_eq_ok, mapError_eq_ok]
  exact ⟨p.request, hrequest, _, hprepare, rfl⟩

/-- **The same command line makes the same plan**, but for its switches, where everything is kept
that was there. -/
theorem plan_again (hkept : t.Kept t') (hg : readArguments args {} = .ok g)
    (hforce : g.isOn .force = false) (hg' : readArguments args' {} = .ok g')
    (hechoes : g'.Echoes g) (hhelp : g'.isOn .help = false) (h : plan t here args = .ok p)
    (hfree : t'.content? p.request.output = none) :
    plan t' here args' = .ok (p.switched g') := by
  obtain ⟨g₀, hg₀, hrequest, hprepare⟩ := plan_eq_ok h
  obtain rfl := Except.ok.inj (hg₀.symm.trans hg)
  have hparameters := (request_eq_ok hrequest).2.2
  exact plan_ok hg' hhelp (request_again hkept hechoes hrequest hfree)
    (prepare_again hkept (hparameters.trans hforce) hprepare g')

/-! ## Runs that end well -/

lemma Ending.exitCode_stopped (s : Stop) : (stopped s).exitCode = 1 := by
  rw [exitCode]
  split
  · rfl
  · rfl

lemma Ending.Faulty.exitCode_ne_zero {ending : Ending} (h : ending.Faulty) :
    ending.exitCode ≠ 0 := by
  cases h with
  | usage e => exact Nat.succ_ne_zero 1
  | failure f =>
      rw [exitCode_stopped]
      decide
  | system e =>
      rw [exitCode_stopped]
      decide

/-- A run that is not to overwrite anything and ends well, not by giving help. -/
structure EndsWell (t : FileTree) (here : Location) (args : List String) (g : Given)
    (t' : FileTree) (ending : Ending) : Prop where
  given : readArguments args {} = .ok g
  unhelped : g.isOn .help = false
  unforced : g.isOn .force = false
  guarded : ∀ m, givenSettings t here args = some m → declaredMode m = .text "error"
  ran : run t here args = (t', ending)
  zero : ending.exitCode = 0

variable {ending : Ending}

/-- **A run that ends well has written its files.** -/
lemma EndsWell.exists_written (h : EndsWell t here args g t' ending) :
    ∃ p written, plan t here args = .ok p ∧
      Output.writeArtifacts t p.request.output p.settings.outputRule p.generated.artifacts =
        (t', .ok written) ∧
      ending = .finished written p.generated.failures := by
  have hran := h.ran
  cases hplan : plan t here args with
  | error early =>
      rw [run_of_plan_error hplan] at hran
      obtain ⟨-, rfl⟩ := Prod.mk.inj hran
      exact absurd h.zero (faulty_of_plan_error h.given h.unhelped hplan).exitCode_ne_zero
  | ok p =>
      rw [run_of_plan_ok hplan, Plan.write] at hran
      split at hran
      · obtain ⟨-, rfl⟩ := Prod.mk.inj hran
        exact absurd h.zero (by rw [Ending.exitCode_stopped]; exact Nat.one_ne_zero)
      · rename_i tree written hwritten
        obtain ⟨rfl, rfl⟩ := Prod.mk.inj hran
        exact ⟨p, written, rfl, hwritten, rfl⟩

lemma EndsWell.overwrite_eq_false (h : EndsWell t here args g t' ending)
    (hplan : plan t here args = .ok p) : p.settings.outputRule.overwrite = false := by
  rw [← Bool.not_eq_true, overwrite_of_plan h.given hplan, h.unforced, not_or]
  refine ⟨Bool.false_ne_true, ?_⟩
  rintro ⟨m, hm, hother⟩
  exact hother (h.guarded m hm)

/-- The output directory is a directory once the files have been written. -/
lemma isDirectory_output {doc : Document} {m : ClassModel} {project : List Artifact}
    {written : List Location} (hroot : Location.up ∉ p.request.output)
    (hyields : Generation.Yields doc {} p.request.language p.settings m project p.generated)
    (h : Output.writeArtifacts t p.request.output p.settings.outputRule p.generated.artifacts =
      (t', .ok written)) : t'.isDirectory p.request.output = true := by
  obtain ⟨files, hplaced, -, hup, hwritten⟩ := Output.exists_writeAll_of_writeArtifacts hroot h
  obtain ⟨a, ha⟩ := List.exists_mem_of_ne_nil _ hyields.artifacts_ne_nil
  obtain ⟨f, hf, hplace⟩ := forall₂_left (traverse_eq_ok_iff.1 hplaced) ha
  obtain ⟨names, hne, hplain, hpath⟩ := hyields.exists_names ha
  have hbelow : f.1 = p.request.output ++ names := by
    have htarget := Output.target_eq_ok_iff.2 (Output.placed_eq_ok_iff.1 hplace).1
    rw [hpath, Output.target_intercalate _ hne hplain] at htarget
    exact (Except.ok.inj htarget).symm
  refine (Output.isDirectory_of_writeAll hup hwritten _).2 (Or.inr ⟨f, hf, ?_⟩)
  rw [hbelow]
  exact Location.above_of_prefix (List.prefix_append _ _) (by simpa using hne)

/-! ## Running again -/

/-- A plan that was written to a tree without overwriting anything. -/
structure Plan.Wrote (p : Plan) (t t' : FileTree) (written : List Location) : Prop where
  up_not_mem : Location.up ∉ p.request.output
  keep : p.settings.outputRule.overwrite = false
  nonempty : p.generated.artifacts ≠ []
  wrote : Output.writeArtifacts t p.request.output p.settings.outputRule p.generated.artifacts =
    (t', .ok written)

namespace Plan.Wrote

variable {written : List Location}

/-- Files that may not be overwritten are in the way of themselves. -/
lemma write_of_unforced (h : p.Wrote t t' written) (hforce : g'.isOn .force = false) :
    (p.switched g').write t' = (t', .stopped (.output (.allOccupied written))) := by
  have hrule : (p.switched g').settings.outputRule = p.settings.outputRule := by
    rw [switched, hforce]
    rfl
  have hoccupied := Output.writeArtifacts_occupied h.up_not_mem h.keep h.nonempty h.wrote
  rw [← hrule] at hoccupied
  exact write_of_error hoccupied

/-- Files that may be overwritten are written as they stand. -/
lemma write_of_forced (h : p.Wrote t t' written) (hforce : g'.isOn .force = true) :
    ∃ t'', (p.switched g').write t' = (t'', .finished written p.generated.failures) ∧
      t''.Same t' := by
  have hrule : (p.switched g').settings.outputRule =
      { p.settings.outputRule with overwrite := true } := by
    rw [switched, hforce]
    rfl
  obtain ⟨t'', hagain, hsame⟩ := Output.writeArtifacts_again h.up_not_mem h.wrote
  rw [← hrule] at hagain
  exact ⟨t'', write_of_ok hagain, hsame⟩

end Plan.Wrote

namespace EndsWell

/-- What a run that ends well has written, and what a command line plans after it that gives the
same options and arguments. -/
lemma exists_wrote (hhere : here.Possible) (h : EndsWell t here args g t' ending) :
    ∃ (p : Plan) (written : List Location), p.Wrote t t' written ∧
      ending = .finished written p.generated.failures ∧
      ∀ args' g', readArguments args' {} = .ok g' → g'.Echoes g → g'.isOn .help = false →
        plan t' here args' = .ok (p.switched g') := by
  obtain ⟨p, written, hplan, hwritten, hending⟩ := h.exists_written
  have hkeep := h.overwrite_eq_false hplan
  have hroot := (possible_output hhere hplan).up_not_mem
  obtain ⟨_, _, _, _, -, hyields, -, -⟩ := exists_course hhere hplan
  refine ⟨p, written, ⟨hroot, hkeep, hyields.artifacts_ne_nil, hwritten⟩, hending, ?_⟩
  intro args' g' hg' hechoes hhelp
  have hfree : t'.content? p.request.output = none := by
    have hdirectory := isDirectory_output hroot hyields hwritten
    rw [FileTree.content?, FileTree.isDirectory_iff.1 hdirectory]
  exact plan_again (Output.kept_of_writeArtifacts hroot hkeep hwritten) h.given h.unforced hg'
    hechoes hhelp hplan hfree

/-- **Without `--force`** the next run is stopped by all the files of the first. -/
lemma stopped_again (hhere : here.Possible) (h : EndsWell t here args g t' ending)
    (hg' : readArguments args' {} = .ok g') (hechoes : g'.Echoes g)
    (hhelp : g'.isOn .help = false) (hforce : g'.isOn .force = false) :
    ∃ written failures, ending = .finished written failures ∧
      run t' here args' = (t', .stopped (.output (.allOccupied written))) := by
  obtain ⟨p, written, hwrote, hending, hplan⟩ := h.exists_wrote hhere
  refine ⟨written, p.generated.failures, hending, ?_⟩
  rw [run_of_plan_ok (hplan args' g' hg' hechoes hhelp), hwrote.write_of_unforced hforce]

/-- **With `--force`** the next run ends as the first did. -/
lemma finished_again (hhere : here.Possible) (h : EndsWell t here args g t' ending)
    (hg' : readArguments args' {} = .ok g') (hechoes : g'.Echoes g)
    (hhelp : g'.isOn .help = false) (hforce : g'.isOn .force = true) :
    ∃ t'', run t' here args' = (t'', ending) ∧ t''.Same t' := by
  obtain ⟨p, written, hwrote, rfl, hplan⟩ := h.exists_wrote hhere
  rw [run_of_plan_ok (hplan args' g' hg' hechoes hhelp)]
  exact hwrote.write_of_forced hforce

end EndsWell

/-- **Running once more is safe.**  After a run that was not to overwrite anything and ended well,
every command line with the same options and arguments leaves the tree as it is.  Without `--force`
it is stopped by the files that the first run has written, all of them; with it, it ends just as the
first run did.  Such a command line is the same one with switches added where an argument may
begin. -/
theorem run_again (hhere : here.Possible) (h : EndsWell t here args g t' ending) :
    (∀ args' g', readArguments args' {} = .ok g' → g'.Echoes g → g'.isOn .help = false →
      (g'.isOn .force = false → ∃ written failures, ending = .finished written failures ∧
        run t' here args' = (t', .stopped (.output (.allOccupied written))) ∧
        (run t' here args').2.exitCode = 1) ∧
      (g'.isOn .force = true → ∃ t'', run t' here args' = (t'', ending) ∧ t''.Same t' ∧
        (run t' here args').2.exitCode = 0)) ∧
    ∀ before after words b, args = before ++ after → "--" ∉ before →
      readArguments before {} = .ok b → words ⊆ switchWords →
      ∃ g', readArguments (before ++ words ++ after) {} = .ok g' ∧ g'.Echoes g ∧
        g'.isOn .help = false ∧ (g'.isOn .force = true ↔ "--force" ∈ words) := by
  constructor
  · intro args' g' hg' hechoes hhelp
    constructor
    · intro hforce
      obtain ⟨written, failures, hending, hrun⟩ := h.stopped_again hhere hg' hechoes hhelp hforce
      refine ⟨written, failures, hending, hrun, ?_⟩
      rw [hrun]
      exact Ending.exitCode_stopped _
    · intro hforce
      obtain ⟨t'', hrun, hsame⟩ := h.finished_again hhere hg' hechoes hhelp hforce
      refine ⟨t'', hrun, hsame, ?_⟩
      rw [hrun]
      exact h.zero
  · intro before after words b hargs hends hb hwords
    obtain ⟨g', hg', hechoes, hhelp, hforce⟩ :=
      readArguments_insert hends hb hwords (hargs ▸ h.given)
    refine ⟨g', hg', hechoes, hhelp.trans h.unhelped, ?_⟩
    rw [hforce, h.unforced, or_iff_left Bool.false_ne_true]

lemma exists_given_bare : ∃ g, readArguments ["a.json", "o"] {} = .ok g ∧
    g.isOn .help = false ∧ g.isOn .force = false := by
  obtain ⟨g, hg, hoff⟩ : ∃ g, readArguments ["a.json", "o"] {} = .ok g ∧
      (g.isOn .help, g.isOn .force) = (false, false) := exists_ok_of_toOption (by decide)
  exact ⟨g, hg, Prod.mk.inj hoff⟩

lemma givenSettings_bare : givenSettings bare ["w"] ["a.json", "o"] = none :=
  Option.isNone_iff_eq_none.1 (by decide)

lemma endsWell_bare :
    ∃ g t' ending, EndsWell bare ["w"] ["a.json", "o"] g t' ending := by
  obtain ⟨g, hg, hhelp, hforce⟩ := exists_given_bare
  have hzero : (run bare ["w"] ["a.json", "o"]).2.exitCode = 0 := by decide +kernel
  refine ⟨g, _, _, hg, hhelp, hforce, fun m hm => ?_, (Prod.eta _).symm, hzero⟩
  rw [givenSettings_bare] at hm
  cases hm

theorem run_again_of_bare : Location.Possible ["w"] ∧
    ∃ g t' ending, EndsWell bare ["w"] ["a.json", "o"] g t' ending ∧
      (run t' ["w"] ["a.json", "o"]).2.exitCode = 1 ∧
      ∃ t'', run t' ["w"] ["a.json", "--force", "-v", "o"] = (t'', ending) ∧ t''.Same t' := by
  obtain ⟨g, t', ending, hends⟩ := endsWell_bare
  obtain ⟨hall, hadded⟩ := run_again possible_w hends
  obtain ⟨_, _, -, -, hone⟩ := (hall _ g hends.given ⟨rfl, rfl⟩ hends.unhelped).1 hends.unforced
  obtain ⟨g', hg', hechoes, hhelp, hforce⟩ := hadded ["a.json"] ["o"] ["--force", "-v"] _ rfl
    (by decide) rfl (by decide)
  obtain ⟨t'', hrun, hsame, -⟩ := (hall _ g' hg' hechoes hhelp).2 (hforce.2 (by decide))
  exact ⟨possible_w, g, t', ending, hends, hone, t'', hrun, hsame⟩

/-- **Not every run that ends well is refused when it is repeated**, and not every switch that is
added lets it end well: help is given each time, and a run that logs its steps overwrites as little
as one that does not. -/
theorem run_again_of_help :
    ((∃ g, readArguments ["--help"] {} = .ok g ∧ g.isOn .force = false) ∧
      givenSettings bare ["w"] ["--help"] = none ∧
      (run bare ["w"] ["--help"]).2.exitCode = 0 ∧
      (run (run bare ["w"] ["--help"]).1 ["w"] ["--help"]).2.exitCode = 0) ∧
    ∃ g t' ending, EndsWell bare ["w"] ["a.json", "o"] g t' ending ∧
      (run t' ["w"] ["--verbose", "a.json", "o"]).2.exitCode = 1 := by
  refine ⟨⟨⟨_, rfl, rfl⟩, Option.isNone_iff_eq_none.1 (by decide +kernel), by decide +kernel,
    by decide +kernel⟩, ?_⟩
  obtain ⟨g, t', ending, hends⟩ := endsWell_bare
  obtain ⟨g', hg', hechoes, hhelp, hforce⟩ := readArguments_insert
    (List.not_mem_nil : "--" ∉ []) rfl (by decide : ["--verbose"] ⊆ switchWords) hends.given
  have hoff : g'.isOn .force = false := by
    rw [← Bool.not_eq_true, hforce, hends.unforced, or_iff_left Bool.false_ne_true]
    decide
  obtain ⟨written, _, -, hrun⟩ :=
    hends.stopped_again possible_w hg' hechoes (hhelp.trans hends.unhelped) hoff
  have hlogged : run t' ["w"] ["--verbose", "a.json", "o"] =
    (t', .stopped (.output (.allOccupied written))) := hrun
  refine ⟨g, t', ending, hends, ?_⟩
  rw [hlogged]
  exact Ending.exitCode_stopped _

end CommandLine

end SchemaClasses
