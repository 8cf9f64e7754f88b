import SchemaClasses.Proofs.JsonValues
import SchemaClasses.Proofs.Runs
import SchemaClasses.Proofs.SettingChecks

/-!
# Files that are already there

Whether a run may overwrite files is decided far from where it writes them: by a switch on the
command line, or by a value in the settings file, which passes through a draft, a check and the
request before the writer looks at it.  `overwrite_of_plan` follows that value all the way.  Only
the text `error` protects what is there; the text `force` does not, other texts are refused, and a
mode that is not a text is accepted and protects nothing (`run_of_nullMode`).

With modes that are texts, then, a run that is not forced to overwrite files leaves all of them as
they are (`run_keeps_files`).  This is not only about runs that finish: a write can be refused in
the middle, and then a file that is written directly may have been emptied, but only one that was
not there before (`content?_of_writeArtifacts_keep`).
-/

namespace SchemaClasses

/-! ## Modes -/

lemma Value.isNull_iff {v : Value} : v.isNull = true ↔ v = .null := by
  unfold Value.isNull
  split <;> simp_all

namespace Settings

open Entries (TextKeys)

variable {d d' : Draft} {m : Mapping} {name : String} {v : Value} {s : Settings}

/-- The mode that an object of settings declares: `error`, if it declares none. -/
def declaredMode (m : Mapping) : Value :=
  match Mapping.field? m "output" with
  | some (.mapping o _) => (Mapping.field? o "mode").getD (.text "error")
  | _ => .text "error"

lemma Draft.output_of_set? (h : d.set? name v = some (.ok d')) (hname : name ≠ "output") :
    d'.output = d.output := by
  unfold Draft.set? at h
  split at h
  case h_7 => exact absurd rfl hname
  all_goals cases h <;> rfl

/-- A member that is not `output` leaves the output settings alone, or makes them a plain value. -/
lemma Draft.output_of_write (h : d.write name v = .ok d') (hname : name ≠ "output") :
    d'.output = d.output ∨ ∃ w, d'.output = .other w := by
  unfold Draft.write at h
  split at h
  · rename_i result hset
    rw [h] at hset
    exact Or.inl (Draft.output_of_set? hset hname)
  · split at h
    · split at h
      · obtain rfl := Except.ok.inj h
        exact Or.inr ⟨_, rfl⟩
      · cases h
    · split_ifs at h
      · obtain rfl := Except.ok.inj h
        exact Or.inl rfl
      · obtain rfl := Except.ok.inj h
        exact Or.inl rfl
      · obtain rfl := Except.ok.inj h
        exact Or.inl rfl

lemma Draft.readOutput_of_write (h : d.write "output" v = .ok d') :
    readOutput v = .ok d'.output := by
  have hmap : (readOutput v).map (fun output => { d with output := output }) = .ok d' := h
  obtain ⟨output, houtput, rfl⟩ := map_eq_ok.1 hmap
  exact houtput

lemma field?_of_not_mem {name : String} (h : Scalar.text name ∉ m.map (·.1)) :
    Mapping.field? m name = none := by
  rw [← Option.isNone_iff_eq_none, ← Option.isSome_eq_false_iff, Mapping.field?,
    ← Entries.contains_eq_isSome, ← Bool.not_eq_true, Entries.contains_text_iff]
  exact h

/-- **The output settings are what the member `output` makes of them**, or a plain value. -/
lemma Draft.output_of_writeAll (hm : TextKeys m)
    (h : Draft.writeAll Draft.write d m = .ok d') :
    (∃ w, d'.output = .other w) ∨
      match Mapping.field? m "output" with
      | none => d'.output = d.output
      | some v => readOutput v = .ok d'.output := by
  induction m generalizing d with
  | nil =>
      rw [Draft.writeAll] at h
      obtain rfl := Except.ok.inj h
      exact Or.inr rfl
  | cons e rest ih =>
      obtain ⟨key, v⟩ := e
      obtain ⟨htexts, hnodup⟩ := hm
      obtain ⟨⟨name, rfl⟩, hrest⟩ := List.forall_mem_cons.1 htexts
      rw [List.map_cons, List.nodup_cons] at hnodup
      rw [Draft.writeAll] at h
      split at h
      · rename_i d₁ hwrite
        rcases ih ⟨hrest, hnodup.2⟩ h with hother | hlater
        · exact Or.inl hother
        · rw [Mapping.field?, Entries.get?_cons]
          by_cases hname : name = "output"
          · subst hname
            rw [field?_of_not_mem hnodup.1] at hlater
            rw [if_pos (by simp), hlater]
            exact Or.inr (Draft.readOutput_of_write hwrite)
          · rw [if_neg (by simpa using hname)]
            rw [Mapping.field?] at hlater
            split at hlater
            · rcases Draft.output_of_write hwrite hname with hsame | ⟨w, hw⟩
              · exact Or.inr (hlater.trans hsame)
              · exact Or.inl ⟨w, hlater.trans hw⟩
            · exact Or.inr hlater
      · cases h

/-- **Accepted settings have the mode that their object declares.** -/
theorem readMode_declaredMode (hm : TextKeys m) (h : ofObject m = .ok s) :
    readMode (declaredMode m) = .ok s.outputMode := by
  rw [ofObject] at h
  split at h
  · rename_i d hwritten
    obtain ⟨mode, houtput, hmode⟩ := (Draft.check_eq_ok.1 h).output
    have hread := Draft.output_of_writeAll hm hwritten
    rw [houtput, or_iff_right (by rintro ⟨w, hw⟩; cases hw)] at hread
    have hdeclared : declaredMode m = mode := by
      rw [declaredMode]
      split at hread
      · rename_i hnone
        rw [hnone]
        obtain ⟨rfl, -⟩ := OutputDraft.fields.inj hread
        rfl
      · rename_i v hfield
        rw [hfield]
        cases v with
        | mapping o ring =>
            rw [readOutput] at hread
            split at hread
            · obtain ⟨rfl, -⟩ := OutputDraft.fields.inj (Except.ok.inj hread)
              rfl
            · cases hread
        | scalar s => cases Except.ok.inj hread
        | list items ring => cases Except.ok.inj hread
    rw [hdeclared, hmode]
  · cases h

/-- **Only one mode protects what is there**: the text `error`.  A mode that is not a text is
accepted, whatever it is, and does not. -/
theorem overwrite_iff (hm : TextKeys m) (h : ofObject m = .ok s) :
    s.outputRule.overwrite = false ↔ declaredMode m = .text "error" := by
  have hmode := readMode_declaredMode hm h
  rw [outputRule]
  generalize declaredMode m = v at hmode ⊢
  unfold readMode at hmode
  split at hmode
  · rw [← Except.ok.inj hmode]
    simp
  · rw [← Except.ok.inj hmode]
    simp
  · cases hmode
  · rename_i herror hforce hother
    rw [← Except.ok.inj hmode]
    exact iff_of_false Bool.noConfusion herror

end Settings

/-! ## Writing -/

namespace Output

variable {t t' : FileTree} {root l : Location} {rule : OutputRule} {artifacts : List Artifact}
  {content : String}

/-- What is written over no file leaves the files as they are, even if it stops in the middle. -/
lemma content?_of_writeAll_free {atomic : Bool} {files : List (Location × String)}
    {result : Except OutputError Unit} (hup : ∀ f ∈ files, Location.up ∉ f.1)
    (hfree : ∀ f ∈ files, f.1.stored ≠ l.stored)
    (h : writeAll atomic t files = (t', result)) : t'.content? l = t.content? l := by
  have hnone : ∀ {part : List (Location × String)}, part ⊆ files → lastWritten? part l = none := by
    intro part hpart
    rw [lastWritten?, Option.map_eq_none_iff, List.find?_eq_none]
    intro f hf
    rw [beq_iff_eq]
    exact hfree f (hpart (List.mem_reverse.1 hf))
  cases result with
  | ok u => rw [content?_of_writeAll hup h, hnone (List.Subset.refl _), Option.none_or]
  | error e =>
      obtain ⟨before, f, after, written, reason, rfl, hbefore, hstop, -⟩ := writeAll_eq_error h
      have hkept : written.content? l = t.content? l := by
        rw [content?_of_writeAll (fun g hg => hup g (List.mem_append_left _ hg)) hbefore,
          hnone (List.subset_append_left _ _), Option.none_or]
      rcases content?_of_refused hstop l with hsame | ⟨-, hplace, -⟩
      · rw [hsame, hkept]
      · exact absurd hplace (hfree f (by simp))

/-- **Where nothing may be overwritten, every file keeps its content**, whatever comes of the
writing. -/
theorem content?_of_writeArtifacts_keep (hroot : Location.up ∉ root)
    (hrule : rule.overwrite = false) (h : t.content? l = some content) :
    (writeArtifacts t root rule artifacts).1.content? l = some content := by
  rw [writeArtifacts]
  split
  · exact h
  · rename_i files hplaced
    dsimp only
    split_ifs with hlook hfound
    · exact h
    · exact h
    · have hup : ∀ f ∈ files, Location.up ∉ f.1 := by
        intro f hf
        obtain ⟨a, -, ha⟩ := forall₂_right (traverse_eq_ok_iff.1 hplaced) hf
        exact up_not_mem_of_resolve hroot (placed_eq_ok_iff.1 ha).1.1
      have hfree : ∀ f ∈ files, f.1.stored ≠ l.stored := by
        intro f hf hsame
        have hthere : t.present f.1 = true := by
          rw [FileTree.present, FileTree.node?_congr hsame, FileTree.node?_eq_file_iff.2 h]
          rfl
        refine hfound ?_
        rw [hrule, Bool.not_false, Bool.true_and, Bool.not_eq_true', List.isEmpty_eq_false_iff]
        exact List.ne_nil_of_mem (List.mem_filter.2 ⟨List.mem_map_of_mem (f := (·.1)) hf, hthere⟩)
      rw [← h]
      split
      · rename_i t' hwritten
        exact content?_of_writeAll_free hup hfree hwritten
      · rename_i t' e hwritten
        exact content?_of_writeAll_free hup hfree hwritten

end Output

/-! ## Runs -/

namespace CommandLine

open Settings (declaredMode)

variable {t : FileTree} {here : Location} {args : List String} {p : Plan}

/-- The object in the settings file that a run is given, if there is one that can be read. -/
def givenSettings (t : FileTree) (here : Location) (args : List String) : Option Mapping := do
  let g ← (readArguments args {}).toOption
  let r ← (request t here g).toOption
  let text ← t.content? (← r.config)
  (← (Format.json.readFile text).toOption).mapping?

lemma givenSettings_eq_some {m : Mapping} : givenSettings t here args = some m ↔
    ∃ g r l text ring, readArguments args {} = .ok g ∧ request t here g = .ok r ∧
      r.config = some l ∧ t.content? l = some text ∧
      Format.json.readFile text = .ok (.mapping m ring) := by
  simp only [givenSettings, Option.bind_eq_bind, Option.bind_eq_some_iff, toOption_eq_some,
    Value.mapping?_eq_some]
  constructor
  · rintro ⟨g, hg, r, hr, l, hl, text, htext, v, hv, ring, rfl⟩
    exact ⟨g, r, l, text, ring, hg, hr, hl, htext, hv⟩
  · rintro ⟨g, r, l, text, ring, hg, hr, hl, htext, hv⟩
    exact ⟨g, hg, r, hr, l, hl, text, htext, _, hv, ring, rfl⟩

/-- Settings come from nowhere, or from an object in the settings file. -/
lemma fileSettings_eq_ok {config : Option Location} {s : Settings}
    (h : fileSettings t config = .ok s) :
    config = none ∧ s = {} ∨ ∃ l text m ring, config = some l ∧ t.content? l = some text ∧
      Format.json.readFile text = .ok (.mapping m ring) ∧ Settings.ofObject m = .ok s := by
  cases config with
  | none => exact Or.inl ⟨rfl, (Except.ok.inj h).symm⟩
  | some l =>
      simp only [fileSettings, bind_eq_ok, mapError_eq_ok] at h
      obtain ⟨text, htext, v, hv, hs⟩ := h
      rw [fileText] at htext
      split at htext
      · rename_i content hcontent
        obtain rfl := Except.ok.inj htext
        cases v with
        | mapping m ring => exact Or.inr ⟨l, content, m, ring, rfl, hcontent, hv, hs⟩
        | scalar x => cases hs
        | list items ring => cases hs
      · cases htext

/-- Where the settings of a plan come from. -/
lemma exists_settings_of_plan {g : Given} (hg : readArguments args {} = .ok g)
    (h : plan t here args = .ok p) :
    ∃ s, p.settings = withParameters s p.request.parameters ∧
      p.request.parameters.force = g.isOn .force ∧
      (givenSettings t here args = none ∧ s = {} ∨ ∃ m, givenSettings t here args = some m ∧
        Entries.TextKeys m ∧ Settings.ofObject m = .ok s) := by
  obtain ⟨g', hg', hrequest, hprepare⟩ := plan_eq_ok h
  obtain rfl := Except.ok.inj (hg.symm.trans hg')
  simp only [prepare, bind_eq_ok] at hprepare
  obtain ⟨s, hs, _, -, _, -, _, -, hmade⟩ := hprepare
  obtain ⟨hsettings, -⟩ := Prod.mk.inj (Except.ok.inj hmade)
  refine ⟨s, hsettings.symm, (request_eq_ok hrequest).2.2, ?_⟩
  rcases fileSettings_eq_ok hs with ⟨hconfig, rfl⟩ | ⟨l, text, m, ring, hconfig, htext, hv, hm⟩
  · refine Or.inl ⟨Option.eq_none_iff_forall_ne_some.2 fun m hm => ?_, rfl⟩
    obtain ⟨g', r, l, _, _, hg', hr, hl, -⟩ := givenSettings_eq_some.1 hm
    obtain rfl := Except.ok.inj (hg.symm.trans hg')
    obtain rfl := Except.ok.inj (hrequest.symm.trans hr)
    cases hconfig.symm.trans hl
  · have hgiven : givenSettings t here args = some m :=
      givenSettings_eq_some.2 ⟨g, _, l, text, ring, hg, hrequest, hconfig, htext, hv⟩
    exact Or.inr ⟨m, hgiven, (Json.regular_of_readFile hv).textKeys, hm⟩

lemma overwrite_withParameters {s : Settings} {q : Parameters} :
    (withParameters s q).outputRule.overwrite = true ↔
      q.force = true ∨ s.outputRule.overwrite = true := by
  rw [withParameters, Settings.outputRule]
  dsimp only
  by_cases hforce : q.force = true
  · rw [if_pos hforce]
    exact iff_of_true rfl (Or.inl hforce)
  · rw [if_neg hforce, Settings.outputRule, or_iff_right hforce]

/-- **What a plan may overwrite**: nothing, unless it was forced to on the command line or its
settings file declares another mode than `error`. -/
theorem overwrite_of_plan {g : Given} (hg : readArguments args {} = .ok g)
    (h : plan t here args = .ok p) : p.settings.outputRule.overwrite = true ↔
      g.isOn .force = true ∨
        ∃ m, givenSettings t here args = some m ∧ declaredMode m ≠ .text "error" := by
  obtain ⟨s, hsettings, hforce, hgiven⟩ := exists_settings_of_plan hg h
  rw [hsettings, overwrite_withParameters, hforce]
  refine or_congr_right ?_
  rcases hgiven with ⟨hnone, rfl⟩ | ⟨m, hm, hkeys, hs⟩
  · rw [hnone]
    exact iff_of_false Bool.false_ne_true (by rintro ⟨m, hm, -⟩; cases hm)
  · rw [hm, ← Bool.not_eq_false, Settings.overwrite_iff hkeys hs]
    simp

/-- A mode that is a text and accepted is `error` or `force`. -/
lemma mode_of_plan {m : Mapping} {mode : String} (h : plan t here args = .ok p)
    (hm : givenSettings t here args = some m) (hmode : declaredMode m = .text mode) :
    mode = "error" ∨ mode = "force" := by
  obtain ⟨g, hg, -, -⟩ := plan_eq_ok h
  obtain ⟨s, -, -, hgiven⟩ := exists_settings_of_plan hg h
  rcases hgiven with ⟨hnone, -⟩ | ⟨m', hm', hkeys, hs⟩
  · rw [hnone] at hm
    cases hm
  · obtain rfl := Option.some.inj (hm'.symm.trans hm)
    have hword := Settings.readMode_declaredMode hkeys hs
    rw [hmode, Settings.readMode_text_eq_ok] at hword
    cases houtput : s.outputMode with
    | error =>
        rw [houtput] at hword
        exact Or.inl (Option.some.inj hword).symm
    | force =>
        rw [houtput] at hword
        exact Or.inr (Option.some.inj hword).symm
    | other v =>
        rw [houtput] at hword
        cases hword

lemma Plan.fst_write (t : FileTree) (p : Plan) : (p.write t).1 =
    (Output.writeArtifacts t p.request.output p.settings.outputRule p.generated.artifacts).1 := by
  rw [Plan.write]
  split
  · rename_i hwritten
    rw [hwritten]
  · rename_i hwritten
    rw [hwritten]

/-- A run that finishes without overwriting anything has found all its places free. -/
lemma Plan.Course.free_of_finished {files : List (Location × String)} {t' : FileTree}
    {written : List Location} {failures : List (ClassFailure Failure)}
    (h : p.Course t files (t', .finished written failures))
    (hkeep : p.settings.outputRule.overwrite = false) : ∀ l ∈ written, t.present l = false := by
  generalize hafter : (t', Ending.finished written failures) = after at h
  cases h with
  | occupied keep found => cases hafter
  | unlooked keep refuses => cases hafter
  | refused order overlaid refusal kept => cases hafter
  | finished free overlaid =>
      obtain ⟨-, hending⟩ := Prod.mk.inj hafter
      obtain ⟨rfl, -⟩ := Ending.finished.inj hending
      exact List.forall_mem_map.2 (free hkeep)

/-- **A run that is not told to overwrite anything does not.** -/
theorem run_keeps_files (hhere : here.Possible)
    (hforce : ∀ g, readArguments args {} = .ok g → g.isOn .force = false)
    (hmode : ∀ m, givenSettings t here args = some m →
      ∃ s, declaredMode m = .text s ∧ s ≠ "force") :
    (∀ p, plan t here args = .ok p → p.settings.outputRule.overwrite = false) ∧
    (∀ l content, t.content? l = some content →
      (run t here args).1.content? l = some content) ∧
    ∀ written failures, (run t here args).2 = .finished written failures →
      ∀ l ∈ written, t.present l = false := by
  have hkeep : ∀ p, plan t here args = .ok p → p.settings.outputRule.overwrite = false := by
    intro p hp
    obtain ⟨g, hg, -, -⟩ := plan_eq_ok hp
    rw [← Bool.not_eq_true, overwrite_of_plan hg hp]
    rintro (hforced | ⟨m, hm, hother⟩)
    · rw [hforce g hg] at hforced
      cases hforced
    · obtain ⟨mode, hdeclared, hne⟩ := hmode m hm
      rcases mode_of_plan hp hm hdeclared with rfl | rfl
      · exact hother hdeclared
      · exact hne rfl
  refine ⟨hkeep, fun l content hl => ?_, fun written failures hfinished => ?_⟩
  · cases hplan : plan t here args with
    | error ending =>
        rw [run_of_plan_error hplan]
        exact hl
    | ok p =>
        have hroot := (possible_output hhere hplan).up_not_mem
        rw [run_of_plan_ok hplan, Plan.fst_write]
        exact Output.content?_of_writeArtifacts_keep hroot (hkeep p hplan) hl
  · cases hplan : plan t here args with
    | error ending =>
        rw [run_of_plan_error hplan] at hfinished
        obtain rfl : ending = .finished written failures := hfinished
        cases failsOnly_plan _ hplan
    | ok p =>
        obtain ⟨_, _, _, files, -, -, -, hcourse⟩ := exists_course hhere hplan
        generalize run t here args = after at hfinished hcourse
        obtain ⟨t', ending⟩ := after
        obtain rfl := hfinished
        exact hcourse.free_of_finished (hkeep p hplan)

/-- A directory with an empty document, a file in the output directory, and settings with a mode. -/
def withMode (mode : String) : FileTree := ⟨[
  (["w"], .directory), (["w", "a.json"], .file "\x7b\x7d"),
  (["w", "c.json"], .file ("\x7b\"output\": \x7b\"mode\": " ++ mode ++ "\x7d\x7d")),
  (["w", "o"], .directory), (["w", "o", "README.md"], .file "keep")]⟩

def withSettings : List String := ["-c", "c.json", "a.json", "o"]

lemma not_forced_withSettings :
    ∀ g, readArguments withSettings {} = .ok g → g.isOn .force = false := by
  intro g hg
  have hoff : (readArguments withSettings {}).toOption.all (fun g => !g.isOn .force) = true := by
    decide
  rwa [hg, Except.toOption, Option.all_some, Bool.not_eq_true'] at hoff

theorem run_keeps_files_of_error :
    Location.Possible ["w"] ∧
    (∀ g, readArguments withSettings {} = .ok g → g.isOn .force = false) ∧
    (∀ m, givenSettings (withMode "\"error\"") ["w"] withSettings = some m →
      ∃ s, declaredMode m = .text s ∧ s ≠ "force") ∧
    (run (withMode "\"error\"") ["w"] withSettings).1.content? ["w", "o", "README.md"] =
      some "keep" := by
  have hmode : ∀ m, givenSettings (withMode "\"error\"") ["w"] withSettings = some m →
      ∃ s, declaredMode m = .text s ∧ s ≠ "force" := by
    intro m hm
    have herror : (givenSettings (withMode "\"error\"") ["w"] withSettings).all
        (fun m => (declaredMode m).text? == some "error") = true := by
      decide +kernel
    rw [hm, Option.all_some, beq_iff_eq, Value.text?_eq_some] at herror
    exact ⟨"error", herror, by decide⟩
  exact ⟨possible_w, not_forced_withSettings, hmode,
    (run_keeps_files possible_w not_forced_withSettings hmode).2.1 ["w", "o", "README.md"] "keep"
      (by decide +kernel)⟩

/-- **A mode that is not a text protects nothing.**  It is accepted, and what stands in the output
directory is overwritten. -/
theorem run_of_nullMode :
    (∀ g, readArguments withSettings {} = .ok g → g.isOn .force = false) ∧
    (∃ m, givenSettings (withMode "null") ["w"] withSettings = some m ∧ declaredMode m = .null) ∧
    (withMode "null").content? ["w", "o", "README.md"] = some "keep" ∧
    (run (withMode "null") ["w"] withSettings).2.exitCode = 0 ∧
    (run (withMode "null") ["w"] withSettings).1.content? ["w", "o", "README.md"] ≠
      some "keep" := by
  refine ⟨not_forced_withSettings, ?_, by decide +kernel, by decide +kernel⟩
  have hnull : (givenSettings (withMode "null") ["w"] withSettings).any
      (fun m => (declaredMode m).isNull) = true := by
    decide +kernel
  obtain ⟨m, hm, hdeclared⟩ := (Option.any_eq_true _ _).1 hnull
  exact ⟨m, hm, Value.isNull_iff.1 hdeclared⟩

end CommandLine

end SchemaClasses
