import SchemaClasses.CommandLine.Record
import SchemaClasses.Proofs.NormalPaths

/-!
# What the recorded command line tells

A generated file names the command it was made by, and the same command is to give the same file on
every machine.  So of the two paths only the last name may count, however the path is written: with
or without directories before the name, with slashes and points behind it (`LastName`).

`lastName_iff` says that every path has exactly one last name in this sense, and that it is the one
that is recorded.  From there on the line is a matter of words: `record_eq` lists them, and
`record_of_sameCommand` is the whole statement.
-/

namespace SchemaClasses

/-! ## Last names -/

namespace WrittenPath

/-- Slashes, and single points behind slashes: they lead nowhere at the end of a path. -/
inductive Idle : String → Prop where
  | nil : Idle ""
  | slash {rest : String} (h : Idle rest) : Idle ("/" ++ rest)
  | point {rest : String} (h : Idle rest) : Idle ("/." ++ rest)

/-- The last name of a path: it stands behind a slash or at the beginning, and what follows it leads
nowhere.  A path that leads nowhere at all has the empty name. -/
inductive LastName : String → String → Prop where
  | first {name rest : String} (step : isStep name = true) (slash : '/' ∉ name.toList)
      (idle : Idle rest) : LastName (name ++ rest) name
  | below (directory : String) {name rest : String} (step : isStep name = true)
      (slash : '/' ∉ name.toList) (idle : Idle rest) :
      LastName (directory ++ "/" ++ name ++ rest) name
  | nowhere {start rest : String} (point : start = "" ∨ start = ".") (idle : Idle rest) :
      LastName (start ++ rest) ""

variable {path name rest : String}

lemma Idle.append {more : String} (h : Idle rest) (hmore : Idle more) : Idle (rest ++ more) := by
  induction h with
  | nil => rwa [String.empty_append]
  | slash _ ih =>
      rw [String.append_assoc]
      exact .slash ih
  | point _ ih =>
      rw [String.append_assoc]
      exact .point ih

lemma names_of_not_mem (h : '/' ∉ name.toList) :
    (ofText name).names = [name].filter isStep := by
  rw [names_ofText, parts, Text.splitAt_of_not_mem h, List.map_singleton, String.ofList_toList]

lemma names_append (s t : String) :
    (ofText (s ++ "/" ++ t)).names = (ofText s).names ++ (ofText t).names := by
  rw [names_ofText, parts_append, List.filter_append, names_ofText, names_ofText]

/-- What leads nowhere changes nothing at the end of a path. -/
lemma Idle.names_append (h : Idle rest) (path : String) :
    (ofText (path ++ rest)).names = (ofText path).names := by
  induction h generalizing path with
  | nil => rw [String.append_empty]
  | slash _ ih =>
      have hslash : path ++ "/" = path ++ "/" ++ "" := by rw [String.append_empty]
      rw [← String.append_assoc, ih, hslash, WrittenPath.names_append]
      exact List.append_nil _
  | @point rest _ ih =>
      have hpoint : path ++ ("/." ++ rest) = path ++ "/" ++ "." ++ rest := by
        rw [String.append_assoc, String.append_assoc]
        rfl
      rw [hpoint, ih, WrittenPath.names_append]
      exact List.append_nil _

/-- The last name of a path is the one that its parts give. -/
lemma LastName.name_eq (h : LastName path name) : (ofText path).name = name := by
  cases h with
  | first step slash idle =>
      rw [WrittenPath.name, idle.names_append, names_of_not_mem slash,
        List.filter_cons_of_pos step]
      rfl
  | below directory step slash idle =>
      rw [WrittenPath.name, idle.names_append, names_append, names_of_not_mem slash,
        List.filter_cons_of_pos step, List.filter_nil, List.getLast?_concat, Option.getD_some]
  | nowhere point idle =>
      rw [WrittenPath.name, idle.names_append]
      rcases point with rfl | rfl <;> rfl

lemma LastName.append {more : String} (h : LastName path name) (hmore : Idle more) :
    LastName (path ++ more) name := by
  cases h with
  | first step slash idle =>
      rw [String.append_assoc]
      exact .first step slash (idle.append hmore)
  | below directory step slash idle =>
      rw [String.append_assoc]
      exact .below directory step slash (idle.append hmore)
  | nowhere point idle =>
      rw [String.append_assoc]
      exact .nowhere point (idle.append hmore)

lemma isStep_or (name : String) : isStep name = true ∨ name = "" ∨ name = "." := by
  by_cases hempty : name = "" <;> by_cases hpoint : name = "." <;> simp [isStep, hempty, hpoint]

/-- A path with a slash has a last one. -/
lemma exists_last_slash (h : '/' ∈ path.toList) :
    ∃ directory name, path = directory ++ "/" ++ name ∧ '/' ∉ name.toList := by
  obtain ⟨name, directory, hsplit, hslash⟩ := List.eq_append_cons_of_mem (List.mem_reverse.2 h)
  refine ⟨.ofList directory.reverse, .ofList name.reverse, ?_, ?_⟩
  · have hpath := congrArg List.reverse hsplit
    rw [List.reverse_reverse, List.reverse_append, List.reverse_cons] at hpath
    rw [← String.toList_inj, hpath]
    simp
  · simpa using hslash

/-- Every path has a last name; the induction takes away what stands behind the last slash until
that is a name. -/
lemma exists_lastName (path : String) : ∃ name, LastName path name := by
  induction hlength : path.length using Nat.strongRecOn generalizing path with
  | ind n ih =>
      by_cases hslash : '/' ∈ path.toList
      · obtain ⟨directory, part, rfl, hpart⟩ := exists_last_slash hslash
        rw [String.length_append, String.length_append] at hlength
        have hshorter : directory.length < n := by
          have hone : "/".length = 1 := rfl
          omega
        obtain ⟨name, hname⟩ := ih _ hshorter directory rfl
        rcases isStep_or part with hstep | rfl | rfl
        · exact ⟨part, by simpa using LastName.below directory hstep hpart .nil⟩
        · rw [String.append_empty]
          exact ⟨name, hname.append (.slash .nil)⟩
        · rw [String.append_assoc]
          exact ⟨name, hname.append (.point .nil)⟩
      · rcases isStep_or path with hstep | hpoint
        · exact ⟨path, by simpa using LastName.first hstep hslash .nil⟩
        · exact ⟨"", by simpa using LastName.nowhere hpoint .nil⟩

/-- **Every path has one last name**, and it is the one that its parts give. -/
theorem lastName_iff : LastName path name ↔ (ofText path).name = name := by
  refine ⟨LastName.name_eq, ?_⟩
  rintro rfl
  obtain ⟨name, hname⟩ := exists_lastName path
  rwa [hname.name_eq]

end WrittenPath

/-! ## The words of the line -/

namespace CommandLine

open WrittenPath (LastName)

/-- The value that an option has if it is not given. -/
def Field.default? : Field → Option String
  | .language => some defaultLanguage
  | .config | .server | .modelsNamespace | .servicesNamespace => none

/-- The words by which an option is given; none if it has no value, an empty one or its default. -/
def Field.words (f : Field) : Option String → List String
  | none => []
  | some value => if value = "" ∨ some value = f.default? then [] else [f.longName, value]

/-- An option with a value that need not be given: none, an empty one or its default. -/
def Field.Silent (f : Field) (value : Option String) : Prop :=
  value = none ∨ value = some "" ∨ value = f.default?

lemma Field.words_eq_nil_iff {f : Field} {value : Option String} :
    f.words value = [] ↔ f.Silent value := by
  cases value with
  | none => simp [words, Silent]
  | some s =>
      rw [words, Silent]
      split <;> simp_all

/-- The options that are recorded, in order. -/
def recordedFields : List Field := [.language, .server, .modelsNamespace, .servicesNamespace]

namespace Parameters

variable {p q : Parameters}

def option (p : Parameters) : Field → Option String
  | .config => p.config
  | .language => p.language
  | .server => p.server
  | .modelsNamespace => p.modelsNamespace
  | .servicesNamespace => p.servicesNamespace

lemma flatMap_recordable (p : Parameters) :
    p.recordable.flatMap optionWords = recordedFields.flatMap fun f => f.words (p.option f) := by
  have hwords : ∀ f value, f.default? = none → optionWords (f, value) = f.words value := by
    intro f value hdefault
    cases value with
    | none => rfl
    | some s => simp [optionWords, Field.words, hdefault]
  have hlanguage : optionWords (.language, p.language.filter (· ≠ defaultLanguage)) =
      Field.language.words p.language := by
    cases p.language with
    | none => rfl
    | some s =>
        by_cases hdefault : s = defaultLanguage
        · rw [Option.filter_some_neg (by simp [hdefault])]
          simp [optionWords, Field.words, Field.default?, hdefault]
        · rw [Option.filter_some_pos (by simp [hdefault])]
          simp [optionWords, Field.words, Field.default?, hdefault]
  simp only [recordable, recordedFields, List.flatMap_cons, hlanguage, option,
    hwords .server _ rfl, hwords .modelsNamespace _ rfl, hwords .servicesNamespace _ rfl]
  rfl

/-- **The recorded line, word by word.** -/
lemma record_eq {name name' : String} (hpath : p.path ≠ "") (houtput : p.output ≠ "")
    (h : LastName p.path name) (h' : LastName p.output name') :
    p.record = " ".intercalate ([programName, name, name'] ++
      recordedFields.flatMap fun f => f.words (p.option f)) := by
  rw [record, argumentWords, argumentWords, if_neg hpath, if_neg houtput, h.name_eq, h'.name_eq,
    flatMap_recordable]
  rfl

/-- Two sets of parameters that ask for the same apart from what belongs to the machine: the
directories of the two paths, the settings file and the switches may be any. -/
structure SameCommand (p q : Parameters) : Prop where
  given : p.path ≠ "" ∧ q.path ≠ "" ∧ p.output ≠ "" ∧ q.output ≠ ""
  path : ∃ name, LastName p.path name ∧ LastName q.path name
  output : ∃ name, LastName p.output name ∧ LastName q.output name
  option : ∀ f ∈ recordedFields, p.option f = q.option f ∨
    f.Silent (p.option f) ∧ f.Silent (q.option f)

/-- **The recorded line does not tell the machine.**  It is the same for two sets of parameters that
are the same command; and of the options it has the names and values, in order, of those that say
something, so nothing comes from an option that is absent, empty or left at its default. -/
theorem record_of_sameCommand :
    (∀ p q : Parameters, SameCommand p q → p.record = q.record) ∧
    (∀ (p : Parameters) (name name' : String), p.path ≠ "" → p.output ≠ "" →
      LastName p.path name → LastName p.output name' →
      p.record = " ".intercalate ([programName, name, name'] ++
        recordedFields.flatMap fun f => f.words (p.option f))) ∧
    ∀ (f : Field) (value : Option String), f.words value = [] ↔ f.Silent value := by
  refine ⟨fun p q h => ?_, fun p name name' hpath houtput h h' => record_eq hpath houtput h h',
    fun f value => Field.words_eq_nil_iff⟩
  obtain ⟨hpath, hpath', houtput, houtput'⟩ := h.given
  obtain ⟨name, hname, hname'⟩ := h.path
  obtain ⟨other, hother, hother'⟩ := h.output
  have hoptions : recordedFields.flatMap (fun f => f.words (p.option f)) =
      recordedFields.flatMap fun f => f.words (q.option f) := by
    refine List.flatMap_congr fun f hf => ?_
    rcases h.option f hf with hsame | ⟨hsilent, hsilent'⟩
    · rw [hsame]
    · rw [Field.words_eq_nil_iff.2 hsilent, Field.words_eq_nil_iff.2 hsilent']
  rw [record_eq hpath houtput hname hother, record_eq hpath' houtput' hname' hother', hoptions]

/-- A command with full paths, a settings file and its language spelled out. -/
def atHome : Parameters where
  config := some "/home/ada/settings.json"
  language := some defaultLanguage
  server := some "production"
  force := true
  path := "/home/ada/animals.yaml"
  output := "/home/ada/out"

/-- The same command from another directory. -/
def atWork : Parameters where
  server := some "production"
  modelsNamespace := some ""
  verbose := true
  path := "documents//animals.yaml"
  output := "./out/./"

theorem record_atHome : SameCommand atHome atWork ∧ atHome.record = atWork.record ∧
    atWork.record = "asyncapi_to_code animals.yaml out --server production" ∧
    Field.Silent .language atHome.language := by
  obtain ⟨hsame, hline, hsilent⟩ := record_of_sameCommand
  have hpath : LastName atHome.path "animals.yaml" ∧ LastName atWork.path "animals.yaml" :=
    ⟨WrittenPath.lastName_iff.2 (by decide), WrittenPath.lastName_iff.2 (by decide)⟩
  have houtput : LastName atHome.output "out" ∧ LastName atWork.output "out" :=
    ⟨WrittenPath.lastName_iff.2 (by decide), WrittenPath.lastName_iff.2 (by decide)⟩
  have hcommand : SameCommand atHome atWork := by
    refine ⟨by decide, ⟨_, hpath⟩, ⟨_, houtput⟩, fun f hf => ?_⟩
    cases f with
    | config => exact absurd hf (by decide)
    | language => exact Or.inr ⟨Or.inr (Or.inr rfl), Or.inl rfl⟩
    | server => exact Or.inl rfl
    | modelsNamespace => exact Or.inr ⟨Or.inl rfl, Or.inr (Or.inl rfl)⟩
    | servicesNamespace => exact Or.inl rfl
  refine ⟨hcommand, hsame _ _ hcommand, ?_, (hsilent _ _).1 rfl⟩
  rw [hline atWork _ _ (by decide) (by decide) hpath.2 houtput.2]
  rfl

end Parameters

end CommandLine

end SchemaClasses
