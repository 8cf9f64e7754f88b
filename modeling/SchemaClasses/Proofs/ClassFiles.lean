import SchemaClasses.Generation
import SchemaClasses.Proofs.Evaluation
import SchemaClasses.Proofs.Outline

/-!
# The files of a run

`Generation.ofDocument` is a chain of steps; `ofDocument_eq_ok` takes it apart once.  Its artifacts
are the files of the classes that could be written, in model order, and behind them the project
files.  No two classes have the same path, so no two have the same name.

The file of a class shows the class itself and of its superclass only the type
(`classText_congr`): whatever else a superclass holds, up to the root of the hierarchy, leaves no
trace in the files of the classes below it.
-/

namespace SchemaClasses

/-! ## What a class file shows -/

namespace Language

variable {language : Language} {settings : Settings} {c c' : ClassDef}

/-- **Classes that differ further up only have the same text.** -/
lemma classText_congr (hname : c.name = c'.name) (hpackage : c.package = c'.package)
    (hsuper : c.superClass.map ClassDef.type = c'.superClass.map ClassDef.type)
    (hvariables : c.instanceVariables = c'.instanceVariables)
    (hsubclasses : c.subclasses = c'.subclasses)
    (hdiscriminator : c.discriminatorName = c'.discriminatorName) :
    language.classText settings c = language.classText settings c' := by
  have houtline : c.outline = c'.outline :=
    ClassDef.outline_eq_iff.2 ⟨hname, hpackage, hsuper,
      by rw [ClassDef.ownVariables, hvariables, ClassDef.ownVariables], hsubclasses, hdiscriminator⟩
  rw [← classText_outline, houtline, classText_outline]

end Language

/-! ## Paths -/

namespace Generation

variable {pathOf : ClassDef → String} {classes seen : List ClassDef}

/-- The paths pass their check exactly if the types can be shown and no two paths are equal. -/
lemma checkPaths_eq_ok {u : Unit} :
    checkPaths pathOf seen classes = .ok u ↔
      (∀ c ∈ classes, ∃ name, c.type.shownName = .ok name) ∧
        (∀ c ∈ classes, ∀ d ∈ seen, pathOf d ≠ pathOf c) ∧
          classes.Pairwise fun c d => pathOf c ≠ pathOf d := by
  induction classes generalizing seen with
  | nil => simp [checkPaths]
  | cons c rest ih =>
      have hstep : checkPaths pathOf seen (c :: rest) = .ok u ↔
          (∃ name, c.type.shownName = .ok name) ∧ (∀ d ∈ seen, pathOf d ≠ pathOf c) ∧
            checkPaths pathOf (seen ++ [c]) rest = .ok u := by
        rw [checkPaths, bind_eq_ok, ← exists_and_right]
        refine exists_congr fun name => and_congr_right fun _ => ?_
        cases hfind : seen.find? fun d => pathOf d == pathOf c with
        | some d =>
            have hd := List.find?_some hfind
            simp only [beq_iff_eq] at hd
            simpa [throw, throwThe, MonadExceptOf.throw] using
              fun h => absurd hd (h d (List.mem_of_find?_eq_some hfind))
        | none => simpa using fun _ => hfind
      rw [hstep, ih, List.forall_mem_cons, List.forall_mem_cons, List.pairwise_cons]
      simp only [List.forall_mem_append, List.forall_mem_singleton, imp_and, forall_and]
      tauto

lemma fileName_injective (language : Language) {name name' : String}
    (h : language.fileName name = language.fileName name') : name = name' := by
  cases language <;> simpa [Language.fileName] using h

/-- Classes with the same path have the same name. -/
lemma name_of_classPath {language : Language} {directory : String} {c d : ClassDef}
    (h : classPath language directory c = classPath language directory d) : c.name = d.name := by
  rw [classPath, classPath] at h
  split at h
  · exact fileName_injective language h
  · exact fileName_injective language (by simpa using h)

/-! ## Artifacts -/

/-- The file of a class, if its text can be written. -/
def artifact? {ε : Type} (pathOf : ClassDef → String) (write : Writer ε) (c : ClassDef) :
    Option Artifact :=
  match write c with
  | .ok content => some ⟨pathOf c, content⟩
  | .error _ => none

lemma path_of_artifact? {ε : Type} {write : Writer ε} {c : ClassDef} {a : Artifact}
    (h : artifact? pathOf write c = some a) : a.path = pathOf c := by
  rw [artifact?] at h
  split at h
  · rw [← Option.some.inj h]
  · simp at h

/-- The files of classes stand in the order of the classes. -/
lemma artifacts_of_writeAll {ε : Type} {write : Writer ε} {g : Generated ε}
    (h : writeAll pathOf write classes = .ok g) :
    g.artifacts = classes.filterMap (artifact? pathOf write) := by
  induction classes generalizing g with
  | nil =>
      obtain rfl := Except.ok.inj h
      rfl
  | cons c rest ih =>
      rw [writeAll] at h
      rw [List.filterMap_cons]
      split at h
      · simp at h
      · rename_i e he
        obtain ⟨g', hrest, rfl⟩ := map_eq_ok.1 h
        rw [artifact?, he]
        exact ih (g := g') hrest
      · rename_i content hcontent
        obtain ⟨g', hrest, rfl⟩ := map_eq_ok.1 h
        rw [artifact?, hcontent, ← ih hrest]
        rfl

/-- The path of a class among the generated files. -/
abbrev pathIn (language : Language) : ClassDef → String :=
  classPath language language.sourceDirectory

lemma pathIn_eq (language : Language) (c : ClassDef) :
    pathIn language c = language.sourceDirectory ++ "/" ++ language.fileName c.name := by
  have hdirectory : language.sourceDirectory ≠ "" := by cases language <;> decide
  rw [pathIn, classPath, if_neg hdirectory]

/-- Classes with the same name and the same text have the same file. -/
lemma artifact?_congr {language : Language} {settings : Settings} {c d : ClassDef}
    (hname : c.name = d.name)
    (htext : language.classText settings c = language.classText settings d) :
    artifact? (pathIn language) (writer language settings) c =
      artifact? (pathIn language) (writer language settings) d := by
  rw [artifact?, artifact?, writer, writer, htext, pathIn_eq, pathIn_eq, hname]

lemma paths_of_files {doc : Document} {model : ClassModel} {language : Language}
    {settings : Settings} {files : List Artifact}
    (h : Project.files doc model language settings = .ok files) :
    files.map (·.path) = language.projectFiles := by
  simp only [Project.files, bind_eq_ok] at h
  obtain ⟨p, -, readme, -, h⟩ := h
  rw [← Except.ok.inj h]
  rfl

/-- A file is that of a class or one of the project. -/
lemma path_of_mem {ε : Type} {language : Language} {write : Writer ε} {project : List Artifact}
    (hproject : project.map (·.path) = language.projectFiles) {a : Artifact}
    (ha : a ∈ classes.filterMap (artifact? (pathIn language) write) ++ project) :
    (∃ c ∈ classes, a.path = pathIn language c) ∨ a.path ∈ language.projectFiles := by
  rcases List.mem_append.1 ha with ha | ha
  · obtain ⟨c, hc, hfile⟩ := List.mem_filterMap.1 ha
    exact Or.inl ⟨c, hc, path_of_artifact? hfile⟩
  · rw [← hproject]
    exact Or.inr (List.mem_map_of_mem ha)

/-- **What a run produces**: the files of the classes of a model, in model order, and behind them
the project files.  No two classes have the same name. -/
theorem ofDocument_eq_ok {doc : Document} {registry : TypeRegistry} {language : Language}
    {settings : Settings} {g : Generated Failure}
    (h : ofDocument doc registry language settings = .ok g) :
    ∃ m files, modelOf doc registry settings = .ok m ∧
      m.classes.Pairwise (fun c d => c.name ≠ d.name) ∧
      files.map (·.path) = language.projectFiles ∧
      g.artifacts = m.classes.filterMap (artifact? (pathIn language) (writer language settings)) ++
        files := by
  simp only [ofDocument, ofDocumentWith, withProject, run, bind_eq_ok] at h
  obtain ⟨m, hm, generated, ⟨u, hpaths, hwritten⟩, files, hfiles, h⟩ := h
  obtain ⟨-, -, hdistinct⟩ := checkPaths_eq_ok.1 hpaths
  have hnames : m.classes.Pairwise fun c d => c.name ≠ d.name := by
    refine hdistinct.imp fun {c d} hne hname => hne ?_
    simp only [classPath, hname]
  refine ⟨m, files, hm, hnames, paths_of_files hfiles, ?_⟩
  rw [← artifacts_of_writeAll (mapError_eq_ok.1 hwritten), ← Except.ok.inj h]

end Generation

end SchemaClasses
