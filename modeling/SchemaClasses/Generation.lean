import SchemaClasses.Hierarchy.Evaluation
import SchemaClasses.Language.ClassFile
import SchemaClasses.Project.Files

/-!
# From a class model to files

`Generation.run` asks a writer for the text of every class, in model order.  The writer is a
parameter, and so is the kind of failure that concerns one class only: such a failure is recorded
and the other classes are written all the same, while a render error stops the run.  No two classes
may have the same path, which is checked before anything is written.

`Generation.ofDocument` is the whole way from a document to the files of a project.
-/

namespace SchemaClasses

/-- Why a class was not written. -/
inductive WriteError (ε : Type) where
  /-- The run stops. -/
  | fatal (e : RenderError)
  /-- Only this class is left out. -/
  | isolated (e : ε)

/-- A class that was left out. -/
structure ClassFailure (ε : Type) where
  className : String
  error : ε

/-- The files of a run, and the classes that were left out. -/
structure Generated (ε : Type) where
  artifacts : List Artifact := []
  failures : List (ClassFailure ε) := []

/-- How many classes were left out, as a text. -/
def failureCount (n : Nat) : String := toString n ++ " class(es) failed to render"

namespace Generated

variable {ε : Type}

/-- Whether every class was written. -/
def success (g : Generated ε) : Bool := g.failures.isEmpty

/-- One text about all classes that were left out. -/
def report (describe : ε → String) (g : Generated ε) : String :=
  failureCount g.failures.length ++ ": "
    ++ "; ".intercalate (g.failures.map fun f => f.className ++ ": " ++ describe f.error)

/-- The result with a class written before the others. -/
def withArtifact (a : Artifact) (g : Generated ε) : Generated ε :=
  { g with artifacts := a :: g.artifacts }

/-- The result with a class left out before the others. -/
def withFailure (f : ClassFailure ε) (g : Generated ε) : Generated ε :=
  { g with failures := f :: g.failures }

end Generated

namespace Generation

variable {ε : Type}

abbrev Writer (ε : Type) := ClassDef → Except (WriteError ε) String

def classPath (language : Language) (sourceDirectory : String) (c : ClassDef) : String :=
  let name := language.fileName c.name
  if sourceDirectory = "" then name else sourceDirectory ++ "/" ++ name

def checkPaths (pathOf : ClassDef → String) (seen : List ClassDef) :
    List ClassDef → Except Failure Unit
  | [] => .ok ()
  | c :: rest => do
    let name ← c.type.shownName
    match seen.find? fun d => pathOf d == pathOf c with
    | some d => throw (.render (.duplicatePath d.type.qualifiedName name (pathOf c)))
    | none => checkPaths pathOf (seen ++ [c]) rest

/-- Write classes in order. -/
def writeAll (pathOf : ClassDef → String) (write : Writer ε) :
    List ClassDef → Except RenderError (Generated ε)
  | [] => .ok {}
  | c :: rest =>
    match write c with
    | .error (.fatal e) => .error e
    | .error (.isolated e) =>
      (writeAll pathOf write rest).map (Generated.withFailure ⟨c.name, e⟩)
    | .ok content =>
      (writeAll pathOf write rest).map (Generated.withArtifact ⟨pathOf c, content⟩)

/-- Write every class of a model, once their paths are known to differ. -/
def run (pathOf : ClassDef → String) (write : Writer ε) (model : ClassModel) :
    Except Failure (Generated ε) := do
  checkPaths pathOf [] model.classes
  (writeAll pathOf write model.classes).mapError .render

/-! ## Writers of the target languages -/

/-- Whether a failure stops the run: render errors do, all others concern one class. -/
def classify : Failure → WriteError Failure
  | .render e => .fatal e
  | other => .isolated other

def writer (language : Language) (settings : Settings) : Writer Failure := fun c =>
  (language.classText settings c).mapError classify

/-! ## Whole runs -/

/-- The class files and the project files of a model. -/
def withProject (doc : Document) (model : ClassModel) (language : Language) (settings : Settings)
    (write : Writer ε) : Except Failure (Generated ε) := do
  let generated ← run (classPath language language.sourceDirectory) write model
  let files ← Project.files doc model language settings
  return { generated with artifacts := generated.artifacts ++ files }

def modelOf (doc : Document) (registry : TypeRegistry) (settings : Settings) :
    Except Failure ClassModel :=
  ClassModel.ofDocument doc settings.modelsNamespace registry settings.defaultAccessibility

/-- All files that a document gives rise to, written by a writer. -/
def ofDocumentWith (write : Writer ε) (doc : Document) (registry : TypeRegistry)
    (language : Language) (settings : Settings) : Except Failure (Generated ε) := do
  let model ← modelOf doc registry settings
  withProject doc model language settings write

/-- All files that a document gives rise to. -/
def ofDocument (doc : Document) (registry : TypeRegistry) (language : Language)
    (settings : Settings) : Except Failure (Generated Failure) :=
  ofDocumentWith (writer language settings) doc registry language settings

end Generation

end SchemaClasses
