import SchemaClasses.Files.Tree
import SchemaClasses.Project.Files
import SchemaClasses.Settings
import SchemaClasses.Traverse

/-!
# Writing output files

Files are written below an output directory.  `Output.writeArtifacts` finds the place of every
artifact and, unless files may be overwritten, checks that nothing stands there, before it writes
anything; for that check every name and the whole way must be short enough to be looked for.  A file
is written through a temporary file beside it, which then takes its place, or directly.  If the file
system refuses a write, the writes before it stay.
-/

namespace SchemaClasses

/-- Why output is not written. -/
inductive OutputError where
  /-- The path leads out of the output directory. -/
  | outside (path : String)
  /-- Something stands in the place of a file that must be new. -/
  | occupied (path : WrittenPath)
  /-- Something stands in the places of these files, which must be new. -/
  | allOccupied (targets : List Location)
  /-- The file system refuses. -/
  | system (e : OsError)
  deriving DecidableEq, Repr

/-- The wording of an output error. -/
def OutputError.message : OutputError → String
  | outside path => "Artifact path escapes the output directory: " ++ path
  | occupied path =>
      "Output file already exists: " ++ path.text ++ ". Use force mode to overwrite."
  | allOccupied targets =>
      "Output files already exist: " ++ ", ".intercalate (targets.map Location.text)
        ++ ". Use force mode to overwrite."
  | system (.fileInPlace l) => "[Errno 17] File exists: " ++ Text.quoted (Location.text l)
  | system .notDirectory => "[Errno 20] Not a directory"
  | system .isDirectory => "[Errno 21] Is a directory"
  | system .nameTooLong => "[Errno 36] File name too long"
  | system .halfCharacter => "a text with half of a pair cannot be written"
  | system .nullCharacter => "a name with a null character cannot be used"
  | system .tooDeep => "too many directories are missing"

/-- How output is written. -/
structure OutputRule where
  /-- Whether what stands in the place of a file is overwritten. -/
  overwrite : Bool := false
  /-- Whether a file is written through a temporary one. -/
  atomic : Bool := true
  deriving DecidableEq, Repr

/-- The output rule of settings.  Any mode but `error` overwrites. -/
def Settings.outputRule (settings : Settings) : OutputRule where
  overwrite := match settings.outputMode with
    | .error => false
    | _ => true
  atomic := settings.atomicWrite.truthy

namespace Output

/-! ## One file -/

/-- How many bytes the name of a temporary file takes more than that of the file it is for. -/
def temporaryBytes : Nat := 14

/-- Write a file in a directory through a temporary file.  The names are those that lead to the file
as they were written; the directory is where they lead before the last of them. -/
def replaceFile (t : FileTree) (directory : Location) (names : List String) (content : String) :
    FileTree × Except OsError Unit :=
  let name := names.getLast?.getD ""
  match OsError.ofNames? [name] with
  | some e => (t, .error e)
  | none =>
    if !FileName.fits temporaryBytes name || !Location.fits temporaryBytes (directory ++ [name]) then
      (t, .error .nameTooLong)
    else if Text.hasHalf content then (t, .error .halfCharacter)
    else if name = "" || name = Location.up then (t, .error .isDirectory)
    else if !Location.fits 0 names then (t, .error .nameTooLong)
    else
      let temporary := directory ++ [t.temporaryName name]
      match (t.put temporary (.file content)).renameFile temporary (directory ++ [name]) with
      | (t, .ok ()) => (t, .ok ())
      | (t, .error e) => (t.remove temporary, .error e)

/-- Write a file through a temporary file, after making the directories above it. -/
def write (t : FileTree) (names : List String) (content : String) :
    FileTree × Except OsError Unit :=
  match t.makeDirectory names.dropLast with
  | (t, .error e) => (t, .error e)
  | (t, .ok directory) => replaceFile t directory names content

/-- Write a file directly, after making the directories above it. -/
def writePlain (t : FileTree) (target : Location) (content : String) :
    FileTree × Except OsError Unit :=
  match t.makeDirectory target.dropLast with
  | (t, .error e) => (t, .error e)
  | (t, .ok _) => t.writeFile target content

/-- Write a file through a temporary file if nothing stands in its place. -/
def writeNew (t : FileTree) (path : WrittenPath) (content : String) :
    FileTree × Except OutputError Unit :=
  match t.standsAt path.names with
  | .error e => (t, .error (.system e))
  | .ok true => (t, .error (.occupied path))
  | .ok false =>
    match write t path.names content with
    | (t, .ok ()) => (t, .ok ())
    | (t, .error e) => (t, .error (.system e))

/-! ## All artifacts of a run -/

/-- The location of a path that was written somewhere, by its text alone.  Every name in it must be
one that can be asked for, even if the path goes up again behind it. -/
def resolve (here : Location) (path : String) : Except OsError Location :=
  let p := WrittenPath.ofText path
  match p.names.findSome? fun name => OsError.ofNames? [name] with
  | some e => .error e
  | none => .ok (p.locate here)

/-- The location of a path below an output directory. -/
def target (root : Location) (path : String) : Except OutputError Location := do
  let l ← (resolve root path).mapError .system
  if Location.isWithin root l then return l else throw (.outside path)

/-- The location and the content of an artifact. -/
def placed (root : Location) (a : Artifact) : Except OutputError (Location × String) :=
  (target root a.path).map fun l => (l, a.content)

/-- Write files in order, until the file system refuses one. -/
def writeAll (atomic : Bool) (t : FileTree) :
    List (Location × String) → FileTree × Except OutputError Unit
  | [] => (t, .ok ())
  | (l, content) :: rest =>
    match (if atomic then write t l content else writePlain t l content) with
    | (t, .ok ()) => writeAll atomic t rest
    | (t, .error e) => (t, .error (.system e))

/-- Write artifacts below an output directory; the result lists their locations in order. -/
def writeArtifacts (t : FileTree) (root : Location) (rule : OutputRule)
    (artifacts : List Artifact) : FileTree × Except OutputError (List Location) :=
  match traverse (placed root) artifacts with
  | .error e => (t, .error e)
  | .ok files =>
    let targets := files.map (·.1)
    let present := targets.filter t.present
    if !rule.overwrite && targets.any t.refusesLook then (t, .error (.system .nameTooLong))
    else if !rule.overwrite && !present.isEmpty then (t, .error (.allOccupied present))
    else
      match writeAll rule.atomic t files with
      | (t, .ok ()) => (t, .ok targets)
      | (t, .error e) => (t, .error e)

end Output

end SchemaClasses
