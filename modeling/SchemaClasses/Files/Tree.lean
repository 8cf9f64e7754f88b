import SchemaClasses.Entries
import SchemaClasses.Files.Location
import SchemaClasses.Text.CodeUnit

/-!
# File trees

A `FileTree` is what a file system holds: directories, and files with their contents.  The root is
always there.  Two locations with the same stored names are the same place.  The operations of this
file are the ones a file system offers; what they refuse they refuse with an `OsError`, and a tree
that an operation could only change in part comes back as far as it was changed.
-/

namespace SchemaClasses

/-- What stands at a location. -/
inductive FileNode where
  | directory
  | file (content : String)
  deriving DecidableEq, Repr

/-- What the file system refuses. -/
inductive OsError where
  /-- A directory was to be made where a file stands. -/
  | fileInPlace (l : Location)
  /-- A way leads through a file. -/
  | notDirectory
  /-- A file was to be written where a directory stands. -/
  | isDirectory
  /-- A name or a whole way takes too many bytes. -/
  | nameTooLong
  /-- A name or the content of a file holds half of a pair, which has no bytes. -/
  | halfCharacter
  /-- A name holds the character that ends a name. -/
  | nullCharacter
  /-- Too many directories would have to be made for one. -/
  | tooDeep
  deriving DecidableEq, Repr

/-- Why the names on a way cannot be handed to a file system, if they cannot: names without bytes
come before names that end too early. -/
def OsError.ofNames? (names : List String) : Option OsError :=
  if !names.all FileName.hasBytes then some .halfCharacter
  else if names.any FileName.hasNull then some .nullCharacter
  else none

/-- Directories and files by their stored locations. -/
structure FileTree where
  entries : Entries Location FileNode := []
  deriving DecidableEq, Repr

namespace FileTree

/-! ## Looking -/

/-- What stands at a location, if anything does. -/
def node? (t : FileTree) (l : Location) : Option FileNode :=
  if l.isEmpty then some .directory else t.entries.get? l.stored

/-- Whether a file or a directory stands at a location. -/
def present (t : FileTree) (l : Location) : Bool := (t.node? l).isSome

/-- Whether a directory stands at a location. -/
def isDirectory (t : FileTree) (l : Location) : Bool := t.node? l == some .directory

/-- The content of the file at a location, if a file stands there. -/
def content? (t : FileTree) (l : Location) : Option String :=
  match t.node? l with
  | some (.file content) => some content
  | _ => none

/-- Follow names from a location.  Every step has to start from a directory. -/
def walk? (t : FileTree) : Location → List String → Option Location
  | here, [] => if t.present here then some here else none
  | here, name :: rest =>
    if t.isDirectory here then walk? t (Location.step here name) rest else none

/-- Whether following names from a location comes to a name that is too long to look for. -/
def meetsLongName (t : FileTree) : Location → List String → Bool
  | _, [] => false
  | here, name :: rest =>
    t.isDirectory here
      && (!FileName.fits 0 name || t.meetsLongName (Location.step here name) rest)

/-- Whether looking for what names from the root lead to is refused because of a length. -/
def refusesLook (t : FileTree) (names : List String) : Bool :=
  !Location.fits 0 names || ((t.walk? [] names).isNone && t.meetsLongName [] names)

/-- Whether something stands where names from the root lead.  Nothing stands under names that cannot
be asked for, and a way or a name that is too long is refused. -/
def standsAt (t : FileTree) (names : List String) : Except OsError Bool :=
  if (OsError.ofNames? names).isSome then .ok false
  else if t.refusesLook names then .error .nameTooLong
  else .ok (t.walk? [] names).isSome

/-! ## Changing -/

def put (t : FileTree) (l : Location) (n : FileNode) : FileTree := ⟨t.entries.insert l.stored n⟩

/-- Take away what stands at a location. -/
def remove (t : FileTree) (l : Location) : FileTree := ⟨t.entries.erase l.stored⟩

@[simp] theorem node?_nil (t : FileTree) : t.node? [] = some .directory := rfl

/-- After putting something, it stands there, and all else is as before. -/
theorem node?_put {t : FileTree} {l l' : Location} {n : FileNode} (h : l ≠ []) :
    (t.put l n).node? l' = if l.stored = l'.stored then some n else t.node? l' := by
  unfold node? put
  by_cases hl' : l' = []
  · subst hl'; simp [h]
  · simp [hl', Entries.get?_insert]

/-- After removing, nothing stands there, and all else is as before. -/
theorem node?_remove {t : FileTree} {l l' : Location} (h : l ≠ []) :
    (t.remove l).node? l' = if l.stored = l'.stored then none else t.node? l' := by
  unfold node? remove
  by_cases hl' : l' = []
  · subst hl'; simp [h]
  · simp [hl', Entries.get?_erase]

/-- What stands at a location depends only on how its names are stored. -/
theorem node?_congr {t : FileTree} {l l' : Location} (h : l.stored = l'.stored) :
    t.node? l = t.node? l' := by
  have empty : l = [] ↔ l' = [] := by
    rw [← Location.stored_eq_nil_iff, h, Location.stored_eq_nil_iff]
  unfold node?
  by_cases hl' : l' = []
  · simp [empty.2 hl', hl']
  · simp [mt empty.1 hl', hl', h]

/-! ## Directories -/

/-- Make the directories on a way, as far as they are missing.  A file in the way is told apart by
where it stands: at the end of the way or behind a directory just made it is `fileInPlace`, and
anywhere else the way leads through it. -/
def makeWay (t : FileTree) (here : Location) (made : Bool) :
    List String → FileTree × Except OsError Location
  | [] => (t, .ok here)
  | name :: rest =>
    if name = Location.up then makeWay t here.dropLast made rest
    else
      let next := here ++ [name]
      match t.node? next with
      | some .directory => makeWay t next made rest
      | none =>
        if FileName.fits 0 name then makeWay (t.put next .directory) next true rest
        else (t, .error .nameTooLong)
      | some (.file _) =>
        (t, .error (if made || rest.isEmpty then .fileInPlace next else .notDirectory))

/-- The number of directories that a way needs and that are missing.  Nothing is needed behind a
file or a name that is too long. -/
def missing (t : FileTree) (here : Location) : List String → Nat
  | [] => 0
  | name :: rest =>
    let next := Location.step here name
    match t.node? next with
    | some .directory => missing t next rest
    | some (.file _) => 0
    | none => if FileName.fits 0 name then rest.length + 1 else 0

def mostMissing : Nat := 990

def makeDirectory (t : FileTree) (names : List String) : FileTree × Except OsError Location :=
  match OsError.ofNames? names with
  | some e => (t, .error e)
  | none =>
    if !Location.fits 0 names then (t, .error .nameTooLong)
    else if t.missing [] names > mostMissing then (t, .error .tooDeep)
    else t.makeWay [] false names

/-! ## Files -/

/-- Write a file where no directory stands.  It is empty before its content is written, and stays so
if the content cannot be. -/
def writeFile (t : FileTree) (l : Location) (content : String) : FileTree × Except OsError Unit :=
  if t.isDirectory l then (t, .error .isDirectory)
  else if !Location.fits 0 l || !l.getLast?.all (FileName.fits 0) then (t, .error .nameTooLong)
  else if Text.hasHalf content then (t.put l (.file ""), .error .halfCharacter)
  else (t.put l (.file content), .ok ())

/-- Move a file to a place where no directory stands. -/
def renameFile (t : FileTree) (source target : Location) : FileTree × Except OsError Unit :=
  if t.isDirectory target then (t, .error .isDirectory)
  else
    match t.content? source with
    | some content => ((t.remove source).put target (.file content), .ok ())
    | none => (t, .error .notDirectory)

def longestName (t : FileTree) : Nat :=
  (t.entries.map fun entry => (entry.1.getLast?.getD "").length).foldl max 0

/-- A name for a temporary file beside another one, longer than any name in the tree. -/
def temporaryName (t : FileTree) (name : String) : String :=
  "." ++ name ++ "." ++ String.ofList (List.replicate t.longestName '_') ++ ".tmp"

end FileTree

end SchemaClasses
