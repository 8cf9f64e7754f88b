import SchemaClasses.Files.Name
import SchemaClasses.Text.Split

/-!
# Places in a file tree

A `Location` is the list of names on the way from the root to a file or a directory.  A path that
somebody wrote may leave out the beginning of the way, and may go up again; `WrittenPath.locate`
finds the location it means, by its text alone.
-/

namespace SchemaClasses

/-- A place in a file tree: the names on the way from the root. -/
abbrev Location := List String

namespace Location

def up : String := ".."

/-- Go one step: up, or to a name. -/
def step (here : Location) (name : String) : Location :=
  if name = up then here.dropLast else here ++ [name]

/-- Go several steps. -/
def follow (here : Location) (names : List String) : Location := names.foldl step here

def text (l : Location) : String := "/" ++ "/".intercalate l

/-- Whether a location is a directory itself or below it. -/
def isWithin (root l : Location) : Bool := root.isPrefixOf l

/-- A location by the names that the file system gives back. -/
def stored (l : Location) : Location := l.map FileName.stored

def mostBytes : Nat := 4095

/-- The number of bytes of the text of a location below the root. -/
def size (l : Location) : Nat := (l.map fun name => FileName.size name + 1).foldr (· + ·) 0

/-- Whether the text of a location is short enough, and stays so when a number of bytes is added to
it. -/
def fits (added : Nat) (l : Location) : Bool := size l + added ≤ mostBytes

@[simp] theorem follow_nil (here : Location) : follow here [] = here := rfl

@[simp] theorem follow_cons (here : Location) (name : String) (names : List String) :
    follow here (name :: names) = follow (step here name) names := rfl

@[simp] theorem stored_nil : stored [] = [] := rfl

@[simp] theorem stored_eq_nil_iff {l : Location} : stored l = [] ↔ l = [] := List.map_eq_nil_iff

end Location

/-- A path as it was written: the slashes before it, and the names to follow. -/
structure WrittenPath where
  /-- One slash or two if the way begins at the root, and none if it begins somewhere else. -/
  slashes : Nat
  names : List String
  deriving DecidableEq, Repr

namespace WrittenPath

/-- Whether a part of a path leads anywhere; an empty part and a single point do not. -/
def isStep (name : String) : Bool := name ≠ "" && name ≠ "."

/-- The slashes that are kept of those before a path: two as they are, and one of any more. -/
def keptSlashes (n : Nat) : Nat := if n ≤ 2 then n else 1

/-- The path that a text writes. -/
def ofText (s : String) : WrittenPath :=
  let cs := s.toList
  ⟨keptSlashes (cs.takeWhile (· = '/')).length,
    ((Text.splitAt '/' cs).map String.ofList).filter isStep⟩

/-- Whether a path is written from the root. -/
def isAbsolute (p : WrittenPath) : Bool := p.slashes ≠ 0

/-- The path from the root, for one that was written somewhere. -/
def fromRoot (here : Location) (p : WrittenPath) : WrittenPath :=
  if p.isAbsolute then p else ⟨1, here ++ p.names⟩

def locate (here : Location) (p : WrittenPath) : Location :=
  Location.follow (if p.isAbsolute then [] else here) p.names

/-- The last name of a path; empty if it has none. -/
def name (p : WrittenPath) : String := p.names.getLast?.getD ""

def text (p : WrittenPath) : String :=
  String.ofList (List.replicate p.slashes '/') ++ "/".intercalate p.names

end WrittenPath

def Location.ofText (here : Location) (s : String) : Location :=
  (WrittenPath.ofText s).locate here

end SchemaClasses
