import SchemaClasses.Document.Basic
import SchemaClasses.Files.Location
import SchemaClasses.Json.Reader
import SchemaClasses.Yaml.Reader

/-!
# Where documents come from

A document is read from a text or from a file.  A file whose name ends in `.json`, in any case,
holds JSON, and every other file holds YAML.  In files every kind of line end counts as a line feed.
-/

namespace SchemaClasses

inductive Format where
  | json
  | yaml
  deriving DecidableEq, Repr

namespace Format

/-- What follows the last point of a file name; nothing if the point is its first or last
character. -/
def ending? (name : String) : Option String :=
  let cs := name.toList
  let ending := (cs.reverse.takeWhile (· ≠ '.')).reverse
  if ending.isEmpty || cs.length ≤ ending.length + 1 then none else some (String.ofList ending)

def ofPath (path : String) : Format :=
  let ending := ending? (WrittenPath.ofText path).name
  if ending.any fun e => e.toList.map Char.toLower == "json".toList then json else yaml

end Format

def lineFeeds : List Char → List Char
  | '\r' :: '\n' :: rest => '\n' :: lineFeeds rest
  | '\r' :: rest => '\n' :: lineFeeds rest
  | c :: rest => c :: lineFeeds rest
  | [] => []

/-- The value that a file with this text writes in a format. -/
def Format.readFile (format : Format) (text : String) : Except UnreadableText Value :=
  let text := String.ofList (lineFeeds text.toList)
  match format with
  | json => Json.read text
  | yaml => Yaml.readFile text

namespace Document

def ofRead : Except UnreadableText Value → Except Failure Document
  | .ok v => ofValue v
  | .error u => .error (.unreadable u)

/-- The document that a text writes in YAML. -/
def ofText (text : String) : Except Failure Document := ofRead (Yaml.read text)

def ofFile (path text : String) : Except Failure Document :=
  ofRead ((Format.ofPath path).readFile text)

end Document

end SchemaClasses
