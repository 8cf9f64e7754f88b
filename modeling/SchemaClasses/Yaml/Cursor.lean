/-!
# Places in a text

A `Cursor` is what is left of a text together with the line and the column that are reached.
Columns are what the block structure is made of, so every character is passed by `next`, which
keeps count.
-/

namespace SchemaClasses.Yaml

/-- Whether a character ends a line. -/
def isBreak (c : Char) : Bool :=
  c = '\n' || c = '\r' || c = '\x85' || c = '\u2028' || c = '\u2029'

/-- Whether a character is a space or a tab. -/
def isBlank (c : Char) : Bool := c = ' ' || c = '\t'

def endsWord : Option Char → Bool
  | none => true
  | some c => isBlank c || isBreak c

/-- A place in a text. -/
structure Cursor where
  rest : List Char
  /-- The number of characters in `rest`. -/
  left : Nat
  index : Nat := 0
  line : Nat := 0
  column : Nat := 0

namespace Cursor

/-- The beginning of a text. -/
def start (cs : List Char) : Cursor := { rest := cs, left := cs.length }

/-- The next character. -/
def peek? (c : Cursor) : Option Char := c.rest.head?

/-- The character after the next one. -/
def second? (c : Cursor) : Option Char := c.rest[1]?

/-- Whether this is the next character. -/
def at? (c : Cursor) (ch : Char) : Bool := c.peek? == some ch

/-- Pass one character.  A byte order mark takes no column, and a carriage return before a line
feed does not end the line. -/
def next (c : Cursor) : Cursor :=
  match c.rest with
  | [] => c
  | ch :: rest =>
    if isBreak ch && !(ch = '\r' && rest.head? == some '\n') then
      ⟨rest, c.left - 1, c.index + 1, c.line + 1, 0⟩
    else
      ⟨rest, c.left - 1, c.index + 1, c.line, if ch = '\uFEFF' then c.column else c.column + 1⟩

/-- Pass several characters. -/
def skip : Nat → Cursor → Cursor
  | 0, c => c
  | n + 1, c => skip n c.next

/-- Pass the characters that satisfy a condition. -/
def skipWhile (c : Cursor) (p : Char → Bool) : Cursor := skip (c.rest.takeWhile p).length c

/-- Read the characters that satisfy a condition. -/
def takeWhile (c : Cursor) (p : Char → Bool) : List Char × Cursor :=
  (c.rest.takeWhile p, c.skipWhile p)

/-- Pass spaces up to a column. -/
def skipToColumn (c : Cursor) (column : Nat) : Cursor :=
  skip (min (column - c.column) (c.rest.takeWhile (· = ' ')).length) c

/-- Pass the end of a line.  The two separators of the character standard are kept as they are, and
every other end of a line is a line feed. -/
def lineBreak? (c : Cursor) : Option (Char × Cursor) :=
  match c.rest with
  | '\r' :: '\n' :: _ => some ('\n', skip 2 c)
  | ch :: _ =>
    if isBreak ch then
      some (if ch = '\u2028' || ch = '\u2029' then ch else '\n', c.next)
    else none
  | [] => none

/-- Whether a marker of three characters stands here as a word. -/
def hasMarker (c : Cursor) (marker : String) : Bool :=
  c.rest.take 3 == marker.toList && endsWord c.rest[3]?

/-- Whether a mark between documents stands here. -/
def atSeparator (c : Cursor) : Bool := c.hasMarker "---" || c.hasMarker "..."

/-- More than the number of characters left, as a bound for loops. -/
def bound (c : Cursor) : Nat := c.left + 1

end Cursor

/-- What line ends inside a folded text stand for: a single one is a space, of several the first is
dropped. -/
def fold (first : Char) (more : List Char) : List Char :=
  if first ≠ '\n' then first :: more
  else if more.isEmpty then [' ']
  else more

end SchemaClasses.Yaml
