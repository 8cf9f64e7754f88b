import SchemaClasses.Text.Ascii
import SchemaClasses.Text.CodeUnit
import SchemaClasses.Unreadable
import SchemaClasses.Yaml.Cursor

/-!
# Quoted scalars

A quoted scalar reaches over several lines; the spaces around its line ends are dropped and the
line ends are folded.  Between single marks the only escape is the doubled mark.  Between double
marks a backslash begins an escape, and one at the end of a line joins the lines.  An escape gives
one character; two escapes in a row never make a pair.
-/

namespace SchemaClasses.Yaml

/-- The characters that a backslash and one more character stand for. -/
def simpleEscapes : List (Char × Char) :=
  [('0', '\x00'), ('a', '\x07'), ('b', '\x08'), ('t', '\t'), ('\t', '\t'), ('n', '\n'),
    ('v', '\x0b'), ('f', '\x0c'), ('r', '\r'), ('e', '\x1b'), (' ', ' '), ('"', '"'),
    ('\\', '\\'), ('/', '/'), ('N', '\x85'), ('_', '\xa0'), ('L', '\u2028'), ('P', '\u2029')]

/-- The blank lines after a line end, with the blanks before the next text. -/
def quotedBreaks : Nat → Cursor → Option (List Char × Cursor)
  | 0, _ => none
  | fuel + 1, c =>
    if c.atSeparator then none
    else
      let c := c.skipWhile isBlank
      match c.lineBreak? with
      | none => some ([], c)
      | some (b, c) => (quotedBreaks fuel c).map fun (bs, c) => (b :: bs, c)

/-- Blanks inside a quoted scalar: kept inside a line, folded around a line end. -/
def quotedBlanks (c : Cursor) : Option (List Char × Cursor) :=
  let (blanks, c) := c.takeWhile isBlank
  match c.lineBreak? with
  | none => some (blanks, c)
  | some (b, c) => (quotedBreaks c.bound c).map fun (bs, c) => (fold b bs, c)

/-- A reading that fails only because the text is not YAML. -/
def orNotYaml {α : Type} : Option α → Except UnreadableText α
  | some a => .ok a
  | none => .error .notYaml

/-- The greatest number that an escape can be looked up with. -/
def greatestCode : Nat := 0x7FFFFFFF

def asCodePoint (n : Nat) : Except UnreadableText Nat :=
  if n ≤ Text.lastPoint then .ok n
  else if n ≤ greatestCode then .error (.badCodePoint n)
  else .error .outOfRange

/-- A code point in so many digits, after the mark of the escape. -/
def codePoint (digits : Nat) (c : Cursor) : Except UnreadableText (Nat × Cursor) := do
  let (n, _) ← orNotYaml (Text.Ascii.hexNumber? digits 0 c.rest)
  return (← asCodePoint n, Cursor.skip digits c)

/-- The code points of characters, with the cursor after them. -/
def pointsOf (read : List Char × Cursor) : List Nat × Cursor := (read.1.map Char.toNat, read.2)

/-- What an escape stands for; the cursor is after the backslash. -/
def escaped (c : Cursor) : Except UnreadableText (List Nat × Cursor) :=
  match c.lineBreak? with
  | some (_, c) => (orNotYaml (quotedBreaks c.bound c)).map pointsOf
  | none =>
    match c.peek? with
    | none => .error .notYaml
    | some ch =>
      match simpleEscapes.lookup ch with
      | some ch' => .ok ([ch'.toNat], c.next)
      | none =>
        match [('x', 2), ('u', 4), ('U', 8)].lookup ch with
        | some digits => (codePoint digits c.next).map fun (n, c) => ([n], c)
        | none => .error .notYaml

/-- The text up to the closing mark; its code points are collected in reverse. -/
def quotedBody (mark : Char) :
    Nat → List Nat → Cursor → Except UnreadableText (String × Cursor)
  | 0, _, _ => .error .notYaml
  | fuel + 1, collected, c =>
    match c.rest with
    | [] => .error .notYaml
    | ch :: rest =>
      if isBlank ch || isBreak ch then do
        let (text, c) := pointsOf (← orNotYaml (quotedBlanks c))
        quotedBody mark fuel (text.reverse ++ collected) c
      else if ch = mark then
        if mark = '\'' && rest.head? == some '\'' then
          quotedBody mark fuel (ch.toNat :: collected) (Cursor.skip 2 c)
        else .ok (String.ofList (Text.encode collected.reverse), c.next)
      else if mark = '"' && ch = '\\' then do
        let (text, c) ← escaped c.next
        quotedBody mark fuel (text.reverse ++ collected) c
      else quotedBody mark fuel (ch.toNat :: collected) c.next

/-- A quoted scalar; the cursor is at its opening mark. -/
def quotedScalar (mark : Char) (c : Cursor) : Except UnreadableText (String × Cursor) :=
  quotedBody mark c.bound [] c.next

end SchemaClasses.Yaml
