import SchemaClasses.Text.Ascii
import SchemaClasses.Text.CodeUnit
import SchemaClasses.Yaml.Cursor

/-!
# Block scalars

A block scalar is the lines that are indented deeper than their surroundings.  A literal one keeps
its line ends; a folded one turns a line end between two lines that start with text into a space.
The header may say how deep the lines are and what becomes of the line ends after the last line.
-/

namespace SchemaClasses.Yaml

/-- What becomes of the line ends after the last line. -/
inductive Chomping where
  | clip
  | strip
  | keep
  deriving DecidableEq

structure BlockHeader where
  chomping : Chomping := .clip
  depth : Option Nat := none

def chomping? (c : Cursor) : Option Chomping :=
  if c.at? '+' then some .keep else if c.at? '-' then some .strip else none

/-- The depth that a digit gives; none if there is no digit. -/
def depth? (c : Cursor) : Option Nat :=
  (c.peek?.filter Text.Ascii.isDigit).map fun ch => ch.toNat - '0'.toNat

/-- The header, in either order of its parts.  A depth of zero is refused. -/
def blockHeader? (c : Cursor) : Option (BlockHeader × Cursor) :=
  let read : BlockHeader × Cursor :=
    match chomping? c, depth? c with
    | some chomping, _ =>
      match depth? c.next with
      | some depth => (⟨chomping, some depth⟩, Cursor.skip 2 c)
      | none => (⟨chomping, none⟩, c.next)
    | none, some depth =>
      match chomping? c.next with
      | some chomping => (⟨chomping, some depth⟩, Cursor.skip 2 c)
      | none => (⟨.clip, some depth⟩, c.next)
    | none, none => ({}, c)
  if read.1.depth = some 0 then none else some read

/-- The rest of the header's line: spaces and a comment. -/
def headerLineEnd? (c : Cursor) : Option Cursor :=
  if c.peek?.all fun ch => ch = ' ' || isBreak ch then
    let c := c.skipWhile (· = ' ')
    let c := if c.at? '#' then c.skipWhile fun ch => !isBreak ch else c
    match c.lineBreak? with
    | some (_, c) => some c
    | none => if c.rest.isEmpty then some c else none
  else none

/-- The blank lines before the first text, and the deepest column among them and of the text. -/
def leadingBreaks : Nat → Nat → Cursor → List Char × Nat × Cursor
  | 0, deepest, c => ([], deepest, c)
  | fuel + 1, deepest, c =>
    match c.lineBreak? with
    | some (b, c) =>
      let (bs, deepest, c) := leadingBreaks fuel deepest c
      (b :: bs, deepest, c)
    | none =>
      if c.at? ' ' then
        let c := c.skipWhile (· = ' ')
        leadingBreaks fuel (max deepest c.column) c
      else ([], deepest, c)

/-- The blank lines before the next line of a block, and the indentation of that line. -/
def blockBreaks (column : Nat) : Nat → Cursor → List Char × Cursor
  | 0, c => ([], c)
  | fuel + 1, c =>
    let c := c.skipToColumn column
    match c.lineBreak? with
    | some (b, c) =>
      let (bs, c) := blockBreaks column fuel c
      (b :: bs, c)
    | none => ([], c)

/-- What has been read of a block scalar. -/
structure BlockText where
  /-- The characters in reverse. -/
  collected : List Char := []
  /-- The line end of the last line. -/
  lastBreak : List Char := []
  /-- The blank lines after it. -/
  breaks : List Char := []

def startsWithText (c : Cursor) : Bool := !(c.peek?.any isBlank)

def blockLines (folded : Bool) (column : Nat) : Nat → BlockText → Cursor → BlockText × Cursor
  | 0, t, c => (t, c)
  | fuel + 1, t, c =>
    if c.column = column && !c.rest.isEmpty then
      let text := startsWithText c
      let (line, c) := c.takeWhile fun ch => !isBreak ch
      let collected := line.reverse ++ (t.breaks.reverse ++ t.collected)
      let (lastBreak, c) := match c.lineBreak? with
        | some (b, c) => ([b], c)
        | none => ([], c)
      let (breaks, c) := blockBreaks column c.bound c
      if c.column = column && !c.rest.isEmpty then
        let joined :=
          if folded && lastBreak == ['\n'] && text && startsWithText c then
            if breaks.isEmpty then [' '] else []
          else lastBreak
        blockLines folded column fuel ⟨joined ++ collected, lastBreak, breaks⟩ c
      else (⟨collected, lastBreak, breaks⟩, c)
    else (t, c)

/-- The text of a block, its last line ends treated as the header asks. -/
def BlockText.text (t : BlockText) (chomping : Chomping) : String :=
  Text.ofChars (t.collected.reverse ++ match chomping with
    | .strip => []
    | .clip => t.lastBreak
    | .keep => t.lastBreak ++ t.breaks)

/-- A block scalar; the cursor is at its mark, and `least` is the least column of its lines. -/
def blockScalar? (folded : Bool) (least : Nat) (c : Cursor) : Option (String × Cursor) := do
  let (header, c) ← blockHeader? c.next
  let c ← headerLineEnd? c
  let (breaks, column, c) := match header.depth with
    | none =>
      let (breaks, deepest, c) := leadingBreaks (2 * c.bound) 0 c
      (breaks, max least deepest, c)
    | some depth =>
      let column := least + depth - 1
      let (breaks, c) := blockBreaks column c.bound c
      (breaks, column, c)
  let (t, c) := blockLines folded column c.bound { breaks := breaks } c
  return (t.text header.chomping, c)

end SchemaClasses.Yaml
