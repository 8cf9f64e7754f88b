import SchemaClasses.Text.CodeUnit
import SchemaClasses.Yaml.Cursor

/-!
# Plain scalars

A plain scalar is written without marks.  It ends where a character could mean something else: at
a comment, at a colon before a blank, and inside flow collections at their punctuation.  It may
reach over lines that are indented deeply enough; their ends are folded.
-/

namespace SchemaClasses.Yaml

def flowPunctuation : List Char := [',', '?', '[', ']', '{', '}']

/-- Whether a plain scalar ends before a character, given the one after it. -/
def endsPlain (inFlow : Bool) (ch : Char) (following : Option Char) : Bool :=
  endsWord (some ch)
    || (ch = ':' && (endsWord following
        || (inFlow && following.any fun f => f ≠ '?' && flowPunctuation.contains f)))
    || (inFlow && flowPunctuation.contains ch)

/-- The characters of a plain scalar up to a blank. -/
def plainWord (inFlow : Bool) : List Char → List Char
  | [] => []
  | ch :: rest =>
    if endsPlain inFlow ch rest.head? then [] else ch :: plainWord inFlow rest

/-- What follows a word of a plain scalar. -/
structure PlainGap where
  /-- What the gap stands for if the scalar goes on. -/
  text : List Char
  /-- Whether the gap holds the end of a line. -/
  broken : Bool
  after : Cursor

/-- The blank lines and indentation after a line end; nothing if a mark between documents comes. -/
def plainBreaks : Nat → Cursor → Option (List Char) × Cursor
  | 0, c => (none, c)
  | fuel + 1, c =>
    if c.atSeparator then (none, c)
    else
      let c := c.skipWhile (· = ' ')
      match c.lineBreak? with
      | none => (some [], c)
      | some (b, c) =>
        let (bs, c) := plainBreaks fuel c
        (bs.map (b :: ·), c)

/-- The gap after a word. -/
def plainGap (c : Cursor) : PlainGap :=
  let (spaces, c) := c.takeWhile (· = ' ')
  match c.lineBreak? with
  | none => ⟨spaces, false, c⟩
  | some (b, c) =>
    let (bs, c) := plainBreaks c.bound c
    ⟨(bs.map (fold b)).getD [], true, c⟩

/-- The words of a plain scalar, collected in reverse; `gap` stands before the next word.  The
result says whether the last gap held the end of a line. -/
def plainWords (inFlow : Bool) (least : Nat) :
    Nat → List Char → List Char → Bool → Cursor → String × Bool × Cursor
  | 0, collected, _, broken, c => (Text.ofChars collected.reverse, broken, c)
  | fuel + 1, collected, gap, broken, c =>
    let word := plainWord inFlow c.rest
    if c.at? '#' || word.isEmpty then (Text.ofChars collected.reverse, broken, c)
    else
      let collected := word.reverse ++ (gap.reverse ++ collected)
      let next := plainGap (Cursor.skip word.length c)
      if next.text.isEmpty || next.after.at? '#' || (!inFlow && next.after.column < least) then
        (Text.ofChars collected.reverse, next.broken, next.after)
      else plainWords inFlow least fuel collected next.text next.broken next.after

def plainScalar (inFlow : Bool) (least : Nat) (c : Cursor) : String × Bool × Cursor :=
  plainWords inFlow least c.bound [] [] false c

end SchemaClasses.Yaml
