import SchemaClasses.Yaml.Block
import SchemaClasses.Yaml.Input
import SchemaClasses.Yaml.Plain
import SchemaClasses.Yaml.Quoted

/-!
# Tokens

The text of a document is cut into tokens.  Block structure is written by indentation alone, so
the tokens that open and close a block are made up here: an indentation deeper than the last opens
a block, and a shallower one closes all blocks that were deeper.

A key is recognised only by the colon after it.  Where a key may stand, its place is remembered as
a `PossibleKey`, one for every level of flow collections, and when the colon comes the tokens that
belong before the key are put in at that place.  A key must end on its line and within a fixed
number of characters, and where the block structure demands a key it must come.

Tags, directives and the like are refused.  Where no token can be read, a `broken` one is the last,
and whoever comes to it learns why.  A token that may turn out to begin a key is handed out only
when that is decided, so the broken token stands in the place of the first one that is undecided.
-/

namespace SchemaClasses.Yaml

inductive Token where
  | documentStart
  | documentEnd
  | blockSequenceStart
  | blockMappingStart
  | blockEnd
  | flowSequenceStart
  | flowSequenceEnd
  | flowMappingStart
  | flowMappingEnd
  | flowEntry
  | blockEntry
  | key
  | value
  | alias (name : String)
  | anchor (name : String)
  | plain (text : String)
  | quoted (text : String)
  | broken (u : UnreadableText)
  deriving DecidableEq, Repr

/-- The place where a key may have begun. -/
structure PossibleKey where
  /-- The number of tokens before it. -/
  position : Nat
  /-- Whether the block structure demands a key here. -/
  required : Bool
  index : Nat
  line : Nat
  column : Nat

/-- The most characters a key may take. -/
def longestKey : Nat := 1024

/-- What has been read of a text. -/
structure Lexer where
  cursor : Cursor
  /-- The tokens so far, the last one first. -/
  tokens : List Token := []
  /-- How many tokens there are so far. -/
  count : Nat := 0
  /-- The columns of the open blocks, the innermost first. -/
  blocks : List Nat := []
  /-- Whether a key may begin here. -/
  keyAllowed : Bool := true
  /-- The possible key of the current level, and of the levels around it. -/
  possible : Option PossibleKey := none
  outer : List (Option PossibleKey) := []

namespace Lexer

/-- Whether a flow collection is open. -/
def inFlow (x : Lexer) : Bool := !x.outer.isEmpty

def leastColumn (x : Lexer) : Nat := (x.blocks.head?.map (· + 1)).getD 0

/-- Add a token. -/
def emit (t : Token) (x : Lexer) : Lexer :=
  { x with tokens := t :: x.tokens, count := x.count + 1 }

/-- Put a token in behind the first `position` tokens. -/
def emitAt (position : Nat) (t : Token) (x : Lexer) : Lexer :=
  let after := x.count - position
  { x with tokens := x.tokens.take after ++ t :: x.tokens.drop after, count := x.count + 1 }

/-- Pass characters. -/
def skip (n : Nat) (x : Lexer) : Lexer := { x with cursor := x.cursor.skip n }

/-- Say whether a key may begin next. -/
def allowKey (allowed : Bool) (x : Lexer) : Lexer := { x with keyAllowed := allowed }

/-! ## Possible keys -/

/-- Drop a possible key that cannot be completed any more; a required one must have been. -/
def dropStale (cursor : Cursor) : Option PossibleKey → Option (Option PossibleKey)
  | none => some none
  | some k =>
    if k.line ≠ cursor.line || longestKey < cursor.index - k.index then
      if k.required then none else some none
    else some (some k)

/-- Drop the possible keys of all levels that cannot be completed any more. -/
def dropAllStale (x : Lexer) : Option Lexer := do
  let possible ← dropStale x.cursor x.possible
  let outer ← x.outer.mapM (dropStale x.cursor)
  return { x with possible := possible, outer := outer }

/-- Give up the possible key of this level. -/
def forgetKey (x : Lexer) : Option Lexer :=
  if x.possible.any (·.required) then none else some { x with possible := none }

def rememberKey (x : Lexer) : Option Lexer :=
  if x.keyAllowed then
    (forgetKey x).map fun x => { x with
      possible := some {
        position := x.count
        required := !x.inFlow && x.blocks.head? == some x.cursor.column
        index := x.cursor.index
        line := x.cursor.line
        column := x.cursor.column } }
  else some x

/-! ## Blocks -/

/-- Close blocks until these are left. -/
def closeTo (left : List Nat) (x : Lexer) : Lexer :=
  let closed := x.blocks.length - left.length
  { x with
    blocks := left
    tokens := List.replicate closed .blockEnd ++ x.tokens
    count := x.count + closed }

/-- Close the blocks that are deeper than the place that is reached. -/
def unwind (x : Lexer) : Lexer :=
  if x.inFlow then x else closeTo (x.blocks.dropWhile (x.cursor.column < ·)) x

/-- Close all blocks. -/
def unwindAll (x : Lexer) : Lexer := if x.inFlow then x else closeTo [] x

def isDeeper (x : Lexer) (column : Nat) : Bool := x.blocks.head?.all (· < column)

/-- Open a block at the current column if that is deeper than the current block. -/
def openBlock (t : Token) (x : Lexer) : Lexer :=
  if x.isDeeper x.cursor.column then
    emit t { x with blocks := x.cursor.column :: x.blocks }
  else x

/-! ## Steps -/

/-- Pass blanks, comments and line ends; outside flow collections a key may begin on a new line. -/
def toNextToken : Nat → Lexer → Lexer
  | 0, x => x
  | fuel + 1, x =>
    let c := x.cursor.skipWhile (· = ' ')
    let c := if c.at? '#' then c.skipWhile fun ch => !isBreak ch else c
    match c.lineBreak? with
    | some (_, c) =>
      toNextToken fuel { x with cursor := c, keyAllowed := x.keyAllowed || !x.inFlow }
    | none => { x with cursor := c }

def documentMark (t : Token) (x : Lexer) : Option Lexer :=
  (forgetKey (unwindAll x)).map fun x => emit t (skip 3 (allowKey false x))

/-- The opening of a flow collection. -/
def flowStart (t : Token) (x : Lexer) : Option Lexer :=
  (rememberKey x).map fun x =>
    emit t (skip 1 { x with keyAllowed := true, possible := none, outer := x.possible :: x.outer })

/-- The closing of a flow collection; there must be one to close. -/
def flowEnd (t : Token) (x : Lexer) : Option Lexer :=
  match x.outer with
  | [] => none
  | possible :: outer =>
    (forgetKey x).map fun x =>
      emit t (skip 1 { x with keyAllowed := false, possible := possible, outer := outer })

/-- A comma in a flow collection. -/
def flowEntry (x : Lexer) : Option Lexer :=
  (forgetKey x).map fun x => emit .flowEntry (skip 1 (allowKey true x))

def blockMark (t : Token) (x : Lexer) : Option Lexer :=
  if x.inFlow then some x
  else if x.keyAllowed then some (openBlock t x)
  else none

/-- The mark of an item of a block sequence. -/
def blockEntry (x : Lexer) : Option Lexer := do
  let x ← forgetKey (← blockMark .blockSequenceStart x)
  return emit .blockEntry (skip 1 (allowKey true x))

def keyMark (x : Lexer) : Option Lexer := do
  let x ← forgetKey (← blockMark .blockMappingStart x)
  return emit .key (skip 1 (allowKey (!x.inFlow) x))

/-- The colon after a key that was remembered. -/
def completeKey (k : PossibleKey) (x : Lexer) : Lexer :=
  let x := emitAt k.position .key { x with possible := none, keyAllowed := false }
  if !x.inFlow && x.isDeeper k.column then
    emitAt k.position .blockMappingStart { x with blocks := k.column :: x.blocks }
  else x

/-- The colon before a value. -/
def valueMark (x : Lexer) : Option Lexer :=
  match x.possible with
  | some k => some (emit .value (skip 1 (completeKey k x)))
  | none => do
    let x ← forgetKey (← blockMark .blockMappingStart x)
    return emit .value (skip 1 (allowKey (!x.inFlow) x))

/-- A character of the name of an anchor. -/
def isNameChar (ch : Char) : Bool :=
  Text.Ascii.isDigit ch || ('A' ≤ ch && ch ≤ 'Z') || ('a' ≤ ch && ch ≤ 'z') || ch = '-' || ch = '_'

/-- What may follow the name of an anchor. -/
def endsName (following : Option Char) : Bool :=
  endsWord following || following.any fun ch => "?:,]\x7d%@`".toList.contains ch

/-- An anchor or an alias. -/
def nameMark (t : String → Token) (x : Lexer) : Option Lexer := do
  let x ← rememberKey x
  let (name, c) := (x.cursor.skip 1).takeWhile isNameChar
  if name.isEmpty || !endsName c.peek? then none
  else return emit (t (String.ofList name)) { x with keyAllowed := false, cursor := c }

/-- A block scalar, after which a key may begin. -/
def block (folded : Bool) (x : Lexer) : Option Lexer := do
  let x ← forgetKey x
  let (text, c) ← blockScalar? folded (max 1 x.leastColumn) x.cursor
  return emit (.quoted text) { x with keyAllowed := true, cursor := c }

def quoted (mark : Char) (x : Lexer) : Except UnreadableText Lexer := do
  let x ← orNotYaml (rememberKey x)
  let (text, c) ← quotedScalar mark x.cursor
  return emit (.quoted text) { x with keyAllowed := false, cursor := c }

/-- Whether a plain scalar can begin here. -/
def startsPlain (x : Lexer) (ch : Char) : Bool :=
  !(endsWord (some ch) || "-?:,[]\x7b\x7d#&*!|>'\"%@`".toList.contains ch)
    || (!endsWord x.cursor.second? && (ch = '-' || (!x.inFlow && (ch = '?' || ch = ':'))))

/-- A plain scalar, after which a key may begin if it ended with a line. -/
def plain (x : Lexer) : Option Lexer :=
  (rememberKey x).map fun x =>
    let (text, broken, c) := plainScalar x.inFlow x.leastColumn x.cursor
    emit (.plain text) { x with keyAllowed := broken, cursor := c }

/-- The token that begins with a character that is no mark of a quoted scalar. -/
def unquoted (ch : Char) (x : Lexer) : Option Lexer :=
  let c := x.cursor
  let alone := endsWord c.second?
  if ch = '%' && c.column = 0 then none
  else if c.column = 0 && c.hasMarker "---" then documentMark .documentStart x
  else if c.column = 0 && c.hasMarker "..." then documentMark .documentEnd x
  else if ch = '[' then flowStart .flowSequenceStart x
  else if ch = '\x7b' then flowStart .flowMappingStart x
  else if ch = ']' then flowEnd .flowSequenceEnd x
  else if ch = '\x7d' then flowEnd .flowMappingEnd x
  else if ch = ',' then flowEntry x
  else if ch = '-' && alone then blockEntry x
  else if ch = '?' && (x.inFlow || alone) then keyMark x
  else if ch = ':' && (x.inFlow || alone) then valueMark x
  else if ch = '*' then nameMark .alias x
  else if ch = '&' then nameMark .anchor x
  else if ch = '|' && !x.inFlow then block false x
  else if ch = '>' && !x.inFlow then block true x
  else if x.startsPlain ch then plain x
  else none

def token (ch : Char) (x : Lexer) : Except UnreadableText Lexer :=
  if ch = '\'' || ch = '"' then quoted ch x else orNotYaml (unquoted ch x)

/-! ## All tokens -/

/-- Whether a possible key can still be completed. -/
def isOpen (cursor : Cursor) (k : PossibleKey) : Bool :=
  k.line = cursor.line && cursor.index - k.index ≤ longestKey

def decided (x : Lexer) : Nat :=
  let waiting := (x.possible :: x.outer).filterMap fun k => k.filter (isOpen x.cursor)
  (waiting.map (·.position)).foldl min x.count

/-- The tokens before a place where no token can be read. -/
def stopped (x : Lexer) (u : UnreadableText) : List Token :=
  x.tokens.reverse.take x.decided ++ [.broken u]

/-- The tokens at the end of a text. -/
def finished (x : Lexer) : Option (List Token) :=
  (forgetKey (unwindAll x)).map fun x => x.tokens.reverse

/-- Read one more token, or all that is left to emit at the end of the text. -/
def next (x : Lexer) : Except UnreadableText (Lexer ⊕ List Token) := do
  let y := unwind (← orNotYaml (dropAllStale (toNextToken x.cursor.bound x)))
  match y.cursor.peek? with
  | none => return .inr (← orNotYaml y.finished)
  | some ch => return .inl (← token ch y)

/-- Read tokens to the end of the text.  Where the text has no end but cannot be read any further,
the last token is broken. -/
def run (hasEnd : Bool) : Nat → Lexer → List Token
  | 0, x => x.stopped .notYaml
  | fuel + 1, x =>
    match x.next with
    | .error u => x.stopped u
    | .ok (.inr tokens) => if hasEnd then tokens else x.stopped .notYaml
    | .ok (.inl y) =>
      if !hasEnd && y.cursor.rest.isEmpty then x.stopped .notYaml else run hasEnd fuel y

end Lexer

/-- The tokens of a document.  A byte order mark at its start is passed. -/
def tokens (input : Input) : List Token :=
  let start := Cursor.start input.chars
  let start := if start.at? '\uFEFF' then start.next else start
  Lexer.run input.hasEnd (input.chars.length + 1) { cursor := start }

end SchemaClasses.Yaml
