import SchemaClasses.Text.Ascii
import SchemaClasses.Text.CodeUnit
import SchemaClasses.Unreadable
import SchemaClasses.Value.Basic

/-!
# Reading JSON

`Json.read` reads one JSON value.  Objects keep the order of their members; a repeated member
keeps its first place and takes the last value.  A number without fraction and exponent is an
integer of any size, every other number the nearest double-precision number.  The names `NaN`,
`Infinity` and `-Infinity` are accepted.  Two escapes in a row whose units form a pair are one
character; half of a pair may also stand alone.  Integers have a greatest length and values a
greatest depth.

Each function reads from the front of a list of characters and returns the rest.
-/

namespace SchemaClasses.Json

open Decimal (Binary64)
open Text.Ascii (isDigit decimalValue hexNumber?)

/-- The characters between the parts of a JSON text. -/
def isBlank (c : Char) : Bool := c = ' ' || c = '\t' || c = '\n' || c = '\r'

/-- The rest after blanks. -/
def skipBlanks (cs : List Char) : List Char := cs.dropWhile isBlank

/-! ## Strings -/

/-- The characters that a backslash and a letter stand for. -/
def simpleEscapes : List (Char × Char) :=
  [('"', '"'), ('\\', '\\'), ('/', '/'), ('b', '\x08'), ('f', '\x0c'), ('n', '\n'), ('r', '\r'),
    ('t', '\t')]

/-- The code point of a four-digit escape: one unit, or two escaped units that form a pair.  The
text starts after the mark of the escape. -/
def unicodeEscape? (cs : List Char) : Option (Nat × List Char) :=
  match hexNumber? 4 0 cs with
  | none => none
  | some (unit, rest) =>
    let paired := match rest with
      | '\\' :: 'u' :: more =>
        (hexNumber? 4 0 more).bind fun (low, after) =>
          (Text.pair? unit low).map fun n => (n, after)
      | _ => none
    some (paired.getD (unit, rest))

/-- The characters of a string after its opening mark, collected in reverse. -/
def stringBody? : Nat → List Char → List Char → Option (String × List Char)
  | 0, _, _ => none
  | fuel + 1, collected, cs =>
    match cs with
    | '"' :: rest => some (String.ofList collected.reverse, rest)
    | '\\' :: 'u' :: rest =>
      match unicodeEscape? rest with
      | some (n, rest') =>
        stringBody? fuel ((Text.encodePoint n).reverse ++ collected) rest'
      | none => none
    | '\\' :: c :: rest =>
      match simpleEscapes.lookup c with
      | some c' => stringBody? fuel (c' :: collected) rest
      | none => none
    | c :: rest => if c < ' ' then none else stringBody? fuel (c :: collected) rest
    | [] => none

/-! ## Numbers and names -/

/-- The digits after a mark, if at least one follows. -/
def digitsAfter (cs : List Char) : Option (List Char × List Char) :=
  match cs.span isDigit with
  | ([], _) => none
  | (ds, rest) => some (ds, rest)

def exponent? : List Char → Option (Int × List Char)
  | e :: rest =>
    if e = 'e' || e = 'E' then
      let (negative, digits) := match rest with
        | '-' :: r => (true, r)
        | '+' :: r => (false, r)
        | r => (false, r)
      (digitsAfter digits).map fun (ds, r) =>
        (if negative then -(decimalValue ds : Int) else decimalValue ds, r)
    else none
  | [] => none

def integer (negative : Bool) (digits : List Char) : Except UnreadableText Value :=
  if Decimal.mostDigits < digits.length then .error .badInteger
  else
    let n : Int := decimalValue digits
    .ok (.scalar (.int (if negative then -n else n)))

/-- A number whose sign has been read; nothing if no number stands here. -/
def unsigned? (negative : Bool) (cs : List Char) :
    Option (Except UnreadableText Value × List Char) :=
  let whole := match cs with
    | '0' :: rest => some (['0'], rest)
    | _ => digitsAfter cs
  whole.map fun (ds, rest) =>
    let fraction := match rest with
      | '.' :: r => digitsAfter r
      | _ => none
    let (fs, rest) := fraction.getD ([], rest)
    let power := exponent? rest
    if fraction.isNone && power.isNone then (integer negative ds, rest)
    else
      let (e, rest) := power.getD (0, rest)
      (.ok (.scalar (.double
        (Binary64.ofDecimal negative (decimalValue (ds ++ fs)) (e - fs.length)))), rest)

/-- The number that is no number, as this format writes it. -/
def notNumber : Binary64 := Binary64.nan 0

def names : List (List Char × Value) :=
  [("null".toList, .null), ("true".toList, .scalar (.bool true)),
    ("false".toList, .scalar (.bool false)), ("NaN".toList, .scalar (.double notNumber)),
    ("Infinity".toList, .scalar (.double (Binary64.infinity false))),
    ("-Infinity".toList, .scalar (.double (Binary64.infinity true)))]

def name (cs : List Char) : Except UnreadableText (Value × List Char) :=
  match names.findSome? fun (word, v) => (word.isPrefixOf? cs).map fun rest => (v, rest) with
  | some result => .ok result
  | none => .error .notJson

/-- A number or a name. -/
def atom (cs : List Char) : Except UnreadableText (Value × List Char) :=
  let number := match cs with
    | '-' :: rest => unsigned? true rest
    | _ => unsigned? false cs
  match number with
  | some (.ok v, rest) => .ok (v, rest)
  | some (.error u, _) => .error u
  | none => name cs

/-! ## Values -/

/-- How deep values may be inside each other. -/
def mostDepth : Nat := 985

mutual

/-- One value, which may hold values to a depth. -/
def value (depth : Nat) : Nat → List Char → Except UnreadableText (Value × List Char)
  | 0, _ => .error .notJson
  | fuel + 1, cs =>
    match cs with
    | '"' :: rest =>
      match stringBody? (rest.length + 1) [] rest with
      | some (s, r) => .ok (.text s, r)
      | none => .error .notJson
    | '[' :: rest =>
      if depth = 0 then .error .tooDeep
      else
        match skipBlanks rest with
        | ']' :: r => .ok (.list [], r)
        | r => items (depth - 1) fuel [] r
    | '\x7b' :: rest =>
      if depth = 0 then .error .tooDeep
      else
        match skipBlanks rest with
        | '\x7d' :: r => .ok (.mapping [], r)
        | r => members (depth - 1) fuel [] r
    | _ => atom cs

/-- The items of an array from an item on, collected in reverse. -/
def items (depth : Nat) :
    Nat → List Value → List Char → Except UnreadableText (Value × List Char)
  | 0, _, _ => .error .notJson
  | fuel + 1, collected, cs =>
    match value depth fuel cs with
    | .error u => .error u
    | .ok (v, rest) =>
      match skipBlanks rest with
      | ',' :: r => items depth fuel (v :: collected) (skipBlanks r)
      | ']' :: r => .ok (.list (v :: collected).reverse, r)
      | _ => .error .notJson

/-- The members of an object from a key on, collected in reverse. -/
def members (depth : Nat) :
    Nat → List (Scalar × Value) → List Char → Except UnreadableText (Value × List Char)
  | 0, _, _ => .error .notJson
  | fuel + 1, collected, cs =>
    match cs with
    | '"' :: rest =>
      match stringBody? (rest.length + 1) [] rest with
      | none => .error .notJson
      | some (key, r) =>
        match skipBlanks r with
        | ':' :: r =>
          match value depth fuel (skipBlanks r) with
          | .error u => .error u
          | .ok (v, r) =>
            let collected := (Scalar.text key, v) :: collected
            match skipBlanks r with
            | ',' :: r => members depth fuel collected (skipBlanks r)
            | '\x7d' :: r => .ok (.mapping (Entries.ofPairs collected.reverse), r)
            | _ => .error .notJson
        | _ => .error .notJson
    | _ => .error .notJson

end

/-- The value that a text writes. -/
def read (s : String) : Except UnreadableText Value :=
  let cs := skipBlanks s.toList
  match value mostDepth (2 * cs.length + 2) cs with
  | .ok (v, rest) => if (skipBlanks rest).isEmpty then .ok v else .error .notJson
  | .error u => .error u

end SchemaClasses.Json
