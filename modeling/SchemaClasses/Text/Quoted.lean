import SchemaClasses.Text.CodeUnit
import SchemaClasses.Text.Printable

/-!
# Quoted texts

Messages show a text between quotation marks so that its ends and its invisible characters can be
seen.  Single marks are used unless the text holds a single mark and no double one.  The mark in
use, the backslash and the three common controls are escaped by a backslash; any other character
that is not printable is shown by its code point, in the shortest of the forms `\xNN`, `\uNNNN` and
`\UNNNNNNNN` that holds it, and so is half of a pair.
-/

namespace SchemaClasses.Text

/-- A number in hexadecimal, filled with zeros up to a width. -/
def hexDigits (width n : Nat) : List Char :=
  let digits := Nat.toDigits 16 n
  List.replicate (width - digits.length) '0' ++ digits

/-- The mark that encloses a text: a single one, or a double one where that saves escapes. -/
def quoteMark (ns : List Nat) : Char :=
  if ns.contains '\''.toNat && !ns.contains '"'.toNat then '"' else '\''

/-- One code point inside a quoted text. -/
def escapePoint (quote : Char) (n : Nat) : List Char :=
  let c := Char.ofNat n
  if c = quote || c = '\\' then ['\\', c]
  else if c = '\n' then ['\\', 'n']
  else if c = '\r' then ['\\', 'r']
  else if c = '\t' then ['\\', 't']
  else if isPrintable c then [c]
  else if n < 0x100 then '\\' :: 'x' :: hexDigits 2 n
  else if n < 0x10000 then '\\' :: 'u' :: hexDigits 4 n
  else '\\' :: 'U' :: hexDigits 8 n

def quotedPoints (ns : List Nat) : List Char :=
  let quote := quoteMark ns
  quote :: (ns.flatMap (escapePoint quote) ++ [quote])

def quoted (s : String) : String := String.ofList (quotedPoints (codePoints s))

end SchemaClasses.Text
