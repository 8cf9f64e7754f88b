import SchemaClasses.Text.CodeUnit
import SchemaClasses.Unreadable

/-!
# The characters of a document

A document is made of characters that can be shown, of tabs and of line ends.  A text is looked at
as a whole: with any other character in it, it is no document.  A file is read in portions, a long
one first and shorter ones after it, and a character that is not allowed is met when its portion is
reached; what stands before may have another fault, which is then met first.
-/

namespace SchemaClasses.Yaml

/-- Whether a code point may occur in a document.  Half of a pair may not. -/
def isAllowed (n : Nat) : Bool :=
  n = 0x9 || n = 0xa || n = 0xd || (0x20 ≤ n && n ≤ 0x7e) || n = 0x85
    || (0xa0 ≤ n && n ≤ 0xfffd && !Text.isHalf n) || 0x10000 ≤ n

def firstPortion : Nat := 8192

def furtherPortion : Nat := 4096

/-- Where the portion begins that holds the character at a place. -/
def portionStart (place : Nat) : Nat :=
  if place < firstPortion then 0 else place - (place - firstPortion) % furtherPortion

/-- The portion that holds a character does not begin behind it. -/
theorem portionStart_le (place : Nat) : portionStart place ≤ place := by
  unfold portionStart
  split <;> omega

/-- What can be read of a document. -/
structure Input where
  chars : List Char
  /-- Whether the document ends after these characters, or cannot be read any further. -/
  hasEnd : Bool

def Input.ofText (s : String) : Except UnreadableText Input :=
  let points := Text.codePoints s
  if points.all isAllowed then .ok ⟨points.map Char.ofNat, true⟩ else .error .notYaml

def Input.ofFile (s : String) : Input :=
  let points := Text.codePoints s
  let place := (points.takeWhile isAllowed).length
  if place = points.length then ⟨points.map Char.ofNat, true⟩
  else ⟨(points.take (portionStart place)).map Char.ofNat, false⟩

end SchemaClasses.Yaml
