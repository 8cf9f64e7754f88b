import SchemaClasses.Text.CodeUnit

/-!
# File names

A file system knows a file by bytes.  The text of a name shows the characters that the bytes spell;
a byte that belongs to no character is shown as one of the halves from U+DC80 to U+DCFF.  Two texts
are the same name if their bytes are the same, so a text in which such bytes happen to spell a
character names what the text with that character names: `stored` is the text that the file
system gives back.
-/

namespace SchemaClasses.FileName

def byteZero : Nat := 0xDC00

/-- Whether a code point shows a byte that belongs to no character. -/
def isLoneByte (n : Nat) : Bool := byteZero + 0x80 ≤ n && n ≤ byteZero + 0xFF

/-- Whether a name has bytes; a half that shows no byte has none. -/
def hasBytes (name : String) : Bool :=
  (Text.codePoints name).all fun n => isLoneByte n || !Text.isHalf n

/-- Whether a name holds the character that ends a name. -/
def hasNull (name : String) : Bool := (Text.codePoints name).contains 0

/-! ## Length -/

/-- The number of bytes of a code point. -/
def pointSize (n : Nat) : Nat := if isLoneByte n then 1 else (Char.ofNat n).utf8Size

/-- The number of bytes of a name. -/
def size (name : String) : Nat := ((Text.codePoints name).map pointSize).foldr (· + ·) 0

def mostBytes : Nat := 255

/-- Whether a name is short enough, and stays so when a number of bytes is added to it. -/
def fits (added : Nat) (name : String) : Bool := size name + added ≤ mostBytes

/-! ## The text that is given back -/

def byte (n : Nat) : UInt8 := UInt8.ofNat (n - byteZero)

/-- The character that code points spell, if they all show bytes. -/
def spelled? (ns : List Nat) : Option Char :=
  if ns.all isLoneByte then
    (String.fromUTF8? (ns.map byte).toByteArray).bind fun s => s.toList.head?
  else none

/-- The first character that is spelled at the beginning of code points, with its length.  No
character takes more than four bytes, and one that takes a single byte is itself. -/
def firstSpelled? (ns : List Nat) : Option (Char × Nat) :=
  [2, 3, 4].findSome? fun k => (spelled? (ns.take k)).map (·, k)

/-- Code points with every character that is spelled by bytes in place of the bytes. -/
def settled : List Nat → List Nat
  | [] => []
  | n :: rest =>
    match firstSpelled? (n :: rest) with
    | some (c, k) => c.toNat :: settled (rest.drop (k - 1))
    | none => n :: settled rest
termination_by ns => ns.length
decreasing_by all_goals simp; try omega

/-- The text of a name that the file system gives back. -/
def stored (name : String) : String :=
  let ns := Text.codePoints name
  if ns.any isLoneByte then String.ofList (Text.encode (settled ns)) else name

/-- A name that shows only characters is given back as it is. -/
theorem stored_eq_self {name : String}
    (h : (Text.codePoints name).any isLoneByte = false) : stored name = name := by
  simp [stored, h]

/-- Nothing is spelled where the first code point shows no byte. -/
theorem firstSpelled?_eq_none {n : Nat} (rest : List Nat) (h : isLoneByte n = false) :
    firstSpelled? (n :: rest) = none := by
  simp [firstSpelled?, spelled?, h]

/-- Code points that show no bytes stay as they are. -/
theorem settled_eq_self {ns : List Nat} (h : ns.any isLoneByte = false) : settled ns = ns := by
  induction ns with
  | nil => rw [settled]
  | cons n rest ih =>
    rw [List.any_cons, Bool.or_eq_false_iff] at h
    rw [settled, firstSpelled?_eq_none rest h.1]
    simp [ih h.2]

end SchemaClasses.FileName
