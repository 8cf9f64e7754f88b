import SchemaClasses.Text.CodeUnit

/-!
# Printed lines

What a run prints is meant to be kept as text, so the sequences by which a terminal changes its
colours are left out, and a line ends with a line feed alone.  Half of a pair has no bytes.  On the
error output it is written as an escape, so that a report always arrives; on the standard output
nothing stands for it, and `printable` says which lines can be printed.
-/

namespace SchemaClasses.CommandLine

/-! ## Colours -/

/-- The character that begins a sequence for a terminal. -/
def escapeChar : Char := '\x1b'

def isSequenceParameter (c : Char) : Bool := c.isDigit || c == ';' || c == '?'

/-- What follows a sequence of which the first two characters have been read, if it ends in a
letter. -/
def afterSequence? (cs : List Char) : Option (List Char) :=
  match cs.dropWhile isSequenceParameter with
  | c :: rest => if c.isAlpha then some rest else none
  | [] => none

theorem length_afterSequence? {cs rest : List Char} (h : afterSequence? cs = some rest) :
    rest.length < cs.length := by
  unfold afterSequence? at h
  split at h
  · next c more hd =>
    split at h
    · obtain rfl := Option.some.inj h
      have := (List.dropWhile_suffix isSequenceParameter (l := cs)).length_le
      rw [hd, List.length_cons] at this
      omega
    · simp at h
  · simp at h

/-- Characters without the sequences for a terminal. -/
def withoutColours : List Char → List Char
  | [] => []
  | [c] => [c]
  | c :: d :: rest =>
    if c = escapeChar ∧ d = '[' then
      match _h : afterSequence? rest with
      | some more => withoutColours more
      | none => c :: withoutColours (d :: rest)
    else c :: withoutColours (d :: rest)
termination_by cs => cs.length
decreasing_by
  · have := length_afterSequence? _h
    simp only [List.length_cons]
    omega
  · simp
  · simp

/-! ## Line ends -/

/-- Characters in which a carriage return before a line feed is left out. -/
def plainLineEnds : List Char → List Char
  | [] => []
  | c :: rest =>
    if c = '\r' && rest.head? == some '\n' then plainLineEnds rest else c :: plainLineEnds rest

/-! ## Halves -/

/-- The characters that are printed for a code point on the error output. -/
def shownPoint (n : Nat) : List Char :=
  if Text.isHalf n then ['\\', 'u'] ++ Nat.toDigits 16 n else Text.encodePoint n

def printable (s : String) : Bool := !Text.hasHalf s

def printed (s : String) : String := String.ofList (plainLineEnds (withoutColours s.toList))

/-- What is printed of a text on the error output. -/
def reportedText (s : String) : String :=
  String.ofList (plainLineEnds
    ((Text.codePoints (String.ofList (withoutColours s.toList))).flatMap shownPoint))

end SchemaClasses.CommandLine
