import SchemaClasses.Text.Letter
import SchemaClasses.Text.Casing

/-!
# Names made of words

A name is cut into words, each word gets an upper-case first character, and the words are joined
without a separator.  The cut is given by the kind of each character: a word is a longest run of
characters of one kind, and characters without a kind separate words.  Both names of this library
are made this way; they differ only in the kinds.

* The name of a class knows letters and decimal digits: `"user-signed-up"` gives `"UserSignedUp"`
  and `"abc123def"` gives `"Abc123Def"`.
* The name of a channel's class only removes a few separators: `"user/{id}"` gives `"UserId"`.
-/

namespace SchemaClasses.Text

/-- Join the words of a text, each with its first character in upper case.  `previous` is the kind
of the character before the text, so a word that began earlier is continued and not begun anew. -/
def joinWords {κ : Type} [DecidableEq κ] (kindOf : Char → Option κ) :
    Option κ → List Char → List Char
  | _, [] => []
  | previous, c :: rest =>
    match kindOf c with
    | none => joinWords kindOf none rest
    | some k =>
      (if previous = some k then [c] else upperChar c) ++ joinWords kindOf (some k) rest

/-! ## Class names -/

inductive WordKind where
  | letters
  | digits
  deriving DecidableEq, Repr

/-- The kind of word a character belongs to, if it belongs to one. -/
def wordKind (c : Char) : Option WordKind :=
  if isDigit c then some .digits
  else if isLetter c then some .letters
  else none

/-- The words of a text in Pascal case.  Inner capitals are kept, so acronyms survive. -/
def pascalCase (s : String) : String := String.ofList (joinWords wordKind none s.toList)

/-! ## Names of channel classes -/

def channelSeparators : List Char := ['/', '<', '>', '{', '}', '-', ' ']

/-- Every character of a channel name but the separators belongs to a word. -/
def channelWordKind (c : Char) : Option Unit :=
  if channelSeparators.contains c then none else some ()

def channelClassName (s : String) : String :=
  String.ofList (joinWords channelWordKind none s.toList)

end SchemaClasses.Text
