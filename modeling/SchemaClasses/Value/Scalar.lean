import SchemaClasses.Decimal.Format
import SchemaClasses.Text.Quoted

/-!
# Scalars

A scalar is a value without parts.  Scalars are what names are made of: the keys of a mapping, the
names of properties and servers, and the package of a class.  In most documents they are texts,
but a document may also write `yes: ...` or `1: ...`, and the name is then a truth value or a
number and stays one.

Two scalars are the same key when they have the same `identity`: the truth values count as the
numbers one and zero, and a fraction that is whole counts as the integer it equals.  Where two names
are compared as values (`equals`), the number that is no number equals nothing.
-/

namespace SchemaClasses

open Decimal (Binary64)

/-- A calendar day. -/
structure Date where
  year : Nat
  month : Nat
  day : Nat
  deriving DecidableEq, Repr

/-- A value without parts. -/
inductive Scalar where
  | null
  | bool (b : Bool)
  | int (n : Int)
  | double (d : Binary64)
  | date (d : Date)
  | text (s : String)
  deriving Repr, Inhabited

namespace Scalar

/-! ## Identity as a key -/

/-- What tells two keys apart. -/
inductive Identity where
  | null
  | number (n : Int)
  | fraction (d : Binary64)
  | date (d : Date)
  | text (s : String)
  deriving DecidableEq, Repr

def identity : Scalar → Identity
  | null => .null
  | bool b => .number (if b then 1 else 0)
  | int n => .number n
  | double d => match d.toInt? with
    | some n => .number n
    | none => .fraction d
  | date d => .date d
  | text s => .text s

/-- Equality of scalars is equality as keys. -/
instance : BEq Scalar := ⟨fun a b => decide (a.identity = b.identity)⟩

theorem beq_iff {a b : Scalar} : (a == b) = true ↔ a.identity = b.identity :=
  decide_eq_true_iff

instance : EquivBEq Scalar where
  rfl := beq_iff.2 rfl
  symm h := beq_iff.2 (beq_iff.1 h).symm
  trans h h' := beq_iff.2 ((beq_iff.1 h).trans (beq_iff.1 h'))

theorem identity_eq_text {a : Scalar} {s : String} : a.identity = .text s ↔ a = text s := by
  cases a with
  | double d => simp only [identity]; split <;> simp
  | bool b => cases b <;> simp [identity]
  | _ => simp [identity]

/-- A text is the same key as itself only. -/
@[simp] theorem beq_text {a : Scalar} {s : String} : (a == text s) = true ↔ a = text s := by
  rw [beq_iff]; exact identity_eq_text

@[simp] theorem text_beq {a : Scalar} {s : String} : (text s == a) = true ↔ a = text s := by
  rw [beq_iff, eq_comm]; exact identity_eq_text

theorem text_beq_text {s t : String} : (text s == text t) = decide (s = t) := by
  rw [Bool.eq_iff_iff, beq_text, decide_eq_true_iff, Scalar.text.injEq]

/-- Equality as values.  It is equality as keys, except that the number that is no number equals
nothing, not even itself. -/
def equals (a b : Scalar) : Bool :=
  match a with
  | double d => a == b && !d.isNan
  | _ => a == b

@[simp] theorem text_equals (s : String) (b : Scalar) : (text s).equals b = (text s == b) := rfl

/-! ## Truth and text -/

/-- Whether a scalar counts as given: null, false, zero and the empty text do not. -/
def truthy : Scalar → Bool
  | null => false
  | bool b => b
  | int n => n != 0
  | double d => !d.isZero
  | date _ => true
  | text s => s != ""

/-- A natural number with at least `width` digits. -/
def paddedText (width n : Nat) : String :=
  let s := Decimal.Format.digitsText n
  Decimal.Format.zeros (width - s.length) ++ s

/-- An integer in decimal. -/
def intText (n : Int) : String :=
  (if n < 0 then "-" else "") ++ Decimal.Format.digitsText n.natAbs

/-- The text of a scalar where it is inserted into other text. -/
def display : Scalar → String
  | null => "None"
  | bool b => if b then "True" else "False"
  | int n => intText n
  | double d => Decimal.documentFormat.render d
  | date d => paddedText 4 d.year ++ "-" ++ paddedText 2 d.month ++ "-" ++ paddedText 2 d.day
  | text s => s

/-- The text of a scalar where a message shows the value itself. -/
def quoted : Scalar → String
  | text s => Text.quoted s
  | date d => "datetime.date(" ++ intText d.year ++ ", " ++ intText d.month ++ ", "
      ++ intText d.day ++ ")"
  | other => other.display

def kindName : Scalar → String
  | null => "NoneType"
  | bool _ => "bool"
  | int _ => "int"
  | double _ => "float"
  | date _ => "date"
  | text _ => "str"

/-- The name of a scalar's kind where it is told what the kind cannot do. -/
def fullKindName : Scalar → String
  | date _ => "datetime.date"
  | other => other.kindName

/-- The text that a scalar is, if it is one. -/
def text? : Scalar → Option String
  | text s => some s
  | _ => none

@[simp] theorem text?_eq_some {a : Scalar} {s : String} : a.text? = some s ↔ a = text s := by
  cases a <;> simp [text?]

@[simp] theorem display_text (s : String) : (text s).display = s := rfl

@[simp] theorem truthy_text (s : String) : (text s).truthy = (s != "") := rfl

end Scalar

end SchemaClasses
