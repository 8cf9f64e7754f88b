import SchemaClasses.Value.Basic

/-!
# What can be shown

An integer has a text only up to a greatest number of digits, and a value only up to a greatest
depth.  An integer beyond that can stand in a document all the same, where it is written in another
base, and so can a value, where aliases build it up.  `limit?` finds the first part of a value, in
the order of its text, that cannot be shown.
-/

namespace SchemaClasses

/-- Why a value cannot be shown. -/
inductive ShowingLimit where
  /-- An integer has too many digits. -/
  | digits
  /-- Collections stand too deep inside each other. -/
  | depth
  deriving DecidableEq, Repr

/-- The wording of a limit. -/
def ShowingLimit.message : ShowingLimit → String
  | digits =>
      "Exceeds the limit (" ++ toString Decimal.mostDigits ++ " digits) for integer string "
        ++ "conversion; use sys.set_int_max_str_digits() to increase the limit"
  | depth => "maximum recursion depth exceeded while getting the repr of an object"

/-- The least number that has too many digits. -/
def leastUnshown : Nat := Decimal.tenPow Decimal.mostDigits

/-- Why a scalar cannot be shown. -/
def Scalar.limit? : Scalar → Option ShowingLimit
  | int n => if leastUnshown ≤ n.natAbs then some .digits else none
  | _ => none

@[simp] theorem Scalar.limit?_text (s : String) : (Scalar.text s).limit? = none := rfl

namespace Value

/-- How deep collections may be inside each other where a value is shown. -/
def mostShownDepth : Nat := 985

mutual

/-- Why a value cannot be shown inside the collections of the given ring numbers; `room` is how much
deeper collections may be. -/
def limitInside (around : List Nat) (room : Nat) : Value → Option ShowingLimit
  | scalar s => s.limit?
  | list items ring =>
    if ring.any around.contains then none
    else if room = 0 then some .depth
    else limitOfItems (ring.toList ++ around) (room - 1) items
  | mapping entries ring =>
    if ring.any around.contains then none
    else if room = 0 then some .depth
    else limitOfEntries (ring.toList ++ around) (room - 1) entries

/-- Why the items of a list cannot be shown. -/
def limitOfItems (around : List Nat) (room : Nat) : List Value → Option ShowingLimit
  | [] => none
  | v :: rest => (limitInside around room v).or (limitOfItems around room rest)

/-- Why the entries of a mapping cannot be shown. -/
def limitOfEntries (around : List Nat) (room : Nat) : List (Scalar × Value) → Option ShowingLimit
  | [] => none
  | (k, v) :: rest =>
    (k.limit?.or (limitInside around room v)).or (limitOfEntries around room rest)

end

/-- Why a value cannot be shown. -/
def limit? (v : Value) : Option ShowingLimit := v.limitInside [] mostShownDepth

@[simp] theorem limit?_scalar (s : Scalar) : (scalar s).limit? = s.limit? := by
  simp [limit?, limitInside]

end Value

end SchemaClasses
