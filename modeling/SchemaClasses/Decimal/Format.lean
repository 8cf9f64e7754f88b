import SchemaClasses.Decimal.Shortest

/-!
# The text of a number

The digits of a number come from `Shortest`; a `Format` says how they are laid out.
-/

namespace SchemaClasses.Decimal

/-- The most digits that an integer may have where it is read or shown in base ten. -/
def mostDigits : Nat := 4300

/-- How the digits of a number are laid out. -/
structure Format where
  /-- The least exponent of the leading digit that is written without an exponent. -/
  positionalFrom : Int
  /-- The least exponent of the leading digit that is written with an exponent again. -/
  positionalBelow : Int
  /-- The least number of digits of a written exponent. -/
  exponentDigits : Nat
  infinityText : String
  nanText : String

/-- A whole number keeps `.0`, exponents have a sign and two digits, and positional notation
reaches from `0.0001` to below ten to the sixteenth. -/
def documentFormat : Format := ⟨-4, 16, 2, "inf", "nan"⟩

namespace Format

def digitsText (n : Nat) : String := String.ofList (Nat.toDigits 10 n)

def zeros (n : Nat) : String := String.ofList (List.replicate n '0')

/-- Positional layout of the digits `ds` whose leading digit has the exponent `top`. -/
def positional (ds : List Char) (top : Int) : String :=
  if top < 0 then "0." ++ zeros (-top - 1).toNat ++ String.ofList ds
  else
    let whole := top.toNat + 1
    if ds.length ≤ whole then String.ofList ds ++ zeros (whole - ds.length) ++ ".0"
    else String.ofList (ds.take whole) ++ "." ++ String.ofList (ds.drop whole)

/-- Layout with an exponent: the first digit, the others after a point, the exponent. -/
def scientific (f : Format) (ds : List Char) (top : Int) : String :=
  let fraction := if ds.length ≤ 1 then "" else "." ++ String.ofList (ds.drop 1)
  let size := digitsText top.natAbs
  String.ofList (ds.take 1) ++ fraction ++ "e" ++ (if top < 0 then "-" else "+")
    ++ zeros (f.exponentDigits - size.length) ++ size

/-- The text of a number. -/
def render (f : Format) (d : Binary64) : String :=
  match d.classify with
  | .nan => f.nanText
  | .infinite negative => (if negative then "-" else "") ++ f.infinityText
  | .finite .. =>
    match d.shortest? with
    | none => f.nanText
    | some (negative, x) =>
      let ds := Nat.toDigits 10 x.digits
      let top := x.exponent + ds.length - 1
      (if negative then "-" else "") ++
        if f.positionalFrom ≤ top && top < f.positionalBelow then positional ds top
        else f.scientific ds top

end Format

end SchemaClasses.Decimal
