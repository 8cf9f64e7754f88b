/-!
# Double-precision numbers as bit patterns

A fraction in a document is a double-precision binary number.  This library computes with such
numbers only to read and to write them, so a number is its 64-bit pattern: equality of patterns is
decidable, and everything below is exact arithmetic on natural numbers.

`Binary64.ofRatio` rounds a fraction to the nearest number, a tie going to the even one, and
`Binary64.ofDecimal` does so for a decimal with an exponent of any size.
-/

namespace SchemaClasses.Decimal

/-- A power of two. -/
def twoPow (k : Nat) : Nat := Nat.pow 2 k

/-- A power of ten. -/
def tenPow (k : Nat) : Nat := Nat.pow 10 k

/-- A double-precision number, as its bit pattern. -/
structure Binary64 where
  bits : UInt64
  deriving DecidableEq, Repr

/-- What a bit pattern stands for; a finite number is `mantissa · 2 ^ exponent` with a sign. -/
inductive Binary64.Class where
  | nan
  | infinite (negative : Bool)
  | finite (negative : Bool) (mantissa : Nat) (exponent : Int)
  deriving DecidableEq, Repr

namespace Binary64

/-- The value of a bit pattern. -/
def classify (d : Binary64) : Class :=
  let n := d.bits.toNat
  let negative := n / twoPow 63 == 1
  let exponent : Nat := n / twoPow 52 % twoPow 11
  let fraction : Nat := n % twoPow 52
  if exponent = 2047 then
    if fraction = 0 then .infinite negative else .nan
  else if exponent = 0 then .finite negative fraction (-1074)
  else .finite negative (twoPow 52 + fraction) ((exponent : Int) - 1075)

/-- The pattern with the given sign and the given lower 63 bits. -/
def ofMagnitude (negative : Bool) (n : Nat) : Binary64 :=
  ⟨(n + if negative then twoPow 63 else 0).toUInt64⟩

def infinity (negative : Bool) : Binary64 := ofMagnitude negative (2047 * twoPow 52)

def zero (negative : Bool) : Binary64 := ofMagnitude negative 0

/-- A pattern of the number that is no number.  There are many, which are told apart by a number of
their own. -/
def nan (n : Nat) : Binary64 := ofMagnitude false (2047 * twoPow 52 + twoPow 51 + n)

/-- The quotient rounded to the nearest integer, a tie going to the even one. -/
def roundDiv (num den : Nat) : Nat :=
  let q := num / den
  let r := num % den
  if 2 * r < den then q
  else if den < 2 * r then q + 1
  else q + q % 2

/-- The greatest `k` with `2 ^ k ≤ num / den`, for positive arguments. -/
def floorLog2 (num den : Nat) : Int :=
  let k : Int := (num.log2 : Int) - den.log2
  let reached := if 0 ≤ k then den * twoPow k.toNat ≤ num else den ≤ num * twoPow (-k).toNat
  if reached then k else k - 1

/-- The number nearest to `num / den`.  A mantissa that rounds up to the next power of two carries
into the exponent field by itself, because the fields are adjacent. -/
def ofRatio (negative : Bool) (num den : Nat) : Binary64 :=
  if num = 0 || den = 0 then zero negative
  else
    let exponent := max (-1074) (floorLog2 num den - 52)
    let mantissa :=
      if 0 ≤ exponent then roundDiv num (den * twoPow exponent.toNat)
      else roundDiv (num * twoPow (-exponent).toNat) den
    let magnitude := (exponent + 1074).toNat * twoPow 52 + mantissa
    if 2047 * twoPow 52 ≤ magnitude then infinity negative else ofMagnitude negative magnitude

/-- The number of decimal digits. -/
def digitCount (n : Nat) : Nat := (Nat.toDigits 10 n).length

/-- The number nearest to `mantissa · 10 ^ exponent`.  Exponents far outside the range are decided
by the position of the leading digit, without computing the power. -/
def ofDecimal (negative : Bool) (mantissa : Nat) (exponent : Int) : Binary64 :=
  if mantissa = 0 then zero negative
  else
    let top := exponent + digitCount mantissa
    if 310 < top then infinity negative
    else if top < -330 then zero negative
    else if 0 ≤ exponent then ofRatio negative (mantissa * tenPow exponent.toNat) 1
    else ofRatio negative mantissa (tenPow (-exponent).toNat)

/-- Whether the number counts as a plain zero, of either sign. -/
def isZero (d : Binary64) : Bool := d.bits.toNat % twoPow 63 == 0

/-- The same number with the other sign. -/
def negate (d : Binary64) : Binary64 := ⟨d.bits ^^^ 0x8000000000000000⟩

/-- The integer that a number is, if it is one. -/
def toInt? (d : Binary64) : Option Int :=
  match d.classify with
  | .finite negative mantissa exponent =>
    let signed (n : Nat) : Int := if negative then -(n : Int) else n
    if 0 ≤ exponent then some (signed (mantissa * twoPow exponent.toNat))
    else
      let den := twoPow (-exponent).toNat
      if mantissa % den = 0 then some (signed (mantissa / den)) else none
  | _ => none

/-- A finite number as a quotient of natural numbers, without its sign. -/
def ratio? (d : Binary64) : Option (Nat × Nat) :=
  match d.classify with
  | .finite _ mantissa exponent =>
    if 0 ≤ exponent then some (mantissa * twoPow exponent.toNat, 1)
    else some (mantissa, twoPow (-exponent).toNat)
  | _ => none

/-- The product of two numbers that are not negative. -/
def mul (a b : Binary64) : Binary64 :=
  match ratio? a, ratio? b with
  | some (n, d), some (n', d') => ofRatio false (n * n') (d * d')
  | _, _ => infinity false

/-- The sum of two numbers that are not negative. -/
def add (a b : Binary64) : Binary64 :=
  match ratio? a, ratio? b with
  | some (n, d), some (n', d') => ofRatio false (n * d' + n' * d) (d * d')
  | _, _ => infinity false

/-- The number nearest to a natural number, if there is one that is not infinite. -/
def ofNat? (n : Nat) : Option Binary64 :=
  let d := ofRatio false n 1
  if d = infinity false then none else some d

/-- Whether a pattern is no number at all. -/
def isNan (d : Binary64) : Bool := d.classify == .nan

end Binary64

end SchemaClasses.Decimal
