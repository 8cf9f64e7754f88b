import SchemaClasses.Decimal.Binary64

/-!
# The fewest digits that read back

A number is written with as few decimal digits as still identify it.  For each count of digits
the two neighbours of the number on that decimal grid are tried; the first grid on which one of
them reads back as the number wins, and of two that do, the nearer (on a tie, the even one).
-/

namespace SchemaClasses.Decimal

structure Numeral where
  digits : Nat
  exponent : Int
  deriving DecidableEq, Repr

namespace Shortest

/-- The least `j ≤ fuel` such that `num · 10 ^ j` reaches `den`. -/
def stepsToOne (num den : Nat) : Nat → Nat → Nat
  | 0, j => j
  | fuel + 1, j => if den ≤ num * tenPow j then j else stepsToOne num den fuel (j + 1)

/-- The `k` with `10 ^ (k - 1) ≤ num / den < 10 ^ k`. -/
def decimalPoint (num den : Nat) : Int :=
  if den ≤ num then Binary64.digitCount (num / den)
  else 1 - (stepsToOne num den 400 1 : Int)

/-- The two neighbours of `num / den` on the grid of multiples of `10 ^ unit`, the nearer first. -/
def neighbours (num den : Nat) (unit : Int) : List Nat :=
  let num' := if 0 ≤ unit then num else num * tenPow (-unit).toNat
  let den' := if 0 ≤ unit then den * tenPow unit.toNat else den
  let below := num' / den'
  let nearest := Binary64.roundDiv num' den'
  if nearest = below then [below, below + 1] else [below + 1, below]

def onGrid (d : Binary64) (num den : Nat) (unit : Int) : Option Numeral :=
  ((neighbours num den unit).find? fun digits =>
    decide (Binary64.ofDecimal false digits unit = d)).map fun digits => ⟨digits, unit⟩

/-- The first grid, from `count` digits on, with a neighbour that reads back. -/
def search (d : Binary64) (num den : Nat) (point : Int) : Nat → Nat → Option Numeral
  | 0, _ => none
  | fuel + 1, count =>
    match onGrid d num den (point - count) with
    | some decimal => some decimal
    | none => search d num den point fuel (count + 1)

/-- Trailing zeros move from the digits into the exponent. -/
def trim : Nat → Numeral → Numeral
  | 0, x => x
  | fuel + 1, x =>
    if x.digits ≠ 0 && x.digits % 10 = 0 then trim fuel ⟨x.digits / 10, x.exponent + 1⟩ else x

/-- The shortest decimal of a positive number `num / den` whose pattern is `d`; seventeen digits
always suffice. -/
def ofRatio (d : Binary64) (num den : Nat) : Numeral :=
  let point := decimalPoint num den
  trim 20 ((search d num den point 17 1).getD ⟨num / den, 0⟩)

end Shortest

def Binary64.shortest? (d : Binary64) : Option (Bool × Numeral) :=
  match d.classify with
  | .finite negative mantissa exponent =>
    if mantissa = 0 then some (negative, ⟨0, 0⟩)
    else
      let magnitude := if negative then d.negate else d
      some (negative,
        if 0 ≤ exponent then Shortest.ofRatio magnitude (mantissa * twoPow exponent.toNat) 1
        else Shortest.ofRatio magnitude mantissa (twoPow (-exponent).toNat))
  | _ => none

end SchemaClasses.Decimal
