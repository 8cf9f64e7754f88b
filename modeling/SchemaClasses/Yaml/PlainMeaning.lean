import SchemaClasses.Text.Ascii
import SchemaClasses.Text.Split
import SchemaClasses.Unreadable

/-!
# What plain scalars mean

A plain scalar that is written like a truth value, a number, a day or null is one; any other is a
text.  Integers may be binary, octal (with a leading zero), hexadecimal, or in base sixty with
colons; underlines between digits are ignored.  A fraction needs its point, and its exponent needs
a sign.  A scalar may be written like a number or a day and be none, which makes it unreadable.  Two
texts are marks of mappings: one merges other mappings in, the other stands for the value of a
mapping itself.
-/

namespace SchemaClasses.Yaml

open Decimal (Binary64)
open Text.Ascii (isDigit decimalValue valueInBase)

inductive PlainMeaning where
  | scalar (s : Scalar)
  /-- It is written like a number or a day and is none. -/
  | unreadable (u : UnreadableText)
  /-- The key under which a mapping merges others. -/
  | mergeMark
  /-- The key under which a mapping has its own value. -/
  | valueMark

namespace PlainMeaning

/-! ## Truth values and null -/

/-- A word in its three usual spellings: lower case, capitalised, upper case. -/
def spellings (word : String) : List String :=
  let cs := word.toList
  [word, String.ofList (cs.take 1 |>.map Char.toUpper) ++ String.ofList (cs.drop 1),
    String.ofList (cs.map Char.toUpper)]

def nullWords : List String := ["", "~"] ++ spellings "null"

def trueWords : List String := ["yes", "true", "on"].flatMap spellings

def falseWords : List String := ["no", "false", "off"].flatMap spellings

/-- Null or a truth value. -/
def word? (s : String) : Option Scalar :=
  if s ∈ nullWords then some .null
  else if s ∈ trueWords then some (.bool true)
  else if s ∈ falseWords then some (.bool false)
  else none

/-! ## Digits -/

/-- Whether there are characters and all of them satisfy a condition or are underlines. -/
def allOrUnderline (p : Char → Bool) (cs : List Char) : Bool :=
  !cs.isEmpty && cs.all fun c => p c || c = '_'

/-- The characters but the underlines. -/
def withoutUnderlines (cs : List Char) : List Char := cs.filter (· ≠ '_')

/-- Whether this is a digit followed by digits and underlines. -/
def isDecimal (cs : List Char) : Bool :=
  cs.head?.any isDigit && allOrUnderline isDigit cs

def isSixtieth : List Char → Bool
  | [a] => isDigit a
  | [a, b] => '0' ≤ a && a ≤ '5' && isDigit b
  | _ => false

def signed : List Char → Bool × List Char
  | '-' :: rest => (true, rest)
  | '+' :: rest => (false, rest)
  | cs => (false, cs)

/-! ## Integers -/

/-- The number that digits write in base ten. -/
def decimal (digits : List Char) : Except UnreadableText Nat :=
  if Decimal.mostDigits < digits.length then .error .badInteger
  else .ok (decimalValue digits)

/-- The number that digits write in a base that is a power of two; there must be a digit. -/
def inBase (base : Nat) (digits : List Char) : Except UnreadableText Nat :=
  if digits.isEmpty then .error .badInteger else .ok (valueInBase base digits)

/-- An integer without its sign; nothing if it is not written like one. -/
def natural? (cs : List Char) : Option (Except UnreadableText Nat) :=
  match cs with
  | '0' :: 'b' :: digits =>
    if allOrUnderline (fun c => c = '0' || c = '1') digits then
      some (inBase 2 (withoutUnderlines digits))
    else none
  | '0' :: 'x' :: digits =>
    if allOrUnderline (fun c => (Text.Ascii.hexDigit? c).isSome) digits then
      some (inBase 16 (withoutUnderlines digits))
    else none
  | '0' :: [] => some (.ok 0)
  | '0' :: digits =>
    if allOrUnderline (fun c => '0' ≤ c && c ≤ '7') digits then
      some (.ok (valueInBase 8 (withoutUnderlines digits)))
    else none
  | _ =>
    match Text.splitAt ':' cs with
    | [] => none
    | first :: more =>
      if isDecimal first && more.all isSixtieth then
        some ((decimal (withoutUnderlines first)).map fun n =>
          more.foldl (fun n p => 60 * n + decimalValue p) n)
      else none

/-- An integer; nothing if it is not written like one. -/
def int? (cs : List Char) : Option (Except UnreadableText Int) :=
  let (negative, digits) := signed cs
  (natural? digits).map fun n => n.map fun n => if negative then -(n : Int) else n

/-! ## Fractions -/

/-- An exponent with its sign and digits; no exponent at the end of the text. -/
def exponent? : List Char → Option Int
  | [] => some 0
  | e :: sign :: digits =>
    if (e = 'e' || e = 'E') && (sign = '-' || sign = '+') && !digits.isEmpty
        && digits.all isDigit then
      some (if sign = '-' then -(decimalValue digits : Int) else decimalValue digits)
    else none
  | _ => none

/-- The digits before and after a point, and what follows them. -/
def pointed? (cs : List Char) : Option (List Char × List Char × List Char) :=
  match cs.span (· ≠ '.') with
  | (whole, _ :: rest) =>
    let fraction := rest.takeWhile fun c => isDigit c || c = '_'
    some (whole, fraction, rest.drop fraction.length)
  | _ => none

/-- The number that digits around a point write. -/
def decimalFraction (whole fraction : List Char) (exponent : Int) : Binary64 :=
  let whole := withoutUnderlines whole
  let fraction := withoutUnderlines fraction
  Binary64.ofDecimal false (decimalValue (whole ++ fraction)) (exponent - fraction.length)

/-- Add up the parts of a number in base sixty, the last part first.  The power that a part is
multiplied by must be a finite number; it, each product and each sum are rounded. -/
def addSixtieths (power : Nat) (total : Binary64) :
    List (List Char) → Except UnreadableText Binary64
  | [] => .ok total
  | p :: rest =>
    match Binary64.ofNat? power with
    | none => .error .outOfRange
    | some factor =>
      addSixtieths (60 * power)
        (Binary64.add total (Binary64.mul (decimalFraction p [] 0) factor)) rest

def sixtieths (wholeParts : List (List Char)) (fraction : List Char) :
    Except UnreadableText Binary64 :=
  match wholeParts.reverse with
  | [] => .ok (Binary64.zero false)
  | last :: others => addSixtieths 60 (decimalFraction last fraction 0) others

/-- The number that is no number, as this format writes it. -/
def notNumber : Binary64 := Binary64.nan 1

/-- A fraction that is not negative; nothing if it is not written like one. -/
def magnitude? (hasSign : Bool) (cs : List Char) : Option (Except UnreadableText Binary64) :=
  if String.ofList cs ∈ [".inf", ".Inf", ".INF"] then some (.ok (Binary64.infinity false))
  else if !hasSign && String.ofList cs ∈ [".nan", ".NaN", ".NAN"] then some (.ok notNumber)
  else
    match pointed? cs with
    | none => none
    | some (whole, fraction, rest) =>
      match Text.splitAt ':' whole with
      | [] => none
      | [digits] =>
        let isNumber :=
          if digits.isEmpty then !hasSign && isDecimal fraction else isDecimal digits
        if isNumber then
          (exponent? rest).map fun e => .ok (decimalFraction digits fraction e)
        else none
      | first :: more =>
        if isDecimal first && more.all isSixtieth && rest.isEmpty then
          some (sixtieths (first :: more) fraction)
        else none

/-- A fraction; nothing if it is not written like one. -/
def double? (cs : List Char) : Option (Except UnreadableText Binary64) :=
  let (negative, digits) := signed cs
  let hasSign := digits.length < cs.length
  (magnitude? hasSign digits).map fun d => d.map fun d => if negative then d.negate else d

/-! ## Days -/

/-- The number of days of a month, zero if there is no such month. -/
def daysInMonth (year month : Nat) : Nat :=
  if month = 2 then
    if year % 4 = 0 && (year % 100 != 0 || year % 400 = 0) then 29 else 28
  else if month ∈ [4, 6, 9, 11] then 30
  else if 1 ≤ month && month ≤ 12 then 31
  else 0

def isDay (d : Date) : Bool := 1 ≤ d.year && 1 ≤ d.day && d.day ≤ daysInMonth d.year d.month

/-- A day: four digits, two, and two. -/
def day? (cs : List Char) : Option Date :=
  match Text.splitAt '-' cs with
  | [y, m, d] =>
    if y.length = 4 && m.length = 2 && d.length = 2 && (y ++ m ++ d).all isDigit then
      some ⟨decimalValue y, decimalValue m, decimalValue d⟩
    else none
  | _ => none

/-! ## All together -/

/-- The meaning of a scalar that is written like one of a kind. -/
def ofRead {α : Type} (wrap : α → Scalar) : Except UnreadableText α → PlainMeaning
  | .ok a => .scalar (wrap a)
  | .error u => .unreadable u

/-- What a plain scalar means. -/
def ofText (s : String) : PlainMeaning :=
  if s = "<<" then .mergeMark
  else if s = "=" then .valueMark
  else
    match word? s with
    | some v => .scalar v
    | none =>
      match double? s.toList with
      | some d => ofRead .double d
      | none =>
        match int? s.toList with
        | some n => ofRead .int n
        | none =>
          match day? s.toList with
          | some d => if isDay d then .scalar (.date d) else .unreadable (.badDay d)
          | none => .scalar (.text s)

end PlainMeaning

end SchemaClasses.Yaml
