import SchemaClasses.Value.Scalar

/-!
# Texts in which no value can be read

A text may break the rules of its format, or it may keep them and still write something that is no
value: a day that is in no calendar, a number without digits, a character that does not exist.  And
there are limits to what is read.
-/

namespace SchemaClasses

/-- Why a text is not read. -/
inductive UnreadableText where
  | notJson
  | notYaml
  /-- A day that is in no calendar. -/
  | badDay (d : Date)
  /-- An integer that has no digits, or more digits than are read. -/
  | badInteger
  /-- An escape that gives a code point after the last one. -/
  | badCodePoint (n : Nat)
  /-- Values stand too deep inside each other. -/
  | tooDeep
  /-- A number in the course of reading does not fit the kind of number it has to be. -/
  | outOfRange
  deriving DecidableEq, Repr

/-- The wording for a text that is not read. -/
def UnreadableText.message : UnreadableText → String
  | notJson => "not a JSON text"
  | notYaml => "not a YAML text"
  | badDay d =>
    if d.year = 0 then "year 0 is out of range"
    else if d.month = 0 || 12 < d.month then "month must be in 1..12"
    else "day is out of range for month"
  | badInteger => "not an integer that can be read"
  | badCodePoint n => "no character has the number " ++ toString n
  | tooDeep => "values stand too deep inside each other"
  | outOfRange => "number out of range"

end SchemaClasses
