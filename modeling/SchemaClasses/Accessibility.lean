import SchemaClasses.Value.Basic

/-!
# Accessibility of instance variables
-/

namespace SchemaClasses

/-- Who may see an instance variable. -/
inductive Accessibility where
  | everyone
  | subclasses
  | owner
  deriving DecidableEq, Repr, Inhabited

namespace Accessibility

/-- The keyword of an accessibility, the same in every target language. -/
def keyword : Accessibility → String
  | .everyone => "public"
  | .subclasses => "protected"
  | .owner => "private"

/-- The accessibility that a keyword names. -/
def ofKeyword? (s : String) : Option Accessibility :=
  if s = "public" then some .everyone
  else if s = "protected" then some .subclasses
  else if s = "private" then some .owner
  else none

/-- The accessibility that a value names; a value that is not a text names none. -/
def ofValue? (v : Value) : Option Accessibility := v.text?.bind ofKeyword?

theorem ofKeyword?_keyword (a : Accessibility) : ofKeyword? a.keyword = some a := by
  cases a <;> rfl

theorem ofKeyword?_eq_some {s : String} {a : Accessibility} :
    ofKeyword? s = some a ↔ s = a.keyword := by
  constructor
  · unfold ofKeyword?
    intro h
    split at h
    · cases h; assumption
    · split at h
      · cases h; assumption
      · split at h
        · cases h; assumption
        · cases h
  · rintro rfl
    exact ofKeyword?_keyword a

/-- A value names an accessibility exactly if it is its keyword. -/
theorem ofValue?_eq_some {v : Value} {a : Accessibility} :
    ofValue? v = some a ↔ v = .text a.keyword := by
  simp [ofValue?, Option.bind_eq_some_iff, ofKeyword?_eq_some]

end Accessibility

end SchemaClasses
