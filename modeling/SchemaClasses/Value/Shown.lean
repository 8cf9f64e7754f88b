import SchemaClasses.Failure

/-!
# The texts of values

Where the text of a value is needed, a value that has none stops the run.
-/

namespace SchemaClasses

/-- The text of a scalar where it is inserted into other text. -/
def Scalar.shown (s : Scalar) : Except Failure String :=
  match s.limit? with
  | some l => .error (.unshown l)
  | none => .ok s.display

/-- The text of a value where it is inserted into other text. -/
def Value.shown (v : Value) : Except Failure String :=
  match v.limit? with
  | some l => .error (.unshown l)
  | none => .ok v.display

/-- The text of the value under a text key; an absent key gives the empty text. -/
def Mapping.fieldText (m : Mapping) (name : String) : Except Failure String :=
  match Mapping.field? m name with
  | some v => v.shown
  | none => .ok ""

@[simp] theorem Scalar.shown_text (s : String) : (Scalar.text s).shown = .ok s := rfl

end SchemaClasses
