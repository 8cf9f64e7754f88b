import SchemaClasses.Failure
import SchemaClasses.Traverse

/-!
# Names as texts

A message that lists names can only list texts.
-/

namespace SchemaClasses

/-- The texts that names are; the failure is the first name that is no text. -/
def textNames : List Scalar → Except Failure (List String) :=
  traverse fun
    | .text s => .ok s
    | s => .error (.misplaced (.scalar s))

/-- Names that are texts are listed as they are. -/
theorem textNames_map_text (names : List String) :
    textNames (names.map Scalar.text) = .ok names := by
  induction names with
  | nil => rfl
  | cons s rest ih =>
    rw [textNames] at ih ⊢
    rw [List.map_cons, traverse, ih]

end SchemaClasses
