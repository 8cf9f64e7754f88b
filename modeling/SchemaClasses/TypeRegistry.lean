import SchemaClasses.Text.CodeUnit

/-!
# Built-in types

A type name is either built in or the name of a class made from a schema component.  The registry
holds the names that are built in.
-/

namespace SchemaClasses

/-- The names of the built-in types. -/
structure TypeRegistry where
  names : List String := ["array", "string", "integer", "number"]
  deriving Repr

namespace TypeRegistry

def isBuiltIn (r : TypeRegistry) (name : String) : Bool := r.names.contains name

/-- Whether a type name is that of a class. -/
def isUserDefined (r : TypeRegistry) (name : String) : Bool := !r.isBuiltIn name

/-- The names without repetition, by code point. -/
def sortedNames (r : TypeRegistry) : List String :=
  r.names.eraseDups.mergeSort Text.precedes

@[simp] theorem isBuiltIn_iff {r : TypeRegistry} {name : String} :
    r.isBuiltIn name = true ↔ name ∈ r.names := by
  simp [isBuiltIn]

end TypeRegistry

end SchemaClasses
