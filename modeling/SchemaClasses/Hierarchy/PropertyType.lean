import SchemaClasses.Hierarchy.Lineage
import SchemaClasses.TypeRegistry

/-!
# The type of a property

A property gets its type from a reference, from a combinator that wraps a single schema (used to
add a description to a reference), or from a type name.  The combinators are tried in a fixed
order and the first one that is given decides, whatever else the schema holds.  A schema of a
document that contains itself may wrap itself, and then has no type.
-/

namespace SchemaClasses

/-- What the type of a property depends on besides its own schema. -/
structure Scope where
  registry : TypeRegistry
  components : Lineage.Components
  /-- The class name of every component, in document order. -/
  classNames : List (Scalar × String)
  defaultAccessibility : Accessibility

namespace Scope

def combinators : List String := ["allOf", "oneOf", "anyOf"]

/-- The first combinator that is given, with its value. -/
def firstCombinator (schema : Mapping) : List String → Option (String × Value)
  | [] => none
  | name :: rest =>
    match Mapping.field? schema name with
    | some v => if v.isNull then firstCombinator schema rest else some (name, v)
    | none => firstCombinator schema rest

/-- The value of a combinator stands in the schema, so it is smaller. -/
theorem sizeOf_firstCombinator_lt {schema : Mapping} {names : List String} {name : String}
    {v : Value} (h : firstCombinator schema names = some (name, v)) :
    sizeOf v < sizeOf schema := by
  induction names with
  | nil => simp [firstCombinator] at h
  | cons n rest ih =>
    unfold firstCombinator at h
    split at h
    · rename_i w hw
      split at h
      · exact ih h
      · cases h
        exact Mapping.sizeOf_get?_lt hw
    · exact ih h

/-- A single schema that a schema wraps is smaller. -/
theorem sizeOf_wrapped_lt {schema inner : Mapping} {names : List String} {name : String}
    {ring ring' : Option Nat}
    (h : firstCombinator schema names = some (name, .list [.mapping inner ring] ring')) :
    sizeOf inner < sizeOf schema := by
  have := sizeOf_firstCombinator_lt h
  simp only [Value.list.sizeOf_spec, List.cons.sizeOf_spec, Value.mapping.sizeOf_spec] at this
  omega

/-- Whether the single schemas that a schema wraps, one inside the other, come back to one of those
met before, so that they never end. -/
def wrapsEndlessly (met : List Nat) (schema : Mapping) : Bool :=
  match Mapping.field? schema "$ref" with
  | some _ => false
  | none =>
    match given : firstCombinator schema combinators with
    | some (_, .list [.mapping inner ring] _) =>
      have := sizeOf_wrapped_lt given
      ring.any met.contains || wrapsEndlessly (ring.toList ++ met) inner
    | _ => false
termination_by sizeOf schema

/-- The type that a component key stands for. -/
def typeOfKey (scope : Scope) (key : String) : Option TypeRef :=
  (Lineage.find? scope.components key).map Component.type

/-- The type that a type name stands for: built in, a component, or unknown. -/
def typeOfName (scope : Scope) (name : String) : Except ModelFault TypeRef :=
  if scope.registry.isBuiltIn name then .ok { name := name, isBuiltIn := true }
  else
    match (Reference.findByName scope.classNames name).bind fun key =>
        scope.typeOfKey key.display with
    | some type => .ok type
    | none => .error (.unknownType name)

/-- The type that a reference stands for. -/
def typeOfReference (scope : Scope) (ref : Value) : Except ModelFault TypeRef :=
  match Reference.resolve (scope.classNames.map (·.1)) ref with
  | .error fault => .error fault
  | .ok key =>
    match scope.typeOfKey key with
    | some type => .ok type
    | none => .error (.danglingReference key)

def typeOf (scope : Scope) (schema : Mapping) : Except ModelFault TypeRef :=
  match Mapping.field? schema "$ref" with
  | some ref => scope.typeOfReference ref
  | none =>
    match given : firstCombinator schema combinators with
    | some (_, .list [.mapping inner _] _) =>
      have := sizeOf_wrapped_lt given
      scope.typeOf inner
    | some (name, _) => .error (.severalVariants name)
    | none =>
      match Mapping.field? schema "type" with
      | none => .error .untypedProperty
      | some v =>
        match v.text? with
        | some name => scope.typeOfName name
        | none => .error (.typeNotName v)
termination_by sizeOf schema

/-- The accessibility of a property: its own, or else the default. -/
def accessibilityOf (scope : Scope) (schema : Mapping) : Except ModelFault Accessibility :=
  match Mapping.field? schema "x-accessibility" with
  | none => .ok scope.defaultAccessibility
  | some v =>
    match Accessibility.ofValue? v with
    | some a => .ok a
    | none => .error (.unknownAccessibility v)

end Scope

end SchemaClasses
