import SchemaClasses.Failure

/-!
# References

A reference is the text of a place in the document.  References between schema components must
name a component directly under `#/components/schemas/`.  References from operations are only
read for the name they end in.
-/

namespace SchemaClasses.Reference

/-- Where schema components stand. -/
def schemaRoot : String := "#/components/schemas/"

/-- Where messages stand. -/
def messageRoot : String := "#/components/messages/"

/-- What follows a root at the start of a text. -/
def below? (root ref : String) : Option String :=
  (root.toList.isPrefixOf? ref.toList).map String.ofList

/-- What follows the last slash of a text. -/
def lastSegment (s : String) : String :=
  String.ofList (s.toList.reverse.takeWhile (· ≠ '/')).reverse

/-- The name a reference ends in: what follows the root, or else the last segment. -/
def nameBelow (root ref : String) : String := (below? root ref).getD (lastSegment ref)

/-- The schema component that a reference names, among those with the given keys. -/
def resolve (keys : List Scalar) (ref : Value) : Except ModelFault String :=
  match ref.text? with
  | none => .error (.externalReference ref)
  | some s =>
    match below? "#" s, below? schemaRoot s with
    | none, _ => .error (.externalReference ref)
    | some _, none => .error (.otherReference s)
    | some _, some key =>
      if keys.any (· == .text key) then .ok key else .error (.danglingReference s)

/-- The component that a plain type name stands for: the one with this key, or else the first one
whose class has this name. -/
def findByName (classNames : List (Scalar × String)) (name : String) : Option Scalar :=
  if classNames.any (·.1 == .text name) then some (.text name)
  else (classNames.find? (·.2 == name)).map (·.1)

end SchemaClasses.Reference
