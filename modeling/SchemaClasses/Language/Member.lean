import SchemaClasses.ClassModel
import SchemaClasses.Language.Basic
import SchemaClasses.OrderedSet
import SchemaClasses.Settings
import SchemaClasses.Text.Casing

/-!
# What all target languages ask of a class

The types a class refers to, the name of a type in the language, and the discriminator that its
subclasses are selected by.  Discriminator variables are never written, so they play no part here.
-/

namespace SchemaClasses

namespace Scalar

/-- The name with its first character in upper case; it must be a text. -/
def upperFirst? : Scalar → Except Failure String
  | text s => .ok (Text.upperFirst s)
  | other => .error (.unsupported (.nameWithoutCharacters other.fullKindName))

/-- The name with its first character in lower case; it must be a text. -/
def lowerFirst? : Scalar → Except Failure String
  | text s => .ok (Text.lowerFirst s)
  | other => .error (.unsupported (.nameWithoutCharacters other.fullKindName))

end Scalar

namespace ClassDef

/-- The class types that a class refers to: its superclass, then those of its variables, each once.
A class does not refer to itself. -/
def usedTypes (c : ClassDef) : OrderedSet TypeRef :=
  let ofVariables := (c.ownVariables.map (·.type)).filter fun t =>
    t.isUserDefined && !(t == c.type)
  OrderedSet.ofList ((c.superClass.map ClassDef.type).toList ++ ofVariables)

/-- The variables that only the class itself may see. -/
def hiddenVariables (c : ClassDef) : List InstanceVariable :=
  c.ownVariables.filter fun v => v.accessibility == .owner

/-- The discriminator that the subclasses are selected by; a class without subclasses needs none. -/
def dispatchDiscriminator (c : ClassDef) : Except Failure (Option Scalar) :=
  if c.subclasses.isEmpty then .ok none
  else
    match c.discriminatorName with
    | some name => .ok (some name)
    | none => .error (.render (.noDispatchDiscriminator c.name))

end ClassDef

namespace Language

def typeNamespace (language : Language) (t : TypeRef) : Except Failure String :=
  language.packageNamespace (.scalar t.package)

/-- The name of a type with its namespace. -/
def fullName (language : Language) (t : TypeRef) : Except Failure String :=
  (language.typeNamespace t).map fun space => space ++ language.separator.toString ++ t.name

/-- The type of a variable in the language: a class keeps its name, a built-in type is looked up. -/
def variableType (language : Language) (v : InstanceVariable) : Except Failure String :=
  if v.type.isBuiltIn then
    match language.typeMap.lookup v.type.name with
    | some name => .ok name
    | none => Failure.raise (.render (.unmappedType language.code v.type.name v.name))
  else .ok v.type.name

end Language

namespace Settings

/-- The comment that names the command a file was made by; empty if the settings ask for none. -/
def generationComment (settings : Settings) : String :=
  if settings.addGenerationComment.truthy then
    "// Generated by " ++ settings.generationCommand.display ++ ". Do not edit by hand."
  else ""

end Settings

end SchemaClasses
