import SchemaClasses.Unreadable
import SchemaClasses.Value.Showing

/-!
# What can go wrong

Every failure of a run is a cause with the values that a message needs; the wording is in the
`message` functions and nowhere else.  The causes are grouped by the thing that is at fault:

* `UnreadableText`: a text in which no value can be read,
* `SettingsError`: the settings of the run,
* `DocumentError`: the sections of the document around the schemas,
* `ModelError`: the schema components, with the class and the field that were looked at,
* `RenderError`: the class model, as seen by a target language,
* `UnsupportedValue`: a value of a kind that no rule is made for, found where it cannot be used,
* `ShowingLimit`: a value that has no text, found where its text is needed.

A message that would have to show such a value cannot be written; then this is what went wrong, in
place of the failure itself (`Failure.settled`).
-/

namespace SchemaClasses

/-! ## Settings -/

/-- Why settings are refused. -/
inductive SettingsError where
  | unknownAccessibility (got : Value)
  | emptyModelsNamespace
  | unknownOutputMode (got : String)

/-- The wording of a settings error. -/
def SettingsError.message : SettingsError → String
  | unknownAccessibility got =>
      "default_accessibility must be one of public, protected, private, got " ++ got.quoted
  | emptyModelsNamespace => "models_namespace must not be empty"
  | unknownOutputMode got => "Unknown output mode: " ++ Text.quoted got

/-! ## Document -/

/-- Why a part of the document cannot be read. -/
inductive DocumentError where
  | notMapping (kind : String)
  | infoNotMapping
  | sectionNotMapping (path : String) (kind : String)
  | schemaNotMapping (name : Scalar)
  | serverNotMapping (name : Scalar)
  | channelNotMapping (name : Scalar)
  | unknownServer (name : Scalar) (known : List String)
  | undeclaredSchemes (server : Scalar) (missing : List String)

/-- The wording of a document error. -/
def DocumentError.message : DocumentError → String
  | notMapping kind => "AsyncAPI document must be a mapping, got " ++ kind
  | infoNotMapping => "'info' must be a mapping"
  | sectionNotMapping path kind => "'" ++ path ++ "' must be a mapping, got " ++ kind
  | schemaNotMapping name => "Schema component '" ++ name.display ++ "' must be a mapping"
  | serverNotMapping name => "Server '" ++ name.display ++ "' must be a mapping"
  | channelNotMapping name => "Channel '" ++ name.display ++ "' must be a mapping"
  | unknownServer name known =>
      let names := ", ".intercalate known
      "Unknown server '" ++ name.display ++ "' (known servers: "
        ++ (if names = "" then "none" else names) ++ ")"
  | undeclaredSchemes server missing =>
      "Server '" ++ server.display ++ "' requires undeclared security schemes: "
        ++ ", ".intercalate missing

def DocumentError.shown : DocumentError → List Value
  | schemaNotMapping name => [.scalar name]
  | serverNotMapping name => [.scalar name]
  | channelNotMapping name => [.scalar name]
  | undeclaredSchemes server _ => [.scalar server]
  | _ => []

/-! ## Class model -/

/-- What is wrong with a schema component or with the components together. -/
inductive ModelFault where
  /-- The key of the component has no letter and no digit. -/
  | noClassName (key : Scalar)
  | partsNotList
  | severalBases (count : Nat)
  | partNotMapping
  | notObject (type : Value)
  | propertiesNotMapping
  | propertyNotMapping
  | unnamedDiscriminator
  | undeclaredDiscriminator (name : Scalar)
  | sharedValue (first second value : String)
  | untypedProperty
  | unknownAccessibility (got : Value)
  | externalReference (ref : Value)
  | otherReference (ref : String)
  | danglingReference (ref : String)
  | severalVariants (combinator : String)
  | typeNotName (got : Value)
  | unknownType (name : String)
  | cycle (walk : List String)
  | duplicate (first second : String) (package : Scalar)
  | missingDiscriminator (base : String)
  | ambiguousDiscriminator (names : List String)

inductive ModelFault.Family where
  | malformed
  | unresolvedType
  | cyclicInheritance
  | duplicateClass
  | missingDiscriminator
  | ambiguousDiscriminator
  deriving DecidableEq, Repr

namespace ModelFault

def family : ModelFault → Family
  | externalReference _ | otherReference _ | danglingReference _ => .unresolvedType
  | severalVariants _ | typeNotName _ | unknownType _ => .unresolvedType
  | cycle _ => .cyclicInheritance
  | duplicate .. => .duplicateClass
  | missingDiscriminator _ => .missingDiscriminator
  | ambiguousDiscriminator _ => .ambiguousDiscriminator
  | _ => .malformed

/-- The wording of a fault, without the place it was found in. -/
def message : ModelFault → String
  | noClassName key =>
      "schema component key " ++ key.quoted ++ " does not produce a class name"
  | partsNotList => "'allOf' must be a non-empty list"
  | severalBases count =>
      "'allOf' references " ++ toString count
        ++ " schemas, only single inheritance is supported"
  | partNotMapping => "'allOf' entries must be mappings"
  | notObject type => "component of type " ++ type.quoted ++ " cannot become a class"
  | propertiesNotMapping => "'properties' must be a mapping"
  | propertyNotMapping => "property schema must be a mapping"
  | unnamedDiscriminator => "'discriminator' must name a property"
  | undeclaredDiscriminator name =>
      "discriminator " ++ name.quoted ++ " is not a declared property"
  | sharedValue first second value =>
      "subclasses " ++ first ++ " and " ++ second ++ " share the discriminator value "
        ++ Text.quoted value
  | untypedProperty => "property declares neither 'type' nor '$ref'"
  | unknownAccessibility got => "unknown accessibility " ++ got.quoted
  | externalReference ref => "external reference " ++ ref.quoted ++ " is not supported"
  | otherReference ref =>
      "reference " ++ Text.quoted ref ++ " does not point at a schema component"
  | danglingReference ref =>
      "reference " ++ Text.quoted ref ++ " does not match any schema component"
  | severalVariants combinator =>
      "'" ++ combinator ++ "' with several variants is not supported"
  | typeNotName got => "type " ++ got.quoted ++ " is not a single type name"
  | unknownType name =>
      "type " ++ Text.quoted name ++ " is neither built-in nor a schema component"
  | cycle walk => "cyclic inheritance: " ++ " -> ".intercalate walk
  | duplicate first second package =>
      "components " ++ Text.quoted first ++ " and " ++ Text.quoted second
        ++ " both generate this class in package " ++ package.display
  | missingDiscriminator base =>
      "superclass " ++ base ++ " declares no discriminator instance variable"
  | ambiguousDiscriminator names =>
      "has " ++ toString names.length ++ " discriminator instance variables ("
        ++ ", ".intercalate names ++ ") counting inherited ones, at most one is allowed"

def shown : ModelFault → List Value
  | noClassName key => [.scalar key]
  | notObject type => [type]
  | undeclaredDiscriminator name => [.scalar name]
  | unknownAccessibility got => [got]
  | externalReference ref => [ref]
  | typeNotName got => [got]
  | duplicate _ _ package => [.scalar package]
  | _ => []

end ModelFault

/-- A fault with the class and the field it was found in. -/
structure ModelError where
  fault : ModelFault
  className : Option Scalar := none
  fieldName : Option Scalar := none

namespace ModelError

/-- The place that a message starts with: `Class.field: `, `Class: `, or nothing. -/
def location (e : ModelError) : String :=
  match e.className, e.fieldName with
  | some c, some f =>
    if c.truthy then
      if f.truthy then c.display ++ "." ++ f.display ++ ": " else c.display ++ ": "
    else ""
  | some c, none => if c.truthy then c.display ++ ": " else ""
  | none, _ => ""

/-- The wording of a model error. -/
def message (e : ModelError) : String := e.location ++ e.fault.message

def shown (e : ModelError) : List Value :=
  e.fault.shown ++ (e.className.toList ++ e.fieldName.toList).map Value.scalar

end ModelError

/-! ## Rendering -/

/-- Why a class model cannot be written in a target language. -/
inductive RenderError where
  | noDispatchDiscriminator (className : String)
  | unmappedType (language type : String) (variableName : Scalar)
  | duplicatePath (first second path : String)
  | unsupportedLanguage (name : String) (supported : List String)
  /-- A writer's own reason to stop the run. -/
  | refused (reason : String)

/-- The wording of a render error. -/
def RenderError.message : RenderError → String
  | noDispatchDiscriminator className =>
      className ++ " has subclasses but no discriminator to select them by"
  | unmappedType language type variableName =>
      language ++ " renderer has no mapping for built-in type " ++ Text.quoted type
        ++ " (variable " ++ variableName.quoted ++ ")"
  | duplicatePath first second path =>
      "Classes " ++ first ++ " and " ++ second ++ " both render to " ++ path
  | unsupportedLanguage name supported =>
      "Language not supported: " ++ name ++ " (supported: " ++ ", ".intercalate supported ++ ")"
  | refused reason => reason

def RenderError.shown : RenderError → List Value
  | unmappedType _ _ variableName => [.scalar variableName]
  | _ => []

/-! ## Values of other kinds -/

/-- A value of a kind that no rule is made for. -/
inductive UnsupportedValue where
  /-- A name that has no first character, because it is not a text. -/
  | nameWithoutCharacters (kind : String)
  /-- A package whose parts cannot be separated, because it is not a text. -/
  | packageWithoutParts (kind : String)
  /-- A package that is a day, which has parts of its own. -/
  | packageOfDay
  /-- A schema that wraps itself. -/
  | endlessSchema
  /-- A value that cannot stand where it was found. -/
  | misplaced (kind : String)

/-- The wording for an unsupported value. -/
def UnsupportedValue.message : UnsupportedValue → String
  | nameWithoutCharacters kind => "'" ++ kind ++ "' object is not subscriptable"
  | packageWithoutParts kind => "'" ++ kind ++ "' object has no attribute 'replace'"
  | packageOfDay => "'str' object cannot be interpreted as an integer"
  | endlessSchema => "a schema cannot wrap itself"
  | misplaced kind => "a value of kind '" ++ kind ++ "' cannot stand here"

/-! ## All of them -/

/-- Why a run stops. -/
inductive Failure where
  | unreadable (u : UnreadableText)
  | settings (e : SettingsError)
  | document (e : DocumentError)
  | model (e : ModelError)
  | render (e : RenderError)
  | unsupported (u : UnsupportedValue)
  | unshown (l : ShowingLimit)

namespace Failure

/-- The wording of a failure. -/
def message : Failure → String
  | unreadable u => u.message
  | settings e => e.message
  | document e => e.message
  | model e => e.message
  | render e => e.message
  | unsupported u => u.message
  | unshown l => l.message

/-- A value stands where its kind cannot be used. -/
def misplaced (v : Value) : Failure := .unsupported (.misplaced v.kindName)

/-- The values of the document that the message of a failure shows, in their order. -/
def shown : Failure → List Value
  | document e => e.shown
  | model e => e.shown
  | render e => e.shown
  | _ => []

/-- The failure itself, or that its message cannot be written. -/
def settled (f : Failure) : Failure :=
  match f.shown.findSome? Value.limit? with
  | some l => .unshown l
  | none => f

/-- Stop because of a failure. -/
def raise {α : Type} (f : Failure) : Except Failure α := .error f.settled

end Failure

end SchemaClasses
