import SchemaClasses.Document.Basic
import SchemaClasses.Hierarchy.PropertyType
import SchemaClasses.Settings

/-!
# From schema components to classes

`ClassModel.ofDocument` makes one class per schema component, in document order.  The checks run
in passes over all components, so the failure reported is the first one of the earliest pass:
every component is described, then packages, cycles and discriminators are checked, and only then
are classes built, each after its superclass.
-/

namespace SchemaClasses

namespace Scope

/-! ## Parts of a class -/

def inField {α : Type} (className : String) (field : Scalar) :
    Except ModelFault α → Except Failure α
  | .ok a => .ok a
  | .error fault => Component.failure fault (.text className) (some field)

def variableOf (scope : Scope) (className : String) (discriminator : Option Scalar)
    (property : Scalar × Mapping) : Except Failure InstanceVariable := do
  let (name, schema) := property
  if wrapsEndlessly [] schema then throw (.unsupported .endlessSchema)
  let type ← inField className name (scope.typeOf schema)
  let accessibility ← inField className name (scope.accessibilityOf schema)
  return {
    name := name
    type := type
    accessibility := accessibility
    isDiscriminator := name.equals (discriminator.getD .null) }

/-- The value of the discriminator that selects a subclass: the constant of its discriminator
property, the only value of its enumeration, or else the name of its class. -/
def selectingValue (child : Component Scalar) (discriminator : Option Scalar) :
    Except Failure String :=
  let schema := (Entries.get? child.properties (discriminator.getD .null)).getD []
  match Mapping.field? schema "const" with
  | some v => v.shown
  | none =>
    match Mapping.field? schema "enum" with
    | some (.list [v] _) => v.shown
    | _ => .ok child.className

/-- Link subclasses in document order; no two may be selected by the same value. -/
def linkSubclasses (className : String) (discriminator : Option Scalar) :
    List SubclassRef → List (Component Scalar) → Except Failure (List SubclassRef)
  | linked, [] => .ok linked
  | linked, child :: rest => do
    let value ← selectingValue child discriminator
    match linked.find? (·.value == value) with
    | some first =>
      Component.failure (.sharedValue first.type.name child.className value) (.text className)
        discriminator
    | none => linkSubclasses className discriminator (linked ++ [⟨value, child.type⟩]) rest

def subclassesOf (scope : Scope) (c : Component Scalar) (discriminator : Option Scalar) :
    Except Failure (List SubclassRef) :=
  linkSubclasses c.className discriminator [] (scope.components.filter (·.base == some c.key))

/-! ## Classes -/

/-- The class of a component whose superclass has been built. -/
def assemble (scope : Scope) (c : Component Scalar) (ancestors : Lineage.Components)
    (superClass : Option ClassDef) : Except Failure ClassDef := do
  let discriminator := Lineage.discriminator? (c :: ancestors)
  let declared ← traverse (scope.variableOf c.className discriminator) c.properties
  let subclasses ← scope.subclassesOf c discriminator
  return {
    name := c.className
    package := c.package
    superClass := superClass
    instanceVariables := declared
    subclasses := subclasses
    discriminatorName := discriminator
    componentKey := c.key }

/-- The class of a component, built after the classes of its ancestors. -/
def build (scope : Scope) : Component Scalar → Lineage.Components → Except Failure ClassDef
  | c, [] => scope.assemble c [] none
  | c, base :: rest =>
    match scope.build base rest with
    | .error e => .error e
    | .ok superClass => scope.assemble c (base :: rest) (some superClass)

end Scope

/-! ## The model -/

namespace ClassModel

/-- The class name of a component, beside its key. -/
def named (entry : Scalar × Mapping) : Except Failure (Scalar × String) :=
  (Component.classNameOf entry.1).map fun className => (entry.1, className)

def ofComponents (registry : TypeRegistry) (defaultAccessibility : Accessibility)
    (classNames : List (Scalar × String)) (components : Lineage.Components) :
    Except Failure ClassModel := do
  let lines ← traverse (Lineage.of components) components
  let _ ← traverse (fun line : Lineage.Line =>
    Lineage.checkUnambiguous (line.component :: line.ancestors)) lines
  let _ ← traverse Lineage.checkBase lines
  let scope : Scope := ⟨registry, components, classNames, defaultAccessibility⟩
  let classes ← traverse (fun line : Lineage.Line =>
    scope.build line.component line.ancestors) lines
  return ⟨classes⟩

/-- The model of a document, its classes in the given package unless they name another. -/
def ofDocument (doc : Document) (package : Value) (registry : TypeRegistry)
    (defaultAccessibility : Accessibility) : Except Failure ClassModel := do
  let schemas ← doc.schemas
  let classNames ← traverse named schemas
  let described ← traverse (Component.describe package (Entries.keys schemas)) schemas
  let components ← Component.settlePackages [] described
  ofComponents registry defaultAccessibility classNames components

end ClassModel

end SchemaClasses
