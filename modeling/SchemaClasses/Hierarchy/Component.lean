import SchemaClasses.ClassModel
import SchemaClasses.Failure
import SchemaClasses.OrderedSet
import SchemaClasses.Reference
import SchemaClasses.Text.ClassName
import SchemaClasses.Traverse

/-!
# Schema components

A schema component describes a class.  It is a mapping with `properties`, or a composition
`allOf` of such mappings with at most one reference, which names the base component.  The
component itself and the parts without a reference are its *fragments*; they are read in order.
A property declared again keeps its first place and takes the last schema.

Components are looked at in two steps.  `describe` gathers what one component says by itself;
the package is still any value, which the type shows.  `settlePackages` then checks all of them
together: packages must be scalars, and no two components may make the same class.
-/

namespace SchemaClasses

/-- What a schema component says, with a package of the given type. -/
structure Component (Package : Type) where
  key : String
  className : String
  package : Package
  base : Option String
  properties : Entries Scalar Mapping
  discriminators : List Scalar

namespace Component

def failure {α : Type} (fault : ModelFault) (className : Scalar) (field : Option Scalar := none) :
    Except Failure α :=
  Failure.raise (.model { fault := fault, className := some className, fieldName := field })

/-! ## Names -/

/-- The name of the class that a component key makes.  A key that is no text makes no name if it
is empty, and cannot be read otherwise. -/
def classNameOf (key : Scalar) : Except Failure String :=
  match key with
  | .text s => .ok (Text.pascalCase s)
  | other => if other.truthy then .error (.misplaced (.scalar other)) else .ok ""

/-! ## Fragments -/

structure Gathered where
  properties : Entries Scalar Mapping := []
  discriminators : OrderedSet Scalar := .empty

/-- Add the properties of a fragment. -/
def gatherProperties (className : String) :
    Entries Scalar Mapping → List (Scalar × Value) → Except Failure (Entries Scalar Mapping)
  | properties, [] => .ok properties
  | properties, (name, .mapping schema _) :: rest =>
    gatherProperties className (Entries.insert properties name schema) rest
  | _, (name, _) :: _ => failure .propertyNotMapping (.text className) (some name)

/-- The discriminator that a fragment names, if it names one. -/
def namedDiscriminator (className : String) (fragment : Mapping) :
    Except Failure (Option String) :=
  let v := Mapping.field fragment "discriminator"
  if v.isNull then .ok none
  else
    let named := match v with
      | .mapping m _ => Mapping.field m "propertyName"
      | other => other
    match named.text? with
    | some s =>
      if s = "" then failure .unnamedDiscriminator (.text className) else .ok (some s)
    | none => failure .unnamedDiscriminator (.text className)

def marksDiscriminator (schema : Value) : Bool :=
  match schema with
  | .mapping m _ =>
    match Mapping.field m "x-discriminator" with
    | .scalar (.bool b) => b
    | _ => false
  | _ => false

def gather (className : String) (g : Gathered) (fragment : Mapping) : Except Failure Gathered := do
  let type := (Mapping.field? fragment "type").getD (.text "object")
  if !type.isText "object" then
    failure (.notObject type) (.text className)
  match (Mapping.field? fragment "properties").getD (.mapping []) with
  | .mapping entries _ =>
    let properties ← gatherProperties className g.properties entries
    let named ← namedDiscriminator className fragment
    let marked := (entries.filter fun entry => marksDiscriminator entry.2).map (·.1)
    return ⟨properties,
      (g.discriminators.insertAll (named.toList.map Scalar.text)).insertAll marked⟩
  | _ => failure .propertiesNotMapping (.text className)

/-- Add fragments in order. -/
def gatherAll (className : String) : Gathered → List Mapping → Except Failure Gathered
  | g, [] => .ok g
  | g, fragment :: rest =>
    match gather className g fragment with
    | .ok g' => gatherAll className g' rest
    | .error e => .error e

/-! ## Composition -/

structure Composition where
  base : Option String := none
  fragments : List Mapping := []

def partReferences (parts : List Value) : List Value :=
  parts.filterMap fun
    | .mapping m _ => Mapping.field? m "$ref"
    | _ => none

def partMappings (className : String) (parts : List Value) : Except Failure (List Mapping) :=
  traverse (fun
    | .mapping m _ => .ok m
    | _ => failure .partNotMapping (.text className)) parts

/-- The base that the references of a composition name: none, or one. -/
def baseOf (className : String) (keys : List Scalar) (references : List Value) :
    Except Failure (Option String) :=
  match references with
  | [] => .ok none
  | [ref] =>
    match Reference.resolve keys ref with
    | .ok key => .ok (some key)
    | .error fault => failure fault (.text className)
  | several => failure (.severalBases several.length) (.text className)

def compositionOf (className : String) (keys : List Scalar) (schema : Mapping) :
    Except Failure Composition :=
  match Mapping.field? schema "allOf" with
  | none => .ok {}
  | some (.list (part :: rest) _) => do
    let parts := part :: rest
    let base ← baseOf className keys (partReferences parts)
    let mappings ← partMappings className parts
    return ⟨base, mappings.filter fun m => !Mapping.hasField m "$ref"⟩
  | some _ => failure .partsNotList (.text className)

/-! ## Description -/

/-- Gather what one component says by itself. -/
def describe (defaultPackage : Value) (keys : List Scalar) (entry : Scalar × Mapping) :
    Except Failure (Component Value) := do
  let (key, schema) := entry
  let className ← classNameOf key
  if className = "" then
    failure (.noClassName key) key
  let declared := Mapping.field schema "x-package"
  let package := if declared.truthy then declared else defaultPackage
  let composition ← compositionOf className keys schema
  let gathered ← gatherAll className {} (schema :: composition.fragments)
  match gathered.discriminators.items.find? fun name =>
      !Entries.contains gathered.properties name with
  | some name => failure (.undeclaredDiscriminator name) (.text className) (some name)
  | none =>
    return {
      key := key.display
      className := className
      package := package
      base := composition.base
      properties := gathered.properties
      discriminators := gathered.discriminators.items }

/-! ## Packages -/

def withPackage (c : Component Value) (package : Scalar) : Component Scalar :=
  { c with package := package }

/-- Settle the packages in order; `settled` are the components before. -/
def settlePackages : List (Component Scalar) → List (Component Value) →
    Except Failure (List (Component Scalar))
  | settled, [] => .ok settled
  | settled, c :: rest =>
    match c.package.scalar? with
    | none => .error (.misplaced c.package)
    | some package =>
      match settled.find? fun d => d.package == package && d.className == c.className with
      | some first =>
        failure (.duplicate first.key c.key package) (.text c.className)
      | none => settlePackages (settled ++ [c.withPackage package]) rest

def type (c : Component Scalar) : TypeRef := { name := c.className, package := c.package }

end Component

end SchemaClasses
