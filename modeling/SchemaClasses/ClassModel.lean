import SchemaClasses.Accessibility
import SchemaClasses.Value.Shown

/-!
# The class model

The class model is what the target languages write: classes with typed instance variables, each
linked to its superclass and to the subclasses that its discriminator selects.  A class holds its
superclass itself, so the chain of its ancestors is finite by construction.
-/

namespace SchemaClasses

/-! ## Types -/

/-- A type: a built-in one, or a class of a package. -/
structure TypeRef where
  name : String
  package : Scalar := .text ""
  isBuiltIn : Bool := false
  deriving BEq

namespace TypeRef

/-- Whether the type is a class. -/
def isUserDefined (t : TypeRef) : Bool := !t.isBuiltIn

/-- The name with its package, if it has one. -/
def qualifiedName (t : TypeRef) : String :=
  if t.isBuiltIn || !t.package.truthy then t.name else t.package.display ++ "." ++ t.name

/-- The name with its package, which must be one that can be shown. -/
def shownName (t : TypeRef) : Except Failure String :=
  if t.isBuiltIn then .ok t.name else t.package.shown.map fun _ => t.qualifiedName

end TypeRef

/-! ## Classes -/

/-- A typed field of a class. -/
structure InstanceVariable where
  name : Scalar
  type : TypeRef
  accessibility : Accessibility := .owner
  isDiscriminator : Bool := false

/-- A subclass with the value of the discriminator that selects it. -/
structure SubclassRef where
  value : String
  type : TypeRef

/-- A class. -/
structure ClassDef where
  name : String
  package : Scalar
  superClass : Option ClassDef := none
  instanceVariables : List InstanceVariable := []
  subclasses : List SubclassRef := []
  discriminatorName : Option Scalar := none
  /-- The key of the schema component the class was made from. -/
  componentKey : String := ""

namespace ClassDef

def type (c : ClassDef) : TypeRef := { name := c.name, package := c.package }

/-- Whether two classes are the same: the same name in the same package. -/
def sameKey (c d : ClassDef) : Bool := c.package == d.package && c.name == d.name

/-- The superclass, its superclass, and so on. -/
def ancestors : ClassDef → List ClassDef
  | ⟨_, _, none, _, _, _, _⟩ => []
  | ⟨_, _, some s, _, _, _, _⟩ => s :: s.ancestors

def discriminators (c : ClassDef) : List InstanceVariable :=
  c.instanceVariables.filter (·.isDiscriminator)

/-- The variables that a target language declares: all but the discriminator. -/
def ownVariables (c : ClassDef) : List InstanceVariable :=
  c.instanceVariables.filter fun v => !v.isDiscriminator

/-- The discriminator variable, declared by the class itself or by its nearest ancestor. -/
def discriminator? (c : ClassDef) : Option InstanceVariable :=
  c.discriminatorName.bind fun name =>
    (c :: c.ancestors).findSome? fun d => d.instanceVariables.find? (·.name.equals name)

end ClassDef

/-! ## The model -/

/-- The classes of a run, in document order. -/
structure ClassModel where
  classes : List ClassDef

namespace ClassModel

/-- The place of a class in the model; of several with the same name and package, the last. -/
def position? (m : ClassModel) (package : Scalar) (name : String) : Option Nat :=
  (m.classes.reverse.findIdx? fun c => c.package == package && c.name == name).map fun i =>
    m.classes.length - 1 - i

/-- The class of a package and a name. -/
def get? (m : ClassModel) (package : Scalar) (name : String) : Option ClassDef :=
  m.classes.reverse.find? fun c => c.package == package && c.name == name

/-- Whether the model has a class of a package and a name. -/
def contains (m : ClassModel) (package : Scalar) (name : String) : Bool :=
  (m.get? package name).isSome

/-- The classes that extend a class directly. -/
def subclassesOf (m : ClassModel) (c : ClassDef) : List ClassDef :=
  m.classes.filter fun d => (d.superClass.map (·.sameKey c)).getD false

/-- The text that shows a model by the names of its classes. -/
def quoted (m : ClassModel) : String :=
  "ClassModel([" ++ ", ".intercalate (m.classes.map fun c => Text.quoted c.name) ++ "])"

end ClassModel

end SchemaClasses
