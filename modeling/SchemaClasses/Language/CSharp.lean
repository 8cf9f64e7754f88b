import SchemaClasses.Language.Lines
import SchemaClasses.Language.Member
import SchemaClasses.Traverse

/-!
# Classes in C#

A class that has subclasses carries an attribute per subclass, which names the value of the
discriminator that selects it.  Every class has a constructor without parameters; one with fields
has a second constructor that takes them all.  Every private field has a property.

Three kinds of names come from one field.  The field itself keeps its name, the parameter starts
in lower case unless that would make two parameters the same, and the property starts in upper
case and gets a suffix where it would be the field or the class.  A name that is a keyword of the
language is escaped.
-/

namespace SchemaClasses.CSharp

def indent : String := "    "

/-! ## Identifiers -/

def keywords : List String := [
    "abstract", "as", "base", "bool", "break", "byte", "case", "catch", "char", "checked", "class",
    "const", "continue", "decimal", "default", "delegate", "do", "double", "else", "enum", "event",
    "explicit", "extern", "false", "finally", "fixed", "float", "for", "foreach", "goto", "if",
    "implicit", "in", "int", "interface", "internal", "is", "lock", "long", "namespace", "new",
    "null", "object", "operator", "out", "override", "params", "private", "protected", "public",
    "readonly", "ref", "return", "sbyte", "sealed", "short", "sizeof", "stackalloc", "static",
    "string", "struct", "switch", "this", "throw", "true", "try", "typeof", "uint", "ulong",
    "unchecked", "unsafe", "ushort", "using", "virtual", "void", "volatile", "while"]

/-- A name as an identifier: a keyword is escaped. -/
def identifier (name : String) : String := if name ∈ keywords then "@" ++ name else name

/-- The identifier of a field. -/
def fieldName (v : InstanceVariable) : String := identifier v.name.display

/-- The parameter of a field, given the lower-case names of all fields. -/
def parameterName (candidates : List String) (v : InstanceVariable) (candidate : String) : String :=
  identifier (if 1 < candidates.count candidate then v.name.display else candidate)

/-- The parameters of the fields, in order. -/
def parameterNames (c : ClassDef) : Except Failure (List String) :=
  (traverse (fun v : InstanceVariable => v.name.lowerFirst?) c.ownVariables).map fun candidates =>
    List.zipWith (parameterName candidates) c.ownVariables candidates

/-- The property of a field. -/
def propertyName (c : ClassDef) (v : InstanceVariable) : Except Failure String :=
  v.name.upperFirst?.map fun name =>
    identifier (if name = v.name.display || name = c.name then name ++ "Value" else name)

/-! ## Header -/

/-- The namespaces that every file with subclasses needs. -/
def attributeNamespaces : List String := ["JsonSubTypes", "Newtonsoft.Json"]

def frameworkNamespaces (c : ClassDef) : List String :=
  let hasArray := c.ownVariables.any fun v => v.type.isBuiltIn && v.type.name == "array"
  (if hasArray then ["System.Collections.Generic"] else [])
    ++ (if c.subclasses.isEmpty then [] else attributeNamespaces)

/-- One import line per namespace the file refers to, other than its own. -/
def uses (c : ClassDef) : Except Failure String := do
  let own ← Language.csharp.typeNamespace c.type
  let referenced ← traverse Language.csharp.typeNamespace
    (c.usedTypes.items ++ c.subclasses.map (·.type))
  let lines := (frameworkNamespaces c ++ referenced.filter (· ≠ own)).map fun name =>
    "using " ++ name ++ ";"
  return Lines.stack (OrderedSet.ofList lines).items

def subclassAttribute (s : SubclassRef) : String :=
  "[JsonSubtypes.KnownSubType(typeof(" ++ s.type.name ++ "), \"" ++ s.value ++ "\")]"

/-- The attributes of a class with subclasses. -/
def annotations (c : ClassDef) : Except Failure String := do
  match ← c.dispatchDiscriminator with
  | none => return ""
  | some name =>
    let converter := "[JsonConverter(typeof(JsonSubtypes), \"" ++ (← name.shown) ++ "\")]"
    return Lines.stack (converter :: c.subclasses.map subclassAttribute)

/-- The part of the declaration that names the superclass. -/
def extendsClause (c : ClassDef) : String :=
  match c.superClass with
  | some s => ": " ++ s.name
  | none => ""

/-! ## Body -/

def member (head : String) (inner : List String) : String :=
  Lines.stack ([indent ++ head, indent ++ "\x7b"] ++ inner.map (indent ++ indent ++ ·)
    ++ [indent ++ "\x7d"])

def field (v : InstanceVariable) : Except Failure String := do
  let type ← Language.csharp.variableType v
  let _ ← v.name.shown
  return indent ++ v.accessibility.keyword ++ " " ++ type ++ " " ++ fieldName v ++ ";"

def fields (c : ClassDef) : Except Failure String :=
  (traverse field c.ownVariables).map Lines.stack

/-- The constructor without parameters, for the serializer and for subclasses. -/
def emptyConstructor (c : ClassDef) : String := member ("public " ++ c.name ++ "()") []

def fieldConstructor (c : ClassDef) : Except Failure String := do
  let names ← parameterNames c
  let types ← traverse Language.csharp.variableType c.ownVariables
  let parameters := List.zipWith (fun type name => type ++ " " ++ name) types names
  return member ("public " ++ c.name ++ "(" ++ ", ".intercalate parameters ++ ")")
    (List.zipWith (fun v name => "this." ++ fieldName v ++ " = " ++ name ++ ";")
      c.ownVariables names)

def constructor (c : ClassDef) : Except Failure String :=
  if c.ownVariables.isEmpty then .ok (emptyConstructor c)
  else (fieldConstructor c).map fun text => Lines.spaced [emptyConstructor c, text]

def property (c : ClassDef) (v : InstanceVariable) : Except Failure String := do
  let _ ← v.name.shown
  let type ← Language.csharp.variableType v
  let name ← propertyName c v
  return member ("public " ++ type ++ " " ++ name)
    ["get => this." ++ fieldName v ++ ";", "set => this." ++ fieldName v ++ " = value;"]

/-- The properties of the private fields. -/
def accessors (c : ClassDef) : Except Failure String :=
  (traverse (property c) c.hiddenVariables).map Lines.spaced

end SchemaClasses.CSharp
