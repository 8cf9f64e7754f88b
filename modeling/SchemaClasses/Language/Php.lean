import SchemaClasses.Language.Lines
import SchemaClasses.Language.Member
import SchemaClasses.Traverse

/-!
# Classes in PHP

A class that has subclasses carries a serializer annotation inside its comment, which maps every
value of the discriminator to a class.  Every field becomes a parameter of the constructor, and
every private field has a getter and a setter.
-/

namespace SchemaClasses.Php

def indent : String := "  "

/-! ## Header -/

/-- The text at the top of the file. -/
def preamble (settings : Settings) : String :=
  "<?php" ++ Lines.enclosed "\n\n" settings.generationComment ""

def annotationClass : String := "JMS\\Serializer\\Annotation\\Discriminator"

/-- One import line per class the file refers to. -/
def uses (c : ClassDef) : Except Failure String := do
  let names ← traverse Language.php.fullName c.usedTypes.items
  let annotation := if c.subclasses.isEmpty then [] else [annotationClass]
  let lines := (names ++ annotation).map fun name => "use " ++ name ++ ";"
  return Lines.stack (OrderedSet.ofList lines).items

/-- One entry of the annotation: a value of the discriminator and the class it selects. -/
def mapEntry (s : SubclassRef) : Except Failure String :=
  (Language.php.fullName s.type).map fun name => "\"" ++ s.value ++ "\": \"" ++ name ++ "\""

/-- The annotation of a class with subclasses, as a line of a comment. -/
def annotations (c : ClassDef) : Except Failure String := do
  match ← c.dispatchDiscriminator with
  | none => return ""
  | some name =>
    let entries ← traverse mapEntry c.subclasses
    return " * @Discriminator(field = \"" ++ (← name.shown) ++ "\", map = \x7b"
      ++ ", ".intercalate entries ++ "\x7d)"

def comment (c : ClassDef) : Except Failure String :=
  (annotations c).map fun text => Lines.enclosed "/**\n" text "\n */"

/-- The part of the declaration that names the superclass. -/
def extendsClause (c : ClassDef) : String :=
  match c.superClass with
  | some s => "extends " ++ s.name
  | none => ""

/-! ## Body -/

def member (head : String) (inner : List String) : String :=
  Lines.stack ([indent ++ head, indent ++ "\x7b"] ++ inner.map (indent ++ indent ++ ·)
    ++ [indent ++ "\x7d"])

def field (v : InstanceVariable) : Except Failure String := do
  let type ← Language.php.variableType v
  let name ← v.name.shown
  return indent ++ v.accessibility.keyword ++ " " ++ type ++ " $" ++ name ++ ";"

def fields (c : ClassDef) : Except Failure String :=
  (traverse field c.ownVariables).map Lines.stack

def parameter (v : InstanceVariable) : Except Failure String := do
  let type ← Language.php.variableType v
  return type ++ " $" ++ (← v.name.shown)

def store (v : InstanceVariable) : String :=
  "$this->" ++ v.name.display ++ " = $" ++ v.name.display ++ ";"

/-- The constructor, which takes every field in order. -/
def constructor (c : ClassDef) : Except Failure String :=
  (traverse parameter c.ownVariables).map fun parameters =>
    member ("public function __construct(" ++ ", ".intercalate parameters ++ ")")
      (c.ownVariables.map store)

def getter (v : InstanceVariable) : Except Failure String := do
  let type ← Language.php.variableType v
  let name ← v.name.upperFirst?
  return member ("public function get" ++ name ++ "(): " ++ type)
    ["return $this->" ++ v.name.display ++ ";"]

def setter (v : InstanceVariable) : Except Failure String := do
  let type ← Language.php.variableType v
  let name ← v.name.upperFirst?
  return member ("public function set" ++ name ++ "(" ++ type ++ " $" ++ v.name.display ++ "): void")
    [store v]

/-- The getter and the setter of a field. -/
def accessorPair (v : InstanceVariable) : Except Failure String := do
  return Lines.spaced [← getter v, ← setter v]

/-- The getters and setters of the private fields. -/
def accessors (c : ClassDef) : Except Failure String :=
  (traverse accessorPair c.hiddenVariables).map Lines.spaced

end SchemaClasses.Php
