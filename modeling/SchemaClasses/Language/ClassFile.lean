import SchemaClasses.Language.CSharp
import SchemaClasses.Language.Php

/-!
# The file of a class

`ClassFile.fragments` collects the fragments of a class in the order in which they are written, so
the first fragment that cannot be written decides the failure.  `ClassFile.layout` puts them
together.
-/

namespace SchemaClasses

namespace Language

/-! ## Fragments by language -/

/-- The text at the top of the file. -/
def preamble (language : Language) (settings : Settings) : String :=
  match language with
  | php => Php.preamble settings
  | csharp => settings.generationComment

/-- The words before `class`. -/
def modifiers : Language → List String
  | php => []
  | csharp => ["public"]

/-- The declaration of the namespace. -/
def namespaceLine (language : Language) (c : ClassDef) : Except Failure String :=
  (language.typeNamespace c.type).map fun space => "namespace " ++ space ++ ";"

/-- The import lines. -/
def uses : Language → ClassDef → Except Failure String
  | php => Php.uses
  | csharp => CSharp.uses

def comment : Language → ClassDef → Except Failure String
  | php => Php.comment
  | csharp => fun _ => .ok ""

/-- The metadata that selects subclasses. -/
def annotations : Language → ClassDef → Except Failure String
  | php => Php.annotations
  | csharp => CSharp.annotations

/-- The part of the declaration that names the superclass. -/
def extendsClause : Language → ClassDef → String
  | php => Php.extendsClause
  | csharp => CSharp.extendsClause

def declaration (language : Language) (c : ClassDef) : String :=
  let clause := language.extendsClause c
  " ".intercalate (language.modifiers ++ ["class", c.name] ++ if clause = "" then [] else [clause])

def fields : Language → ClassDef → Except Failure String
  | php => Php.fields
  | csharp => CSharp.fields

def constructor : Language → ClassDef → Except Failure String
  | php => Php.constructor
  | csharp => CSharp.constructor

def accessors : Language → ClassDef → Except Failure String
  | php => Php.accessors
  | csharp => CSharp.accessors

/-- All members. -/
def body (language : Language) (c : ClassDef) : Except Failure String := do
  let fields ← language.fields c
  let constructor ← language.constructor c
  let accessors ← language.accessors c
  return Lines.spacedNonempty [fields, constructor, accessors]

end Language

/-! ## The whole file -/

structure ClassFile where
  preamble : String
  namespaceLine : String
  uses : String
  comment : String
  annotations : String
  declaration : String
  body : String

namespace ClassFile

/-- The fragments of a class, written in order. -/
def fragments (language : Language) (settings : Settings) (c : ClassDef) :
    Except Failure ClassFile := do
  let space ← language.namespaceLine c
  let uses ← language.uses c
  let comment ← language.comment c
  let annotations ← language.annotations c
  let body ← language.body c
  return {
    preamble := language.preamble settings
    namespaceLine := space
    uses := uses
    comment := comment
    annotations := annotations
    declaration := language.declaration c
    body := body }

def braces (body : String) : String := "\x7b\n" ++ Lines.enclosed "" body "\n" ++ "\x7d\n"

/-- The text of the file. -/
def layout : Language → ClassFile → String
  | .php, f =>
    f.preamble ++ "\n\n" ++ f.namespaceLine ++ "\n" ++ Lines.enclosed "\n" f.uses "\n" ++ "\n"
      ++ Lines.enclosed "" f.comment "\n" ++ f.declaration ++ "\n" ++ braces f.body
  | .csharp, f =>
    Lines.enclosed "" f.preamble "\n\n" ++ Lines.enclosed "" f.uses "\n\n"
      ++ f.namespaceLine ++ "\n\n" ++ Lines.enclosed "" f.comment "\n"
      ++ Lines.enclosed "" f.annotations "\n" ++ f.declaration ++ "\n" ++ braces f.body

end ClassFile

def Language.classText (language : Language) (settings : Settings) (c : ClassDef) :
    Except Failure String :=
  (ClassFile.fragments language settings c).map (ClassFile.layout language)

end SchemaClasses
