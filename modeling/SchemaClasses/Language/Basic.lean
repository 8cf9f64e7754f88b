import SchemaClasses.Failure

/-!
# Target languages

The classes of a model can be written in PHP or in C#.  This file holds what differs between the
two as plain data: names, file endings, the names of the built-in types, and the mark that
separates the parts of a package.
-/

namespace SchemaClasses

inductive Language where
  | php
  | csharp
  deriving DecidableEq, Repr

namespace Language

/-- The languages in the order of their codes. -/
def all : List Language := [.csharp, .php]

def code : Language → String
  | php => "php"
  | csharp => "cs"

def codes : List String := all.map code

/-- The language that a code selects. -/
def ofCode (s : String) : Except RenderError Language :=
  match all.find? (·.code == s) with
  | some language => .ok language
  | none => .error (.unsupportedLanguage s codes)

/-- The ending of source files. -/
def extension : Language → String
  | php => "php"
  | csharp => "cs"

/-- The built-in types with their names in the language. -/
def typeMap : Language → List (String × String)
  | php => [("array", "array"), ("string", "string"), ("integer", "int"), ("number", "int")]
  | csharp =>
    [("array", "List<object>"), ("string", "string"), ("integer", "int"), ("number", "float")]

/-- The directory of the class files below the output directory. -/
def sourceDirectory : Language → String
  | php => "src"
  | csharp => "Models"

/-- The file that declares what the generated project depends on. -/
def manifestFile : Language → String
  | php => "composer.json"
  | csharp => "Models.csproj"

def projectFiles (language : Language) : List String := ["README.md", language.manifestFile]

def fileName (language : Language) (className : String) : String :=
  match language with
  | php => className ++ ".class.php"
  | csharp => className ++ ".cs"

/-! ## Packages -/

/-- The mark between the parts of a package. -/
def separator : Language → Char
  | php => '\\'
  | csharp => '.'

/-- The mark of the other language, which a package may use as well. -/
def foreignSeparator : Language → Char
  | php => '.'
  | csharp => '\\'

def separateParts (language : Language) (package : String) : String :=
  String.ofList (package.toList.map fun c =>
    if c = language.foreignSeparator then language.separator else c)

/-- The namespace of a package, which must be a text. -/
def packageNamespace (language : Language) (package : Value) : Except Failure String :=
  match package with
  | .scalar (.text s) => .ok (language.separateParts s)
  | .scalar (.date _) => .error (.unsupported .packageOfDay)
  | v => .error (.unsupported (.packageWithoutParts v.kindName))

@[simp] theorem packageNamespace_text (language : Language) (s : String) :
    language.packageNamespace (.text s) = .ok (language.separateParts s) := rfl

/-- A language is found by its code. -/
theorem ofCode_code (language : Language) : ofCode language.code = .ok language := by
  cases language <;> rfl

end Language

end SchemaClasses
