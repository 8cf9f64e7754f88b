import SchemaClasses.Traverse
import SchemaClasses.Value.Shown

/-!
# The document

A document is a mapping.  Its parts are read on demand, so a fault in one section is met only by
a reader of that section.  An absent section, or one that is null, has no entries.
-/

namespace SchemaClasses

/-- A document: the entries of its outermost mapping. -/
structure Document where
  entries : Mapping

namespace Document

/-- The document that a value is. -/
def ofValue : Value → Except Failure Document
  | .mapping entries _ => .ok ⟨entries⟩
  | v => .error (.document (.notMapping v.kindName))

/-! ## Sections -/

/-- Walk down a path of keys.  `walked` is the path so far, which a message names. -/
def descend (walked : List String) : Value → List String → Except Failure Mapping
  | .mapping m _, [] => .ok m
  | .mapping m _, key :: rest =>
    let v := Mapping.field m key
    if v.isNull then .ok [] else descend (walked ++ [key]) v rest
  | v, _ => .error (.document (.sectionNotMapping (".".intercalate walked) v.kindName))

def section? (doc : Document) (path : List String) : Except Failure Mapping :=
  descend [] (.mapping doc.entries) path

/-- The section `info`; an empty value of any kind counts as no information. -/
def info (doc : Document) : Except Failure Mapping :=
  match Mapping.field doc.entries "info" with
  | .mapping m _ => .ok m
  | v => if v.truthy then .error (.document .infoNotMapping) else .ok []

/-! ## Texts about the document -/

def formatVersion (doc : Document) : Except Failure String :=
  Mapping.fieldText doc.entries "asyncapi"

def title (doc : Document) : Except Failure String := do
  Mapping.fieldText (← doc.info) "title"

def version (doc : Document) : Except Failure String := do
  Mapping.fieldText (← doc.info) "version"

def description (doc : Document) : Except Failure String := do
  Mapping.fieldText (← doc.info) "description"

/-! ## Schema components -/

/-- One schema component, which must be a mapping. -/
def schemaEntry : Scalar × Value → Except Failure (Scalar × Mapping)
  | (name, .mapping m _) => .ok (name, m)
  | (name, _) => Failure.raise (.document (.schemaNotMapping name))

def schemas (doc : Document) : Except Failure (Entries Scalar Mapping) :=
  match doc.section? ["components", "schemas"] with
  | .error e => .error e
  | .ok m => traverse schemaEntry m

end Document

end SchemaClasses
