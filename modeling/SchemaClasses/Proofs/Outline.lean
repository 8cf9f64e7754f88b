import SchemaClasses.Language.ClassFile
import SchemaClasses.Proofs.Outcome

/-!
# What the text of a class shows

A class holds more than its file shows.  The variables that are flagged as discriminators are left
out, of the superclass only the type is written, and the key of the component is never read.
`ClassDef.outline` takes all of that away, and `outline_eq_iff` says what is left.

The argument is one lemma per fragment: a class and its outline have the same imports, the same
annotation, the same fields, constructor and accessors, or fail there with the same failure.
Everything that a fragment reads of the variables comes through `ownVariables`, which the outline
keeps (`ownVariables_outline`).  `classText_outline` puts the fragments together, and two classes
with one outline cannot be told apart by their texts.
-/

namespace SchemaClasses

/-! ## Outlines -/

namespace ClassDef

variable {c c' : ClassDef}

/-- A class without its discriminator variables, without what its superclass holds besides the
type, and without the key of its component. -/
def outline (c : ClassDef) : ClassDef :=
  { c with
    superClass := c.superClass.map fun s => { name := s.name, package := s.package }
    instanceVariables := c.ownVariables
    componentKey := "" }

@[simp] lemma name_outline (c : ClassDef) : c.outline.name = c.name := rfl

@[simp] lemma type_outline (c : ClassDef) : c.outline.type = c.type := rfl

@[simp] lemma subclasses_outline (c : ClassDef) : c.outline.subclasses = c.subclasses := rfl

@[simp] lemma superType_outline (c : ClassDef) :
    c.outline.superClass.map type = c.superClass.map type := by
  rw [outline, Option.map_map]
  rfl

@[simp] lemma ownVariables_outline (c : ClassDef) : c.outline.ownVariables = c.ownVariables := by
  rw [ownVariables, outline, ownVariables, List.filter_filter]
  simp only [Bool.and_self]

@[simp] lemma hiddenVariables_outline (c : ClassDef) :
    c.outline.hiddenVariables = c.hiddenVariables := by
  rw [hiddenVariables, ownVariables_outline, hiddenVariables]

@[simp] lemma usedTypes_outline (c : ClassDef) : c.outline.usedTypes = c.usedTypes := by
  rw [usedTypes, superType_outline, ownVariables_outline, type_outline, usedTypes]

@[simp] lemma dispatchDiscriminator_outline (c : ClassDef) :
    c.outline.dispatchDiscriminator = c.dispatchDiscriminator := rfl

/-- What an outline keeps. -/
lemma outline_eq_iff :
    c.outline = c'.outline ↔
      c.name = c'.name ∧ c.package = c'.package ∧
        c.superClass.map type = c'.superClass.map type ∧ c.ownVariables = c'.ownVariables ∧
          c.subclasses = c'.subclasses ∧ c.discriminatorName = c'.discriminatorName := by
  have hsuper : ∀ s s' : Option ClassDef,
      (s.map fun s => ({ name := s.name, package := s.package } : ClassDef)) =
        (s'.map fun s => { name := s.name, package := s.package }) ↔ s.map type = s'.map type := by
    intro s s'
    cases s <;> cases s' <;> simp [type]
  simp only [outline, mk.injEq, hsuper, and_true]

end ClassDef

/-! ## Fragments -/

namespace Php

open ClassDef

lemma uses_outline (c : ClassDef) : uses c.outline = uses c := by
  rw [uses, usedTypes_outline, subclasses_outline, uses]

lemma annotations_outline (c : ClassDef) : annotations c.outline = annotations c := by
  rw [annotations, dispatchDiscriminator_outline, subclasses_outline, annotations]

lemma comment_outline (c : ClassDef) : comment c.outline = comment c := by
  rw [comment, annotations_outline, comment]

lemma extendsClause_outline (c : ClassDef) : extendsClause c.outline = extendsClause c := by
  rw [extendsClause, extendsClause, outline]
  cases c.superClass <;> rfl

lemma fields_outline (c : ClassDef) : fields c.outline = fields c := by
  rw [fields, ownVariables_outline, fields]

lemma constructor_outline (c : ClassDef) : constructor c.outline = constructor c := by
  rw [constructor, ownVariables_outline, constructor]

lemma accessors_outline (c : ClassDef) : accessors c.outline = accessors c := by
  rw [accessors, hiddenVariables_outline, accessors]

end Php

namespace CSharp

open ClassDef

lemma frameworkNamespaces_outline (c : ClassDef) :
    frameworkNamespaces c.outline = frameworkNamespaces c := by
  rw [frameworkNamespaces, ownVariables_outline, subclasses_outline, frameworkNamespaces]

lemma uses_outline (c : ClassDef) : uses c.outline = uses c := by
  rw [uses, type_outline, usedTypes_outline, subclasses_outline, frameworkNamespaces_outline, uses]

lemma annotations_outline (c : ClassDef) : annotations c.outline = annotations c := by
  rw [annotations, dispatchDiscriminator_outline, subclasses_outline, annotations]

lemma extendsClause_outline (c : ClassDef) : extendsClause c.outline = extendsClause c := by
  rw [extendsClause, extendsClause, outline]
  cases c.superClass <;> rfl

lemma fields_outline (c : ClassDef) : fields c.outline = fields c := by
  rw [fields, ownVariables_outline, fields]

lemma emptyConstructor_outline (c : ClassDef) :
    emptyConstructor c.outline = emptyConstructor c := rfl

/-- The names of the parameters are weighed against those of the fields that are written, so a
discriminator never makes a parameter keep its capital. -/
lemma parameterNames_outline (c : ClassDef) : parameterNames c.outline = parameterNames c := by
  rw [parameterNames, ownVariables_outline, parameterNames]

lemma fieldConstructor_outline (c : ClassDef) :
    fieldConstructor c.outline = fieldConstructor c := by
  rw [fieldConstructor, parameterNames_outline, ownVariables_outline, name_outline,
    fieldConstructor]

lemma constructor_outline (c : ClassDef) : constructor c.outline = constructor c := by
  rw [constructor, ownVariables_outline, emptyConstructor_outline, fieldConstructor_outline,
    constructor]

lemma property_outline (c : ClassDef) : property c.outline = property c := rfl

lemma accessors_outline (c : ClassDef) : accessors c.outline = accessors c := by
  rw [accessors, property_outline, hiddenVariables_outline, accessors]

end CSharp

namespace Language

variable (language : Language) (settings : Settings) (c : ClassDef)

lemma namespaceLine_outline : language.namespaceLine c.outline = language.namespaceLine c := rfl

lemma uses_outline : language.uses c.outline = language.uses c := by
  cases language with
  | php => exact Php.uses_outline c
  | csharp => exact CSharp.uses_outline c

lemma comment_outline : language.comment c.outline = language.comment c := by
  cases language with
  | php => exact Php.comment_outline c
  | csharp => rfl

lemma annotations_outline : language.annotations c.outline = language.annotations c := by
  cases language with
  | php => exact Php.annotations_outline c
  | csharp => exact CSharp.annotations_outline c

lemma declaration_outline : language.declaration c.outline = language.declaration c := by
  have hclause : language.extendsClause c.outline = language.extendsClause c := by
    cases language with
    | php => exact Php.extendsClause_outline c
    | csharp => exact CSharp.extendsClause_outline c
  rw [declaration, hclause, ClassDef.name_outline, declaration]

lemma fields_outline : language.fields c.outline = language.fields c := by
  cases language with
  | php => exact Php.fields_outline c
  | csharp => exact CSharp.fields_outline c

lemma constructor_outline : language.constructor c.outline = language.constructor c := by
  cases language with
  | php => exact Php.constructor_outline c
  | csharp => exact CSharp.constructor_outline c

lemma accessors_outline : language.accessors c.outline = language.accessors c := by
  cases language with
  | php => exact Php.accessors_outline c
  | csharp => exact CSharp.accessors_outline c

lemma body_outline : language.body c.outline = language.body c := by
  rw [body, fields_outline, constructor_outline, accessors_outline, body]

/-- **A class and its outline have the same text**, or fail with the same failure. -/
lemma classText_outline : language.classText settings c.outline = language.classText settings c := by
  have hfragments :
      ClassFile.fragments language settings c.outline = ClassFile.fragments language settings c := by
    rw [ClassFile.fragments, namespaceLine_outline, uses_outline, comment_outline,
      annotations_outline, body_outline, declaration_outline, ClassFile.fragments]
  rw [classText, hfragments, classText]

end Language

/-! ## Two classes with one outline -/

/-- **Discriminator variables and remote ancestors leave no trace in the text of a class.**  Two
classes that agree on the name, the package, the name of the discriminator, the subclasses, the
variables that are not flagged as discriminators, and the name and the package of the superclass
have the same text in either language and for any settings, or fail with the same failure. -/
theorem Language.classText_eq_of_agree {c c' : ClassDef} (hname : c.name = c'.name)
    (hpackage : c.package = c'.package) (hdiscriminator : c.discriminatorName = c'.discriminatorName)
    (hsubclasses : c.subclasses = c'.subclasses)
    (hvariables : (c.instanceVariables.filter fun v => !v.isDiscriminator) =
      c'.instanceVariables.filter fun v => !v.isDiscriminator)
    (hsuper : (c.superClass.map fun s => (s.name, s.package)) =
      c'.superClass.map fun s => (s.name, s.package))
    (language : Language) (settings : Settings) :
    language.classText settings c = language.classText settings c' := by
  have htype : c.superClass.map ClassDef.type = c'.superClass.map ClassDef.type := by
    have h := congrArg (Option.map fun p => ({ name := p.1, package := p.2 } : TypeRef)) hsuper
    rwa [Option.map_map, Option.map_map] at h
  have houtline : c.outline = c'.outline :=
    ClassDef.outline_eq_iff.2 ⟨hname, hpackage, htype, hvariables, hsubclasses, hdiscriminator⟩
  rw [← classText_outline, houtline, classText_outline]

/-- A class with a field and a subclass, and with discriminator variables around the field. -/
def cat (before after : List InstanceVariable) (superClass : ClassDef) (key : String) : ClassDef :=
  { name := "Cat"
    package := .text "Zoo"
    superClass := some superClass
    instanceVariables := before ++
      [{ name := .text "Name", type := { name := "string", isBuiltIn := true } }] ++ after
    subclasses := [{ value := "tabby", type := { name := "Tabby", package := .text "Zoo.Cats" } }]
    discriminatorName := some (.text "kind")
    componentKey := key }

/-- One cat inherits its discriminator; the other has one discriminator of a type that neither
language has a name for, one that differs from the field in its first letter only, and an older
ancestor. -/
theorem Language.classText_cat :
    Language.csharp.classText {}
        (cat [] [] { name := "Animal", package := .text "Zoo" } "cat") =
      Language.csharp.classText {}
        (cat [{ name := .text "kind", type := { name := "uuid", isBuiltIn := true },
                isDiscriminator := true }]
          [{ name := .text "name", type := { name := "array", isBuiltIn := true },
             accessibility := .everyone, isDiscriminator := true }]
          { name := "Animal", package := .text "Zoo", componentKey := "animal",
            superClass := some { name := "Being", package := .text "" } }
          "#/cat") :=
  Language.classText_eq_of_agree rfl rfl rfl rfl rfl rfl .csharp {}

end SchemaClasses
