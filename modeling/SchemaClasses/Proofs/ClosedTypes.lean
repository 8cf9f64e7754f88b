import SchemaClasses.Proofs.Inheritance
import SchemaClasses.Proofs.PropertyType

/-!
# Types that a model mentions

A model is closed: the types of its variables and of its subclass links are built in, or are types
of classes of the same model.  The package of a type that is a class is that of this class, not of
the class that mentions it, so the target languages can spell it in full.

The argument goes from a type to its target (`NamesKeys.typeOf_eq_ok`), from there to a component,
as the targets are keys of the document, and from the component to its class.
-/

namespace SchemaClasses

open Lineage (Components find?)
open Schema (Target)

/-! ## A type and its class -/

namespace Scope

variable {scope : Scope} {c : Component Scalar} {d : ClassDef} {classes : List ClassDef}

lemma exists_type_eq (hall : List.Forall₂ scope.Realizes scope.components classes)
    (hc : c ∈ scope.components) : ∃ d ∈ classes, c.type = d.type := by
  obtain ⟨d, hd, _, hrealizes⟩ := forall₂_left hall hc
  exact ⟨d, hd, hrealizes.assembled.type_eq.symm⟩

/-- The type of a known target is built in and registered, or that of a class. -/
lemma closed_of_targetType? {keys : List Scalar} {target : Target} {t : TypeRef}
    (hall : List.Forall₂ scope.Realizes scope.components classes)
    (hknown : target.Known scope.registry keys) (ht : scope.targetType? target = some t) :
    (∃ name ∈ scope.registry.names, t = { name := name, isBuiltIn := true }) ∨
      ∃ d ∈ classes, t = d.type := by
  cases target with
  | builtIn name => exact Or.inl ⟨name, hknown, (Option.some.inj ht).symm⟩
  | component key =>
      obtain ⟨c, hc, rfl⟩ := Option.map_eq_some_iff.1 ht
      exact Or.inr (exists_type_eq hall (Lineage.mem_of_find? hc))

end Scope

/-! ## Models -/

namespace ClassModel

variable {home : Value} {registry : TypeRegistry} {accessibility : Accessibility}
  {schemas : Entries Scalar Mapping} {m : ClassModel}

/-- The class names of a document stand beside the keys of its schemas. -/
lemma namesKeys_scopeOf (registry : TypeRegistry) (accessibility : Accessibility)
    (components : Components) (htexts : Entries.TextKeys schemas) :
    (scopeOf registry accessibility schemas components).NamesKeys (Entries.keys schemas) := by
  refine ⟨?_, fun k hk => ?_⟩
  · rw [scopeOf, namesOf, Entries.keys, List.map_map]
    rfl
  · obtain ⟨entry, hentry, rfl⟩ := List.mem_map.1 hk
    exact htexts.1 entry hentry

/-- **What a class mentions is a class of the model**: its superclass, the types of its variables
that are not built in, and the subclasses that it selects.  This is so for every document, whatever
its keys are. -/
theorem types_of_mem {doc : Document} (h : ofDocument doc home registry accessibility = .ok m)
    {c : ClassDef} (hc : c ∈ m.classes) :
    (∀ s, c.superClass = some s → ∃ d ∈ m.classes, s.type = d.type) ∧
      (∀ v ∈ c.instanceVariables, v.type.isBuiltIn = false → ∃ d ∈ m.classes, v.type = d.type) ∧
        ∀ s ∈ c.subclasses, ∃ d ∈ m.classes, s.type = d.type := by
  obtain ⟨classNames, components, -, hall⟩ := exists_built h
  have hclass : ∀ e ∈ components, ∃ d ∈ m.classes, e.type = d.type := by
    intro e he
    obtain ⟨d, hd, ancestors, -, hbuilt⟩ := forall₂_left hall he
    exact ⟨d, hd, (Scope.assembled_of_build hbuilt).type_eq.symm⟩
  obtain ⟨e, he, ancestors, hancestors, hbuilt⟩ := forall₂_right hall hc
  have hassembled := Scope.assembled_of_build hbuilt
  refine ⟨fun s hs => ?_, fun v hv hclassType => ?_, fun s hs => ?_⟩
  · obtain ⟨superClass, hassemble, hlink⟩ := Scope.build_eq_ok.1 hbuilt
    obtain ⟨fields, subclasses, -, -, rfl⟩ := Scope.assemble_eq_ok.1 hassemble
    obtain rfl : superClass = some s := hs
    cases ancestors with
    | nil => exact hlink.elim
    | cons base rest =>
        rw [(Scope.assembled_of_build hlink).type_eq]
        exact hclass base (hancestors List.mem_cons_self)
  · obtain ⟨property, -, hvariable⟩ := forall₂_right hassembled.instanceVariables hv
    obtain ⟨-, htype, -⟩ := Scope.variableOf_eq_ok.1 hvariable
    rcases Scope.component_of_typeOf htype with hbuiltIn | ⟨b, hb, htype⟩
    · rw [hclassType] at hbuiltIn
      cases hbuiltIn
    · rw [htype]
      exact hclass b hb
  · obtain ⟨child, hchild, -, htype⟩ :=
      forall₂_right (Scope.subclassesOf_eq_ok.1 hassembled.subclasses).1 hs
    rw [htype]
    exact hclass child (List.mem_filter.1 hchild).1

/-- **A model is closed.**  The type of a variable is built in, registered and in no package, or it
is the type of a class of the model; so is the type of every link to a subclass. -/
theorem closed_of_ofDocument {doc : Document} (hdoc : doc.TextKeyed)
    (h : ofDocument doc home registry accessibility = .ok m) :
    ∀ c ∈ m.classes,
      (∀ v ∈ c.instanceVariables,
        (v.type.isBuiltIn = true ∧ v.type.name ∈ registry.names ∧ v.type.package = .text "") ∨
          v.type.isBuiltIn = false ∧ ∃ d ∈ m.classes, v.type = d.type) ∧
      ∀ s ∈ c.subclasses, s.type.isBuiltIn = false ∧ ∃ d ∈ m.classes, s.type = d.type := by
  obtain ⟨schemas, components, -, hblueprint, hall⟩ := blueprint_of_ofDocument hdoc h
  have hnames := namesKeys_scopeOf registry accessibility components hblueprint.textKeys
  intro d hd
  obtain ⟨c, -, ancestors, hrealizes⟩ := forall₂_right hall hd
  have hassembled := hrealizes.assembled
  refine ⟨fun v hv => ?_, fun s hs => ?_⟩
  · obtain ⟨property, -, hvariable⟩ := forall₂_right hassembled.instanceVariables hv
    obtain ⟨hends, htype, -⟩ := Scope.variableOf_eq_ok.1 hvariable
    obtain ⟨target, htyped, ht⟩ := (hnames.typeOf_eq_ok [] property.2).1 ⟨hends, htype⟩
    rcases Scope.closed_of_targetType? hall htyped.target_known ht with
      ⟨name, hname, hbuiltIn⟩ | ⟨e, he, hclass⟩
    · refine Or.inl ?_
      rw [hbuiltIn]
      exact ⟨rfl, hname, rfl⟩
    · refine Or.inr ⟨?_, e, he, hclass⟩
      rw [hclass]
      rfl
  · obtain ⟨hlinks, -⟩ := Scope.subclassesOf_eq_ok.1 hassembled.subclasses
    obtain ⟨child, hchild, -, htype⟩ := forall₂_right hlinks hs
    obtain ⟨e, he, hclass⟩ := Scope.exists_type_eq hall (List.mem_filter.1 hchild).1
    refine ⟨?_, e, he, htype.trans hclass⟩
    rw [htype]
    rfl

theorem closed_of_puppies :
    (Document.ofSchemas puppies).TextKeyed ∧
    ∃ m, ofDocument (.ofSchemas puppies) (.text "App") {} .owner = .ok m ∧
      m.classes.map (·.name) = ["Puppy", "Dog", "Animal"] ∧
      ∀ c ∈ m.classes,
        (∀ v ∈ c.instanceVariables,
          (v.type.isBuiltIn = true ∧ v.type.name ∈ ({} : TypeRegistry).names ∧
            v.type.package = .text "") ∨
          v.type.isBuiltIn = false ∧ ∃ d ∈ m.classes, v.type = d.type) ∧
        ∀ s ∈ c.subclasses, s.type.isBuiltIn = false ∧ ∃ d ∈ m.classes, s.type = d.type := by
  obtain ⟨m, hm, hnames⟩ := exists_model_puppies
  exact ⟨textKeyed_puppies, m, hm, hnames, closed_of_ofDocument textKeyed_puppies hm⟩

end ClassModel

end SchemaClasses
