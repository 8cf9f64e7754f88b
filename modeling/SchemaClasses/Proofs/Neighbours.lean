import SchemaClasses.Proofs.ClosedTypes

/-!
# What a class takes from other components

A class is built in a scope that holds all components, but it looks at few of them: at its chain of
bases, at the components that its properties name, and at those that extend it.  This file compares
a scope with a `Wider` one, in which every component is found that is found in the first.

* The bases of a component, and with them its discriminator, are the same in both
  (`Wider.realizesAlong`).
* So is the variable of a property, if the type name that the property comes down to keeps what it
  stands for (`Wider.variableOf_of_named`).  References never change.

Nothing is said about subclasses, which the wider scope may add.
-/

namespace SchemaClasses

open Lineage (Components Chain InOrder find? discriminator?)
open Schema (Target Named Typed combination?)

/-! ## Lineages -/

namespace Lineage

variable {components components' chain : Components} {start : Option String}

/-- Every component that is found among the first is found among the others. -/
def Within (components components' : Components) : Prop :=
  ∀ key c, find? components key = some c → find? components' key = some c

lemma within_of_subset (hkeys : (components'.map (·.key)).Nodup)
    (hsub : components ⊆ components') : Within components components' := by
  intro key c hc
  rw [← key_of_find? hc]
  exact find?_of_mem hkeys (hsub (mem_of_find? hc))

lemma Chain.within (h : Chain components start chain) (hwithin : Within components components') :
    Chain components' start chain := by
  induction h with
  | nil => exact .nil
  | cons found _ ih => exact .cons (hwithin _ _ found) ih

lemma InOrder.within {c : Component Scalar} {ancestors : Components}
    (h : InOrder components c ancestors) (hwithin : Within components components') :
    InOrder components' c ancestors :=
  ⟨h.chain.within hwithin, h.unambiguous, h.discriminated⟩

end Lineage

/-! ## Type names -/

namespace Schema

/-- The type name that a property comes down to: its own, or that of the single schema it wraps. -/
inductive BareType : Mapping → String → Prop where
  | plain {schema : Mapping} {name : String} (free : Mapping.field? schema "$ref" = none)
      (single : combination? schema = none)
      (given : Mapping.field? schema "type" = some (.text name)) : BareType schema name
  | wrapped {schema inner : Mapping} {ring outer : Option Nat} {name : String}
      (free : Mapping.field? schema "$ref" = none)
      (given : combination? schema = some (.list [.mapping inner ring] outer))
      (inside : BareType inner name) : BareType schema name

/-- **A property comes down to a reference or to a type name.**  The reference stands for the same
component whatever other keys there are, and the property for whatever the type name does. -/
lemma Typed.reference_or_bareType {registry : TypeRegistry} {keys : List Scalar} {met : List Nat}
    {schema : Mapping} {target : Target} (h : Typed registry keys met schema target) :
    (∀ keys', keys ⊆ keys' → Typed registry keys' met schema target) ∨
      ∃ name, BareType schema name ∧ Named registry keys name target ∧
        ∀ keys' target', Named registry keys' name target' →
          Typed registry keys' met schema target' := by
  induction h with
  | reference given known =>
      exact Or.inl fun keys' hsub => .reference given (hsub known)
  | wrapped free given fresh _ ih =>
      rcases ih with hsame | ⟨name, hbare, hnamed, hother⟩
      · exact Or.inl fun keys' hsub => .wrapped free given fresh (hsame keys' hsub)
      · exact Or.inr ⟨name, .wrapped free given hbare, hnamed, fun keys' target' h' =>
          .wrapped free given fresh (hother keys' target' h')⟩
  | @named _ _ name _ free plain given known =>
      exact Or.inr ⟨name, .plain free plain given, known, fun keys' target' h' =>
        .named free plain given h'⟩

end Schema

/-! ## Scopes -/

namespace Scope

variable {scope scope' : Scope} {keys keys' : List Scalar} {c : Component Scalar}
  {ancestors : Components} {d d' : ClassDef}

/-- **A scope is wider than another.**  It has the same built-in types and the same default, and all
keys and components of the other are found in it. -/
structure Wider (scope : Scope) (keys : List Scalar) (scope' : Scope) (keys' : List Scalar) :
    Prop where
  registry : scope'.registry = scope.registry
  accessibility : scope'.defaultAccessibility = scope.defaultAccessibility
  known : keys ⊆ keys'
  names : scope.NamesKeys keys
  names' : scope'.NamesKeys keys'
  components : Lineage.Within scope.components scope'.components

/-! ### Lineages -/

/-- The two classes of a component are built along the same chain. -/
lemma Wider.realizesAlong (h : scope.Wider keys scope' keys') (hd : scope.Realizes c d)
    (hd' : scope'.Realizes c d') :
    ∃ ancestors, scope.RealizesAlong c ancestors d ∧ scope'.RealizesAlong c ancestors d' := by
  obtain ⟨ancestors, hd⟩ := hd
  obtain ⟨ancestors', hd'⟩ := hd'
  obtain ⟨-, rfl⟩ := List.cons.inj ((hd.chain.within h.components).unique hd'.chain)
  exact ⟨ancestors, hd, hd'⟩

/-- A class has the key and the type of its component, as far as it can be built. -/
lemma key_type_of_build (h : scope.build c ancestors = .ok d) :
    d.componentKey = c.key ∧ d.type = c.type := by
  obtain ⟨superClass, hassemble, -⟩ := build_eq_ok.1 h
  obtain ⟨fields, subclasses, -, -, rfl⟩ := assemble_eq_ok.1 hassemble
  exact ⟨rfl, rfl⟩

/-- The superclass has the key and the type of the base. -/
lemma RealizesAlong.superClass_eq (h : scope.RealizesAlong c ancestors d) :
    d.superClass.map (fun s => (s.componentKey, s.type)) =
      ancestors.head?.map fun base => (base.key, base.type) := by
  cases ancestors with
  | nil => rw [h.superClass_of_nil, List.head?_nil, Option.map_none, Option.map_none]
  | cons base rest =>
      obtain ⟨_ | s, hassemble, hs⟩ := build_eq_ok.1 h.built
      · exact hs.elim
      · obtain ⟨fields, subclasses, -, -, rfl⟩ := assemble_eq_ok.1 hassemble
        obtain ⟨hkey, htype⟩ := key_type_of_build hs
        rw [List.head?_cons, Option.map_some, Option.map_some, hkey, htype]

/-! ### Variables -/

lemma Wider.targetType? (h : scope.Wider keys scope' keys') {target : Target} {t : TypeRef}
    (ht : scope.targetType? target = some t) : scope'.targetType? target = some t := by
  cases target with
  | builtIn name => exact ht
  | component key =>
      obtain ⟨e, he, rfl⟩ := Option.map_eq_some_iff.1 ht
      exact Option.map_eq_some_iff.2 ⟨e, h.components key e he, rfl⟩

lemma Wider.accessibilityOf (h : scope.Wider keys scope' keys') (schema : Mapping) :
    scope'.accessibilityOf schema = scope.accessibilityOf schema := by
  rw [Scope.accessibilityOf, Scope.accessibilityOf, h.accessibility]

variable {className : String} {discriminator : Option Scalar} {property : Scalar × Mapping}
  {v v' : InstanceVariable}

/-- **A variable is the same in a wider scope**, as long as the type name that its property comes
down to stands for what it did. -/
lemma Wider.variableOf_of_named (h : scope.Wider keys scope' keys')
    (hv : scope.variableOf className discriminator property = .ok v)
    (hnamed : ∀ name target, Schema.BareType property.2 name →
      Named scope.registry keys name target → Named scope.registry keys' name target) :
    scope'.variableOf className discriminator property = .ok v := by
  obtain ⟨hends, htype, hrest⟩ := variableOf_eq_ok.1 hv
  obtain ⟨target, htyped, ht⟩ := (h.names.typeOf_eq_ok [] property.2).1 ⟨hends, htype⟩
  have htyped' : Typed scope'.registry keys' [] property.2 target := by
    rw [h.registry]
    rcases htyped.reference_or_bareType with hsame | ⟨name, hbare, hname, hother⟩
    · exact hsame keys' h.known
    · exact hother keys' target (hnamed name target hbare hname)
  obtain ⟨hends', htype'⟩ :=
    (h.names'.typeOf_eq_ok [] property.2).2 ⟨target, htyped', h.targetType? ht⟩
  rw [← h.accessibilityOf] at hrest
  exact variableOf_eq_ok.2 ⟨hends', htype', hrest⟩

/-- What two variables of one property never differ in. -/
lemma Wider.variable_eq (h : scope.Wider keys scope' keys')
    (hv : scope.variableOf className discriminator property = .ok v)
    (hv' : scope'.variableOf className discriminator property = .ok v') :
    v'.name = v.name ∧ v'.accessibility = v.accessibility ∧
      v'.isDiscriminator = v.isDiscriminator := by
  obtain ⟨-, -, haccessibility, hname, hflag⟩ := variableOf_eq_ok.1 hv
  obtain ⟨-, -, haccessibility', hname', hflag'⟩ := variableOf_eq_ok.1 hv'
  rw [h.accessibilityOf, haccessibility, Except.ok.injEq] at haccessibility'
  exact ⟨hname'.trans hname.symm, haccessibility'.symm, hflag'.trans hflag.symm⟩

end Scope

namespace ClassModel

variable {home : Value} {schemas schemas' : Entries Scalar Mapping}
  {components components' : Components}

/-- A document with more components has a wider scope. -/
lemma wider_scopeOf (registry : TypeRegistry) (accessibility : Accessibility)
    (htexts : Entries.TextKeys schemas) (htexts' : Entries.TextKeys schemas')
    (hlays' : Lays home schemas' components')
    (hkeys : Entries.keys schemas ⊆ Entries.keys schemas')
    (hcomponents : components ⊆ components') :
    (scopeOf registry accessibility schemas components).Wider (Entries.keys schemas)
      (scopeOf registry accessibility schemas' components') (Entries.keys schemas') where
  registry := rfl
  accessibility := rfl
  known := hkeys
  names := namesKeys_scopeOf registry accessibility components htexts
  names' := namesKeys_scopeOf registry accessibility components' htexts'
  components := Lineage.within_of_subset (hlays'.nodup_keys htexts') hcomponents

end ClassModel

end SchemaClasses
