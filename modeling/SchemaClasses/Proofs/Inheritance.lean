import Mathlib.Data.List.Pairwise
import SchemaClasses.Proofs.Evaluation

/-!
# Classes and their superclasses

A model follows its document: one class per component in document order, named after the key of the
component, and linked to other classes of the model exactly as the references among the components
say.  The order in which components stand in the document plays no part in it.

`hierarchy_of_ofDocument` is the whole statement.  It rests on three facts about a single class:
no other class has its name and package (`pairwise_sameKey_of_forall₂`), its superclass is a class
of the model (`superClass_iff`), and its ancestors never meet a class twice (`pairwise_ancestors`).
-/

namespace SchemaClasses

open Lineage (Components Chain find?)

lemma ClassDef.sameKey_comm (c d : ClassDef) : c.sameKey d = d.sameKey c := by
  rw [sameKey, sameKey, BEq.comm, BEq.comm (a := c.name)]

lemma Component.sameClass_comm (c d : Component Scalar) : c.sameClass d = d.sameClass c := by
  rw [sameClass, sameClass, BEq.comm, BEq.comm (a := c.className)]

namespace ClassModel

/-- **A class is the class of a component.**  It has the component's key and the name made from it,
and its superclass is the class of the component that the reference among the parts names. -/
structure ClassOf (m : ClassModel) (entry : Scalar × Mapping) (d : ClassDef) : Prop where
  key : entry.1 = .text d.componentKey
  name : d.name = Text.pascalCase d.componentKey
  extends_iff : (∃ s, d.superClass = some s) ↔ Schema.references entry.2 ≠ []
  superClass_iff : ∀ base, Schema.Extends entry.2 base ↔
    ∃ s ∈ m.classes, s.componentKey = base ∧ d.superClass = some s

variable {m : ClassModel} {home : Value} {schemas : Entries Scalar Mapping} {scope : Scope}

/-! ## No class twice -/

instance : Std.Symm fun c d : ClassDef => c.sameKey d = false where
  symm c d h := c.sameKey_comm d ▸ h

instance : Std.Symm fun c d : Component Scalar => c.sameClass d = false where
  symm c d h := c.sameClass_comm d ▸ h

/-- Classes built for components that make different classes are different. -/
lemma pairwise_sameKey_of_forall₂ {components : Components} {classes : List ClassDef}
    (hclasses : List.Forall₂ scope.Realizes components classes)
    (hdistinct : Component.Distinct components) :
    classes.Pairwise fun c d => c.sameKey d = false := by
  refine (pairwise_iff_of_forall₂ hclasses ?_).1 hdistinct
  rintro c d c' d' ⟨_, hd⟩ ⟨_, hd'⟩
  rw [Component.sameClass, ClassDef.sameKey, hd.assembled.package, hd.assembled.name,
    hd'.assembled.package, hd'.assembled.name]

/-- Among different classes, only the class itself has its name and package. -/
lemma eq_of_sameKey {classes : List ClassDef}
    (hdistinct : classes.Pairwise fun c d => c.sameKey d = false) {c d : ClassDef}
    (hc : c ∈ classes) (hd : d ∈ classes) (h : c.sameKey d = true) : c = d := by
  by_contra hne
  have hdiffer := hdistinct.forall hc hd hne
  rw [h] at hdiffer
  exact Bool.noConfusion hdiffer

lemma get?_of_mem (hdistinct : m.classes.Pairwise fun c d => c.sameKey d = false) {c : ClassDef}
    (hc : c ∈ m.classes) : m.get? c.package c.name = some c := by
  have hself : c.sameKey c = true := by simp [ClassDef.sameKey]
  rw [get?]
  cases hfind : m.classes.reverse.find? fun d => d.package == c.package && d.name == c.name with
  | none => exact absurd hself (List.find?_eq_none.1 hfind c (List.mem_reverse.2 hc))
  | some d =>
      have hsame := List.find?_some hfind
      rw [eq_of_sameKey hdistinct (List.mem_reverse.1 (List.mem_of_find?_eq_some hfind)) hc hsame]

/-- The components on a chain make different classes, as all components do. -/
lemma distinct_of_chain {components chain : Components} {start : Option String}
    (hdistinct : Component.Distinct components) (hchain : Chain components start chain) :
    Component.Distinct chain := by
  have hmem : ∀ d ∈ chain, d ∈ components := fun d hd =>
    Lineage.mem_of_find? (hchain.from_mem hd).1
  have hne : chain.Pairwise (· ≠ ·) := List.Nodup.of_map (·.key) hchain.nodup
  refine hne.imp_of_mem fun {c d} hc hd hcd => ?_
  exact hdistinct.forall (hmem c hc) (hmem d hd) hcd

/-! ## Superclasses and ancestors -/

/-- **A class and its ancestors are all different.** -/
lemma pairwise_ancestors {c : Component Scalar} {d : ClassDef}
    (hdistinct : Component.Distinct scope.components)
    (hall : List.Forall₂ scope.Realizes scope.components m.classes) (h : scope.Realizes c d) :
    (d :: d.ancestors).Pairwise fun c d => c.sameKey d = false := by
  obtain ⟨ancestors, hd⟩ := h
  have hancestors : List.Forall₂ scope.Realizes ancestors d.ancestors :=
    (hd.ancestors hall).imp fun e s hs => hs.2
  exact pairwise_sameKey_of_forall₂ (.cons ⟨ancestors, hd⟩ hancestors)
    (distinct_of_chain hdistinct hd.chain)

lemma map_componentKey_ancestors {c : Component Scalar} {ancestors : Components} {d : ClassDef}
    (hall : List.Forall₂ scope.Realizes scope.components m.classes)
    (h : scope.RealizesAlong c ancestors d) :
    d.ancestors.map (·.componentKey) = ancestors.map (·.key) := by
  symm
  refine map_eq_of_forall₂ (h.ancestors hall) ?_
  rintro e s ⟨-, _, hs⟩
  exact hs.assembled.componentKey.symm

/-- **A class has a superclass exactly if its component has a base**, and then it is the class of
the model that was made from this base. -/
lemma superClass_iff {c : Component Scalar} {d : ClassDef}
    (hall : List.Forall₂ scope.Realizes scope.components m.classes) (h : scope.Realizes c d)
    (base : String) :
    c.base = some base ↔ ∃ s ∈ m.classes, s.componentKey = base ∧ d.superClass = some s := by
  obtain ⟨ancestors, hd⟩ := h
  have hstart : Chain scope.components c.base ancestors := by
    cases hd.chain with
    | cons _ hrest => exact hrest
  cases ancestors with
  | nil =>
      have hnone : c.base = none := by
        generalize c.base = start at hstart
        cases hstart
        rfl
      simp [hnone, hd.superClass_of_nil]
  | cons e rest =>
      obtain ⟨s, hs, hsuper, hrealizes⟩ := hd.superClass_of_cons hall
      have hsome : c.base = some e.key := by
        generalize c.base = start at hstart
        cases hstart with
        | cons he _ => rw [Lineage.key_of_find? he]
      rw [hsome, hsuper]
      constructor
      · intro hbase
        exact ⟨s, hs, by rw [hrealizes.assembled.componentKey, Option.some.inj hbase], rfl⟩
      · rintro ⟨s', -, rfl, hs'⟩
        rw [← Option.some.inj hs', hrealizes.assembled.componentKey]

/-- A class built for a component of a blueprint is the class of its schema. -/
lemma classOf_of_realizes {entry : Scalar × Mapping} {c : Component Scalar} {d : ClassDef}
    (hall : List.Forall₂ scope.Realizes scope.components m.classes)
    (hdescribes : Component.Describes (Entries.keys schemas) entry c)
    (h : scope.Realizes c d) : m.ClassOf entry d := by
  have hsuper := superClass_iff hall h
  obtain ⟨ancestors, hd⟩ := h
  refine ⟨?_, ?_, ?_, fun base => ?_⟩
  · rw [hdescribes.key, hd.assembled.componentKey]
  · rw [hd.assembled.name, hdescribes.className, hd.assembled.componentKey]
  · rw [ne_eq, ← hdescribes.baseless]
    cases hbase : c.base with
    | none =>
        obtain rfl : ancestors = [] := by
          cases hd.chain with
          | cons _ hrest =>
              rw [hbase] at hrest
              cases hrest
              rfl
        simp [hd.superClass_of_nil]
    | some base =>
        obtain ⟨s, -, -, hs⟩ := (hsuper base).1 hbase
        simp [hs]
  · rw [← hdescribes.base, hsuper]

/-- **A model follows its document.**  It has one class per schema component, in document order,
and no two classes have the same name and package, so each is found under its own.  The superclass
of a class is the class of the component that its component refers to, wherever it stands; its
ancestors follow the chain of these references to its end, and no class is met twice. -/
theorem hierarchy_of_ofDocument {doc : Document} {registry : TypeRegistry}
    {accessibility : Accessibility} (hdoc : doc.TextKeyed)
    (h : ofDocument doc home registry accessibility = .ok m) :
    ∃ schemas, doc.schemas = .ok schemas ∧
      List.Forall₂ m.ClassOf schemas m.classes ∧
      (m.classes.Pairwise fun c d => c.sameKey d = false) ∧
      (∀ c ∈ m.classes, m.get? c.package c.name = some c) ∧
      ∀ c ∈ m.classes,
        Schema.BaseChain schemas c.componentKey (c.ancestors.map (·.componentKey)) ∧
        c.ancestors ⊆ m.classes ∧
        (c :: c.ancestors).Pairwise fun c d => c.sameKey d = false := by
  obtain ⟨schemas, components, hschemas, hblueprint, hall⟩ := blueprint_of_ofDocument hdoc h
  have hdistinct := pairwise_sameKey_of_forall₂ hall hblueprint.distinct
  refine ⟨schemas, hschemas, ?_, hdistinct, fun c hc => get?_of_mem hdistinct hc,
    fun d hd => ?_⟩
  · refine (forall₂_comp.1 ⟨components, hblueprint.described, hall⟩).imp ?_
    rintro entry d ⟨c, ⟨hdescribes, -⟩, hrealizes⟩
    exact classOf_of_realizes hall hdescribes hrealizes
  · obtain ⟨c, hc, ancestors, hrealizes⟩ := forall₂_right hall hd
    refine ⟨?_, fun s hs => ?_, pairwise_ancestors hblueprint.distinct hall ⟨_, hrealizes⟩⟩
    · rw [map_componentKey_ancestors hall hrealizes, hrealizes.assembled.componentKey]
      exact hblueprint.baseChain_of_chain hrealizes.chain
    · obtain ⟨_, -, hmem, -⟩ := forall₂_right (hrealizes.ancestors hall) hs
      exact hmem

/-! ## A hierarchy in reverse order -/

/-- A puppy extends a dog, which extends an animal; each stands before what it extends. -/
def puppies : Entries Scalar Mapping := [
  (.text "puppy", [(.text "allOf", .list [
    .mapping [(.text "$ref", .text "#/components/schemas/dog")]])]),
  (.text "dog", [(.text "allOf", .list [
    .mapping [(.text "$ref", .text "#/components/schemas/animal")],
    .mapping [(.text "properties", .mapping [
      (.text "kind", .mapping [(.text "type", .text "string"), (.text "const", .text "dog")]),
      (.text "owner", .mapping [(.text "type", .text "Animal")])])]])]),
  (.text "animal", [
    (.text "discriminator", .text "kind"),
    (.text "x-package", .text "Zoo"),
    (.text "properties", .mapping [(.text "kind", .mapping [(.text "type", .text "string")])])])]

lemma textKeyed_puppies : (Document.ofSchemas puppies).TextKeyed := by decide

lemma exists_model_puppies : ∃ m, ofDocument (.ofSchemas puppies) (.text "App") {} .owner = .ok m ∧
    m.classes.map (·.name) = ["Puppy", "Dog", "Animal"] := by
  exact exists_ok_of_toOption (by decide +kernel)

theorem hierarchy_of_puppies :
    (Document.ofSchemas puppies).TextKeyed ∧
    ∃ m, ofDocument (.ofSchemas puppies) (.text "App") {} .owner = .ok m ∧
      m.classes.map (·.name) = ["Puppy", "Dog", "Animal"] ∧
      ∃ schemas, (Document.ofSchemas puppies).schemas = .ok schemas ∧
        List.Forall₂ m.ClassOf schemas m.classes ∧
        (m.classes.Pairwise fun c d => c.sameKey d = false) ∧
        (∀ c ∈ m.classes, m.get? c.package c.name = some c) ∧
        ∀ c ∈ m.classes,
          Schema.BaseChain schemas c.componentKey (c.ancestors.map (·.componentKey)) ∧
          c.ancestors ⊆ m.classes ∧
          (c :: c.ancestors).Pairwise fun c d => c.sameKey d = false := by
  obtain ⟨m, hm, hnames⟩ := exists_model_puppies
  exact ⟨textKeyed_puppies, m, hm, hnames, hierarchy_of_ofDocument textKeyed_puppies hm⟩

end ClassModel

end SchemaClasses
