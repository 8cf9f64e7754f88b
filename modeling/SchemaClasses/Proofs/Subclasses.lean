import SchemaClasses.Proofs.Acceptance
import SchemaClasses.Proofs.Discriminator

/-!
# Two views of the subclasses of a class

A class lists its subclasses with the values that select them; the list is made from the keys of the
components before any class exists.  A model finds the subclasses of a class by looking at the
superclasses of all its classes.  `subclasses_of_ofDocument` says that both see the same classes in
the same order, which is that of the document, and which value selects each of them.

The two views meet in the components: the children of a component and the classes found for its
class are related one by one (`children_of_subclassesOf`).  That a class is found under one
superclass only rests on no two classes having the same name and package.
-/

namespace SchemaClasses

open Lineage (Components find?)

/-! ## Types among classes -/

namespace ClassDef

/-- Classes have the same type exactly if they have the same name and package. -/
lemma type_beq_type (c d : ClassDef) : (c.type == d.type) = c.sameKey d := by
  change ((c.name == d.name) && ((c.package == d.package) && true)) = _
  rw [Bool.and_true, Bool.and_comm, sameKey]

lemma sameKey_self (c : ClassDef) : c.sameKey c = true := by simp [sameKey]

variable {found : List ClassDef} {d : ClassDef}

lemma count_type_eq_zero (hother : ∀ c ∈ found, c.sameKey d = false) :
    (found.map type).count d.type = 0 := by
  rw [List.count, List.countP_eq_zero]
  intro t ht
  obtain ⟨c, hc, rfl⟩ := List.mem_map.1 ht
  rw [type_beq_type, hother c hc]
  exact Bool.false_ne_true

/-- The type of a class that stands among different classes occurs there once. -/
lemma count_type_eq_one (hdistinct : found.Pairwise fun c d => c.sameKey d = false)
    (hd : d ∈ found) : (found.map type).count d.type = 1 := by
  obtain ⟨before, after, rfl⟩ := List.append_of_mem hd
  rw [List.pairwise_append, List.pairwise_cons] at hdistinct
  obtain ⟨-, ⟨hafter, -⟩, hbefore⟩ := hdistinct
  have hself : (d.type == d.type) = true := by rw [type_beq_type, sameKey_self]
  rw [List.map_append, List.map_cons, List.count_append, List.count_cons, if_pos hself,
    count_type_eq_zero fun c hc => hbefore c hc d List.mem_cons_self,
    count_type_eq_zero fun c hc => sameKey_comm d c ▸ hafter c hc]

end ClassDef

/-! ## Children -/

namespace Scope

variable {scope : Scope} {m : ClassModel} {home : Value} {schemas : Entries Scalar Mapping}
  {c e : Component Scalar} {d x : ClassDef}

lemma map_componentKey (hall : List.Forall₂ scope.Realizes scope.components m.classes) :
    m.classes.map (·.componentKey) = scope.components.map (·.key) := by
  symm
  refine map_eq_of_forall₂ hall ?_
  rintro c d ⟨ancestors, hd⟩
  exact hd.assembled.componentKey.symm

/-- **A class extends another exactly if its component has the other one's component as its
base.** -/
lemma superClass_eq_iff (hblueprint : Blueprint home schemas scope.components)
    (hall : List.Forall₂ scope.Realizes scope.components m.classes)
    (hc : scope.Realizes c d) (hd : d ∈ m.classes) (he : scope.Realizes e x) :
    x.superClass = some d ↔ e.base = some c.key := by
  have hkey : d.componentKey = c.key := by
    obtain ⟨ancestors, hc⟩ := hc
    exact hc.assembled.componentKey
  rw [ClassModel.superClass_iff hall he]
  constructor
  · intro hsuper
    exact ⟨d, hd, hkey, hsuper⟩
  · rintro ⟨s, hs, hskey, hsuper⟩
    have hkeys : (m.classes.map (·.componentKey)).Nodup := by
      rw [map_componentKey hall]
      exact hblueprint.nodup_keys
    rw [hsuper, List.inj_on_of_nodup_map hkeys hs hd (hskey.trans hkey.symm)]

lemma mem_of_superClass (hall : List.Forall₂ scope.Realizes scope.components m.classes)
    (hx : x ∈ m.classes) {s : ClassDef} (hs : x.superClass = some s) : s ∈ m.classes := by
  obtain ⟨e, -, ancestors, hrealizes⟩ := forall₂_right hall hx
  obtain ⟨-, -, hmem, -⟩ := forall₂_right (hrealizes.ancestors hall)
    (ClassDef.ancestors_of_some hs ▸ List.mem_cons_self)
  exact hmem

/-- A model takes a class for a subclass of another exactly if that one is its superclass. -/
lemma getD_sameKey_iff (hblueprint : Blueprint home schemas scope.components)
    (hall : List.Forall₂ scope.Realizes scope.components m.classes) (hd : d ∈ m.classes)
    (hx : x ∈ m.classes) :
    (x.superClass.map (·.sameKey d)).getD false = true ↔ x.superClass = some d := by
  cases hs : x.superClass with
  | none => simp
  | some s =>
      rw [Option.map_some, Option.getD_some, Option.some.injEq]
      constructor
      · intro hsame
        exact ClassModel.eq_of_sameKey
          (ClassModel.pairwise_sameKey_of_forall₂ hall hblueprint.distinct)
          (mem_of_superClass hall hx hs) hd hsame
      · rintro rfl
        exact ClassDef.sameKey_self s

lemma mem_subclassesOf_iff (hblueprint : Blueprint home schemas scope.components)
    (hall : List.Forall₂ scope.Realizes scope.components m.classes) (hd : d ∈ m.classes) :
    x ∈ m.subclassesOf d ↔ x ∈ m.classes ∧ x.superClass = some d := by
  rw [ClassModel.subclassesOf, List.mem_filter]
  exact and_congr_right fun hx => getD_sameKey_iff hblueprint hall hd hx

/-- **The children of a component and the classes found for its class are related one by one.** -/
lemma children_of_subclassesOf (hblueprint : Blueprint home schemas scope.components)
    (hall : List.Forall₂ scope.Realizes scope.components m.classes)
    (hc : scope.Realizes c d) (hd : d ∈ m.classes) :
    List.Forall₂ scope.Realizes (scope.components.filter (·.base == some c.key))
      (m.subclassesOf d) := by
  have hmem : List.Forall₂ (fun e x => scope.Realizes e x ∧ x ∈ m.classes) scope.components
      m.classes := forall₂_and_right.2 ⟨hall, fun x hx => hx⟩
  refine (List.rel_filter (fun e x he => ?_) hmem).imp fun e x he => he.1
  obtain ⟨hrealizes, hx⟩ := he
  have hbase := superClass_eq_iff hblueprint hall hc hd hrealizes
  rw [← getD_sameKey_iff hblueprint hall hd hx, ← beq_iff_eq (a := e.base)] at hbase
  exact hbase.symm

end Scope

/-! ## Selection -/

/-- A class lists another as the subclass that its discriminator selects by this value. -/
structure ClassDef.Selects (schemas : Entries Scalar Mapping) (c child : ClassDef)
    (ref : SubclassRef) : Prop where
  type : ref.type = child.type
  value : ∃ name schema, c.discriminatorName = some (.text name) ∧
    Entries.get? schemas (.text child.componentKey) = some schema ∧
    (Schema.selectingValue (.text child.componentKey, schema) name).shown = .ok ref.value

namespace Scope

variable {scope : Scope} {m : ClassModel} {home : Value} {schemas : Entries Scalar Mapping}
  {c e : Component Scalar} {d x : ClassDef}

/-- A class that another extends has a discriminator, whose name is a text. -/
lemma exists_discriminatorName (hblueprint : Blueprint home schemas scope.components)
    (hall : List.Forall₂ scope.Realizes scope.components m.classes) (hd : d ∈ m.classes)
    (he : scope.Realizes e x) (hsuper : x.superClass = some d) :
    ∃ name, d.discriminatorName = some (.text name) := by
  obtain ⟨above, he⟩ := he
  obtain ⟨n, hname, -⟩ := he.discriminatorName_super hall hsuper
  obtain ⟨c, -, ancestors, hc⟩ := forall₂_right hall hd
  obtain ⟨⟨name, rfl⟩, -⟩ := hc.exists_declared hblueprint hall hname
  exact ⟨name, hname⟩

/-- A class selects the classes of its children by the values that their schemas give. -/
lemma selects_of_links (hblueprint : Blueprint home schemas scope.components)
    (hall : List.Forall₂ scope.Realizes scope.components m.classes)
    (hc : scope.Realizes c d) (hd : d ∈ m.classes) (hchild : e ∈ scope.components)
    (hbase : e.base = some c.key) (he : scope.Realizes e x) {ref : SubclassRef}
    (hlinks : Links d.discriminatorName e ref) : d.Selects schemas x ref := by
  have hsuper := (superClass_eq_iff hblueprint hall hc hd he).2 hbase
  obtain ⟨name, hname⟩ := exists_discriminatorName hblueprint hall hd he hsuper
  obtain ⟨schema, hschema, hdescribes, -⟩ := hblueprint.describes_of_find?
    (Lineage.find?_of_mem hblueprint.nodup_keys hchild)
  obtain ⟨hvalue, htype⟩ := hlinks
  obtain ⟨above, hrealizes⟩ := he
  have hassembled := hrealizes.assembled
  rw [hname, selectingValue_eq hdescribes] at hvalue
  refine ⟨htype.trans hassembled.type_eq.symm, name, schema, hname, ?_, ?_⟩
  · rw [hassembled.componentKey, hschema]
  · rw [hassembled.componentKey, hvalue]

/-- **The list of a class and the view of its model agree**, entry by entry. -/
lemma selects_subclassesOf (hblueprint : Blueprint home schemas scope.components)
    (hall : List.Forall₂ scope.Realizes scope.components m.classes) (hd : d ∈ m.classes) :
    List.Forall₂ (d.Selects schemas) (m.subclassesOf d) d.subclasses := by
  obtain ⟨c, -, hc⟩ := forall₂_right hall hd
  obtain ⟨ancestors, hrealizes⟩ := id hc
  have hchildren := children_of_subclassesOf hblueprint hall hc hd
  have hassembled := hrealizes.assembled
  obtain ⟨hlinks, -⟩ := subclassesOf_eq_ok.1 hassembled.subclasses
  have hmem : ∀ e ∈ scope.components.filter (·.base == some c.key),
      e ∈ scope.components ∧ e.base = some c.key := by simp
  refine forall₂_comp.1 ⟨_, hchildren.flip, (List.forall₂_and_left _ _).2 ⟨hmem, hlinks⟩⟩ |>.imp ?_
  rintro x ref ⟨e, he, ⟨hchild, hbase⟩, hlink⟩
  rw [← hassembled.discriminatorName] at hlink
  exact selects_of_links hblueprint hall hc hd hchild hbase he hlink

lemma map_type_subclasses (hblueprint : Blueprint home schemas scope.components)
    (hall : List.Forall₂ scope.Realizes scope.components m.classes) (hd : d ∈ m.classes) :
    d.subclasses.map (·.type) = (m.subclassesOf d).map ClassDef.type :=
  (map_eq_of_forall₂ (selects_subclassesOf hblueprint hall hd) fun _ _ hx => hx.type.symm).symm

/-- There is one class for every key, in document order. -/
lemma map_text_componentKey (hblueprint : Blueprint home schemas scope.components)
    (hall : List.Forall₂ scope.Realizes scope.components m.classes) :
    m.classes.map (fun c => Scalar.text c.componentKey) = Entries.keys schemas := by
  have hkeys := congrArg (List.map Scalar.text) (map_componentKey hall)
  rw [List.map_map, List.map_map] at hkeys
  rw [hblueprint.keys_eq]
  exact hkeys

end Scope

namespace ClassModel

variable {m : ClassModel} {home : Value} {registry : TypeRegistry} {accessibility : Accessibility}

/-- **The two views of the subclass relation agree.**  A class lists the classes that extend it, in
document order, each with the value that selects it, and no two with the same value.  A class with a
superclass is listed by this superclass, once, and by no other class. -/
theorem subclasses_of_ofDocument {doc : Document} (hdoc : doc.TextKeyed)
    (h : ofDocument doc home registry accessibility = .ok m) :
    ∃ schemas, doc.schemas = .ok schemas ∧
      m.classes.map (fun c => Scalar.text c.componentKey) = Entries.keys schemas ∧
      (∀ c ∈ m.classes,
        c.subclasses.map (·.type) = (m.subclassesOf c).map ClassDef.type ∧
        List.Forall₂ (c.Selects schemas) (m.subclassesOf c) c.subclasses ∧
        (c.subclasses.map (·.value)).Nodup) ∧
      ∀ d ∈ m.classes, ∀ s, d.superClass = some s →
        s ∈ m.classes ∧ (s.subclasses.map (·.type)).count d.type = 1 ∧
        ∀ c ∈ m.classes, c ≠ s → (c.subclasses.map (·.type)).count d.type = 0 := by
  obtain ⟨schemas, components, hschemas, hblueprint, hall⟩ := blueprint_of_ofDocument hdoc h
  have hdistinct := pairwise_sameKey_of_forall₂ hall hblueprint.distinct
  have htypes := fun c (hc : c ∈ m.classes) => Scope.map_type_subclasses hblueprint hall hc
  refine ⟨schemas, hschemas, Scope.map_text_componentKey hblueprint hall,
    fun c hc => ⟨htypes c hc, Scope.selects_subclassesOf hblueprint hall hc, ?_⟩,
    fun d hd s hs => ?_⟩
  · obtain ⟨b, -, ancestors, hb⟩ := forall₂_right hall hc
    exact (Scope.subclassesOf_eq_ok.1 hb.assembled.subclasses).2
  · have hmem := Scope.mem_of_superClass hall hd hs
    refine ⟨hmem, ?_, fun c hc hne => ?_⟩
    · rw [htypes s hmem]
      refine ClassDef.count_type_eq_one (hdistinct.sublist List.filter_sublist) ?_
      exact (Scope.mem_subclassesOf_iff hblueprint hall hmem).2 ⟨hd, hs⟩
    · rw [htypes c hc]
      refine ClassDef.count_type_eq_zero fun x hx => ?_
      obtain ⟨hx, hsuper⟩ := (Scope.mem_subclassesOf_iff hblueprint hall hc).1 hx
      -- A class of the same name and package would be the class itself, with another superclass.
      by_contra hsame
      rw [Bool.not_eq_false] at hsame
      obtain rfl := eq_of_sameKey hdistinct hx hd hsame
      exact hne (Option.some.inj (hsuper.symm.trans hs))

/-! ## Three ways to be selected -/

/-- A cat is selected by a constant, a dog by the only value of an enumeration, and a bird, which
stands before what it extends, by the name of its class. -/
def pets : Entries Scalar Mapping := [
  (.text "bird", [(.text "allOf", .list [
    .mapping [(.text "$ref", .text "#/components/schemas/animal")]])]),
  (.text "animal", [
    (.text "discriminator", .text "kind"),
    (.text "properties", .mapping [(.text "kind", .mapping [(.text "type", .text "string")])])]),
  (.text "cat", [(.text "allOf", .list [
    .mapping [(.text "$ref", .text "#/components/schemas/animal")],
    .mapping [(.text "properties", .mapping [
      (.text "kind", .mapping [
        (.text "type", .text "integer"), (.text "const", .scalar (.int 7))])])]])]),
  (.text "dog", [(.text "allOf", .list [
    .mapping [(.text "$ref", .text "#/components/schemas/animal")],
    .mapping [(.text "properties", .mapping [
      (.text "kind", .mapping [
        (.text "type", .text "string"), (.text "enum", .list [.text "hound"])])])]])])]

lemma exists_model_pets : ∃ m, ofDocument (.ofSchemas pets) (.text "App") {} .owner = .ok m ∧
    m.classes.map (fun c => c.subclasses.map (·.value)) = [[], ["Bird", "7", "hound"], [], []] := by
  exact exists_ok_of_toOption (by decide +kernel)

theorem subclasses_of_pets :
    (Document.ofSchemas pets).TextKeyed ∧
    ∃ m, ofDocument (.ofSchemas pets) (.text "App") {} .owner = .ok m ∧
      m.classes.map (fun c => c.subclasses.map (·.value)) = [[], ["Bird", "7", "hound"], [], []] ∧
      ∃ schemas, (Document.ofSchemas pets).schemas = .ok schemas ∧
        m.classes.map (fun c => Scalar.text c.componentKey) = Entries.keys schemas ∧
        (∀ c ∈ m.classes,
          c.subclasses.map (·.type) = (m.subclassesOf c).map ClassDef.type ∧
          List.Forall₂ (c.Selects schemas) (m.subclassesOf c) c.subclasses ∧
          (c.subclasses.map (·.value)).Nodup) ∧
        ∀ d ∈ m.classes, ∀ s, d.superClass = some s →
          s ∈ m.classes ∧ (s.subclasses.map (·.type)).count d.type = 1 ∧
          ∀ c ∈ m.classes, c ≠ s → (c.subclasses.map (·.type)).count d.type = 0 := by
  have hkeyed : (Document.ofSchemas pets).TextKeyed := by decide
  obtain ⟨m, hm, hvalues⟩ := exists_model_pets
  exact ⟨hkeyed, m, hm, hvalues, subclasses_of_ofDocument hkeyed hm⟩

end ClassModel

end SchemaClasses
