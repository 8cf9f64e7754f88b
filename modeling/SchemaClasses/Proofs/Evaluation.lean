import SchemaClasses.Hierarchy.Evaluation
import SchemaClasses.Proofs.Blueprint

/-!
# How a class model comes about

`ClassModel.ofDocument` runs in passes over all components.  This file turns its success into two
facts, from which all statements about models start:

* a `Blueprint`: the components are described one by one, in document order, their packages are
  settled, and no two of them make the same class;
* `Realizes`: every class is the one built for its component along its chain of bases, whose
  discriminators are in order.

`ofDocument_passes` says that a document has a model exactly if it has both.  `Realizes` is about
one class only, and `RealizesAlong.superClass_of_cons` ties the classes together: the superclass
that a class holds is the class of the model that was built for the base.
-/

namespace SchemaClasses

open Lineage (Components Chain InOrder find? discriminator?)

/-! ## Classes -/

namespace ClassDef

lemma ancestors_of_none {d : ClassDef} (h : d.superClass = none) : d.ancestors = [] := by
  obtain ⟨name, package, superClass, fields, subclasses, discriminator, key⟩ := d
  obtain rfl : superClass = none := h
  rw [ancestors]

lemma ancestors_of_some {d s : ClassDef} (h : d.superClass = some s) :
    d.ancestors = s :: s.ancestors := by
  obtain ⟨name, package, superClass, fields, subclasses, discriminator, key⟩ := d
  obtain rfl : superClass = some s := h
  rw [ancestors]

end ClassDef

namespace Scope

variable {scope : Scope} {c : Component Scalar} {d : ClassDef}

/-- **A class is built for a component.**  The lineage of the component is in order, and the class
is what building it along this lineage gives. -/
structure RealizesAlong (scope : Scope) (c : Component Scalar) (ancestors : Components)
    (d : ClassDef) : Prop extends InOrder scope.components c ancestors where
  built : scope.build c ancestors = .ok d

/-- A class is built for a component along some chain. -/
def Realizes (scope : Scope) (c : Component Scalar) (d : ClassDef) : Prop :=
  ∃ ancestors, scope.RealizesAlong c ancestors d

lemma Realizes.unique {d' : ClassDef} (h : scope.Realizes c d) (h' : scope.Realizes c d') :
    d = d' := by
  obtain ⟨ancestors, h⟩ := h
  obtain ⟨ancestors', h'⟩ := h'
  obtain ⟨-, rfl⟩ := List.cons.inj (h.chain.unique h'.chain)
  exact Except.ok.inj (h.built.symm.trans h'.built)

lemma assemble_eq_ok {ancestors : Components} {superClass : Option ClassDef} :
    scope.assemble c ancestors superClass = .ok d ↔
      ∃ fields subclasses,
        List.Forall₂ (fun property v =>
          scope.variableOf c.className (discriminator? (c :: ancestors)) property = .ok v)
          c.properties fields ∧
        scope.subclassesOf c (discriminator? (c :: ancestors)) = .ok subclasses ∧
        d = {
          name := c.className
          package := c.package
          superClass := superClass
          instanceVariables := fields
          subclasses := subclasses
          discriminatorName := discriminator? (c :: ancestors)
          componentKey := c.key } := by
  rw [assemble]
  simp only [bind_eq_ok, traverse_eq_ok_iff]
  constructor
  · rintro ⟨fields, hfields, subclasses, hsubclasses, hd⟩
    exact ⟨fields, subclasses, hfields, hsubclasses, (Except.ok.inj hd).symm⟩
  · rintro ⟨fields, subclasses, hfields, hsubclasses, rfl⟩
    exact ⟨fields, hfields, subclasses, hsubclasses, rfl⟩

lemma build_eq_ok {ancestors : Components} :
    scope.build c ancestors = .ok d ↔
      ∃ superClass, scope.assemble c ancestors superClass = .ok d ∧
        match ancestors, superClass with
        | [], none => True
        | base :: rest, some s => scope.build base rest = .ok s
        | _, _ => False := by
  cases ancestors with
  | nil =>
      rw [build]
      constructor
      · intro h
        exact ⟨none, h, trivial⟩
      · rintro ⟨_ | s, h, hs⟩
        · exact h
        · exact hs.elim
  | cons base rest =>
      rw [build]
      constructor
      · intro h
        split at h
        · simp at h
        · rename_i s hs
          exact ⟨some s, h, hs⟩
      · rintro ⟨_ | s, h, hs⟩
        · exact hs.elim
        · simp only at hs
          rw [hs]
          exact h

/-- What a class takes over from its component and its chain of bases. -/
structure Assembled (scope : Scope) (c : Component Scalar) (ancestors : Components)
    (d : ClassDef) : Prop where
  name : d.name = c.className
  package : d.package = c.package
  componentKey : d.componentKey = c.key
  discriminatorName : d.discriminatorName = discriminator? (c :: ancestors)
  instanceVariables : List.Forall₂ (fun property v =>
    scope.variableOf c.className (discriminator? (c :: ancestors)) property = .ok v)
    c.properties d.instanceVariables
  subclasses : scope.subclassesOf c (discriminator? (c :: ancestors)) = .ok d.subclasses

lemma Assembled.type_eq {ancestors : Components} (h : scope.Assembled c ancestors d) :
    d.type = c.type := by
  rw [ClassDef.type, Component.type, h.name, h.package]

lemma assembled_of_build {ancestors : Components} (h : scope.build c ancestors = .ok d) :
    scope.Assembled c ancestors d := by
  obtain ⟨superClass, hassemble, -⟩ := build_eq_ok.1 h
  obtain ⟨fields, subclasses, hfields, hsubclasses, rfl⟩ := assemble_eq_ok.1 hassemble
  exact ⟨rfl, rfl, rfl, rfl, hfields, hsubclasses⟩

lemma RealizesAlong.assembled {ancestors : Components}
    (h : scope.RealizesAlong c ancestors d) : scope.Assembled c ancestors d :=
  assembled_of_build h.built

lemma RealizesAlong.superClass_of_nil (h : scope.RealizesAlong c [] d) : d.superClass = none := by
  obtain ⟨_ | s, hassemble, hs⟩ := build_eq_ok.1 h.built
  · obtain ⟨fields, subclasses, -, -, rfl⟩ := assemble_eq_ok.1 hassemble
    rfl
  · exact hs.elim

/-- **The superclass that a class holds is the class built for its base**, and one of the given
classes if these are built for all components. -/
theorem RealizesAlong.superClass_of_cons {classes : List ClassDef} {base : Component Scalar}
    {rest : Components} (hall : List.Forall₂ scope.Realizes scope.components classes)
    (h : scope.RealizesAlong c (base :: rest) d) :
    ∃ s ∈ classes, d.superClass = some s ∧ scope.RealizesAlong base rest s := by
  obtain ⟨_ | s, hassemble, hs⟩ := build_eq_ok.1 h.built
  · exact hs.elim
  · obtain ⟨fields, subclasses, -, -, rfl⟩ := assemble_eq_ok.1 hassemble
    have hchain := h.chain.tail
    obtain ⟨s', hs', ancestors, hrealizes⟩ :=
      forall₂_left hall (Lineage.mem_of_find? (hchain.from_mem List.mem_cons_self).1)
    -- Both classes are built along the chain of the base, of which there is only one.
    obtain ⟨-, rfl⟩ := List.cons.inj (hchain.unique hrealizes.chain)
    obtain rfl : s = s' := Except.ok.inj (hs.symm.trans hrealizes.built)
    exact ⟨s, hs', rfl, hrealizes⟩

/-- **The ancestors of a class are the classes built for the components further up its chain.** -/
theorem RealizesAlong.ancestors {classes : List ClassDef} {ancestors : Components}
    (hall : List.Forall₂ scope.Realizes scope.components classes)
    (h : scope.RealizesAlong c ancestors d) :
    List.Forall₂ (fun e s => s ∈ classes ∧ scope.Realizes e s) ancestors d.ancestors := by
  induction ancestors generalizing c d with
  | nil =>
      rw [ClassDef.ancestors_of_none h.superClass_of_nil]
      exact .nil
  | cons base rest ih =>
      obtain ⟨s, hs, hsuper, hbase⟩ := h.superClass_of_cons hall
      rw [ClassDef.ancestors_of_some hsuper]
      exact .cons ⟨hs, rest, hbase⟩ (ih hbase)

/-! ## Variables -/

lemma inField_eq_ok {α : Type} {className : String} {field : Scalar} {x : Except ModelFault α}
    {a : α} : inField className field x = .ok a ↔ x = .ok a := by
  cases x <;> simp [inField]

/-- A property makes a variable exactly if its schema has a type and an accessibility. -/
lemma variableOf_eq_ok {className : String} {discriminator : Option Scalar}
    {property : Scalar × Mapping} {v : InstanceVariable} :
    scope.variableOf className discriminator property = .ok v ↔
      wrapsEndlessly [] property.2 = false ∧ scope.typeOf property.2 = .ok v.type ∧
        scope.accessibilityOf property.2 = .ok v.accessibility ∧ v.name = property.1 ∧
        v.isDiscriminator = property.1.equals (discriminator.getD .null) := by
  obtain ⟨name, schema⟩ := property
  rw [variableOf]
  dsimp only
  by_cases hends : wrapsEndlessly [] schema = true
  · simp [hends, bind_eq_ok]
  · rw [Bool.not_eq_true] at hends
    simp only [hends, Bool.false_eq_true, if_false, bind_eq_ok, inField_eq_ok, true_and]
    constructor
    · rintro ⟨type, htype, accessibility, haccessibility, hv⟩
      obtain rfl := Except.ok.inj hv
      exact ⟨htype, haccessibility, rfl, rfl⟩
    · rintro ⟨htype, haccessibility, hname, hflag⟩
      obtain ⟨vname, vtype, vaccessibility, vflag⟩ := v
      simp only at htype haccessibility hname hflag
      exact ⟨vtype, htype, vaccessibility, haccessibility, by rw [hname, hflag]; rfl⟩

lemma Assembled.map_name {ancestors : Components} (h : scope.Assembled c ancestors d) :
    d.instanceVariables.map (·.name) = c.properties.map (·.1) := by
  symm
  refine map_eq_of_forall₂ h.instanceVariables fun property v hv => ?_
  obtain ⟨-, -, -, hname, -⟩ := variableOf_eq_ok.1 hv
  exact hname.symm

/-! ## Subclasses -/

/-- A subclass is linked by its selecting value. -/
def Links (discriminator : Option Scalar) (child : Component Scalar) (ref : SubclassRef) : Prop :=
  selectingValue child discriminator = .ok ref.value ∧ ref.type = child.type

lemma linkSubclasses_cons_eq_ok {className : String} {discriminator : Option Scalar}
    {linked result : List SubclassRef} {child : Component Scalar} {rest : Components} :
    linkSubclasses className discriminator linked (child :: rest) = .ok result ↔
      ∃ ref, Links discriminator child ref ∧ ref.value ∉ linked.map (·.value) ∧
        linkSubclasses className discriminator (linked ++ [ref]) rest = .ok result := by
  rw [linkSubclasses, bind_eq_ok]
  constructor
  · rintro ⟨value, hvalue, h⟩
    split at h
    · simp at h
    · rename_i hnone
      exact ⟨⟨value, child.type⟩, ⟨hvalue, rfl⟩, by simpa using hnone, h⟩
  · rintro ⟨⟨value, type⟩, ⟨hvalue, rfl⟩, hnew, h⟩
    have hnone : linked.find? (·.value == value) = none := by simpa using hnew
    refine ⟨value, hvalue, ?_⟩
    rw [hnone]
    exact h

/-- **Subclasses are linked exactly if each has a selecting value and no two have the same.** -/
theorem linkSubclasses_eq_ok {className : String} {discriminator : Option Scalar}
    {linked result : List SubclassRef} {children : Components}
    (hlinked : (linked.map (·.value)).Nodup) :
    linkSubclasses className discriminator linked children = .ok result ↔
      ∃ new, List.Forall₂ (Links discriminator) children new ∧
        ((linked ++ new).map (·.value)).Nodup ∧ result = linked ++ new := by
  induction children generalizing linked with
  | nil =>
      simp only [linkSubclasses, List.forall₂_nil_left_iff, Except.ok.injEq]
      constructor
      · rintro rfl
        exact ⟨[], rfl, by simpa using hlinked, by simp⟩
      · rintro ⟨_, rfl, -, rfl⟩
        simp
  | cons child rest ih =>
      have hsplit : ∀ (ref : SubclassRef) (new : List SubclassRef),
          linked ++ ref :: new = (linked ++ [ref]) ++ new := by simp
      have hnodup : ∀ ref : SubclassRef, ref.value ∉ linked.map (·.value) →
          ((linked ++ [ref]).map (·.value)).Nodup := by
        intro ref hnew
        rw [List.map_append, List.map_singleton, List.nodup_append]
        exact ⟨hlinked, List.nodup_singleton _, fun a ha b hb hab =>
          hnew (List.mem_singleton.1 hb ▸ hab ▸ ha)⟩
      rw [linkSubclasses_cons_eq_ok]
      constructor
      · rintro ⟨ref, hlinks, hnew, h⟩
        obtain ⟨new, hrest, hdistinct, rfl⟩ := (ih (hnodup ref hnew)).1 h
        rw [← hsplit] at hdistinct ⊢
        exact ⟨ref :: new, .cons hlinks hrest, hdistinct, rfl⟩
      · rintro ⟨_, hall, hdistinct, rfl⟩
        cases hall with
        | @cons _ ref _ new hlinks hrest =>
            have hnew : ref.value ∉ linked.map (·.value) := by
              rw [List.map_append, List.nodup_append] at hdistinct
              exact fun hmem => hdistinct.2.2 _ hmem _ List.mem_cons_self rfl
            rw [hsplit] at hdistinct
            exact ⟨ref, hlinks, hnew,
              (ih (hnodup ref hnew)).2 ⟨new, hrest, hdistinct, hsplit ref new⟩⟩

/-- The subclasses of a class are those of the components with its component as their base. -/
lemma subclassesOf_eq_ok {discriminator : Option Scalar} {subclasses : List SubclassRef} :
    scope.subclassesOf c discriminator = .ok subclasses ↔
      List.Forall₂ (Links discriminator) (scope.components.filter (·.base == some c.key))
        subclasses ∧ (subclasses.map (·.value)).Nodup := by
  rw [subclassesOf, linkSubclasses_eq_ok (by simp)]
  simp only [List.nil_append]
  constructor
  · rintro ⟨_, hnew, hdistinct, rfl⟩
    exact ⟨hnew, hdistinct⟩
  · rintro ⟨hnew, hdistinct⟩
    exact ⟨_, hnew, hdistinct, rfl⟩

end Scope

/-! ## Models -/

namespace ClassModel

variable {doc : Document} {home : Value} {registry : TypeRegistry}
  {accessibility : Accessibility} {m : ClassModel}

/-- **Described components have a model exactly if every one of them has its class.** -/
theorem ofComponents_eq_ok {classNames : List (Scalar × String)} {components : Components}
    (hkeys : (components.map (·.key)).Nodup) :
    ofComponents registry accessibility classNames components = .ok m ↔
      List.Forall₂ (Scope.Realizes ⟨registry, components, classNames, accessibility⟩)
        components m.classes := by
  have hpasses : ofComponents registry accessibility classNames components = (do
      let lines ← Lineage.ordered components
      let classes ← traverse (fun line : Lineage.Line =>
        Scope.build ⟨registry, components, classNames, accessibility⟩ line.component
          line.ancestors) lines
      return ⟨classes⟩) := by
    simp only [ofComponents, Lineage.ordered, bind_assoc, pure_bind]
  have hclasses : ofComponents registry accessibility classNames components = .ok m ↔
      ∃ lines, List.Forall₂ (fun c (line : Lineage.Line) =>
          line.component = c ∧ InOrder components c line.ancestors) components lines ∧
        List.Forall₂ (fun (line : Lineage.Line) d =>
          Scope.build ⟨registry, components, classNames, accessibility⟩ line.component
            line.ancestors = .ok d) lines m.classes := by
    rw [hpasses]
    simp only [bind_eq_ok, Lineage.ordered_eq_ok hkeys, traverse_eq_ok_iff]
    constructor
    · rintro ⟨lines, hlines, classes, hclasses, hm⟩
      obtain rfl := Except.ok.inj hm
      exact ⟨lines, hlines, hclasses⟩
    · rintro ⟨lines, hlines, hclasses⟩
      exact ⟨lines, hlines, m.classes, hclasses, rfl⟩
  rw [hclasses, forall₂_comp]
  refine forall₂_congr fun c _ d => ?_
  constructor
  · rintro ⟨line, ⟨rfl, hline⟩, hbuilt⟩
    exact ⟨line.ancestors, hline, hbuilt⟩
  · rintro ⟨ancestors, hline, hbuilt⟩
    exact ⟨⟨c, ancestors⟩, ⟨rfl, hline⟩, hbuilt⟩

/-- The class names of components, beside their keys. -/
def namesOf (schemas : Entries Scalar Mapping) : List (Scalar × String) :=
  schemas.map fun entry => (entry.1, Text.pascalCase entry.1.display)

lemma traverse_named {schemas : Entries Scalar Mapping} (htexts : Entries.TextKeys schemas) :
    traverse named schemas = .ok (namesOf schemas) := by
  rw [traverse_eq_ok_iff, namesOf, List.forall₂_map_right_iff, List.forall₂_same]
  intro entry hentry
  obtain ⟨s, hs⟩ := htexts.1 entry hentry
  rw [named, hs]
  rfl

/-- What a model looks at: the registry, the components, their names and the default. -/
abbrev scopeOf (registry : TypeRegistry) (accessibility : Accessibility)
    (schemas : Entries Scalar Mapping) (components : Components) : Scope :=
  ⟨registry, components, namesOf schemas, accessibility⟩

/-- The first passes describe the components and settle their packages. -/
def Lays (home : Value) (schemas : Entries Scalar Mapping) (components : Components) :
    Prop :=
  ∃ described,
    traverse (Component.describe home (Entries.keys schemas)) schemas = .ok described ∧
      Component.settlePackages [] described = .ok components

/-- **Components are laid exactly if each is made from its schema, and no two make one class.** -/
lemma lays_iff {schemas : Entries Scalar Mapping} {components : Components} :
    Lays home schemas components ↔
      List.Forall₂ (Component.MadeFrom home (Entries.keys schemas)) schemas components ∧
        Component.Distinct components := by
  constructor
  · rintro ⟨described, hdescribed, hsettled⟩
    obtain ⟨new, rfl, hnew, hdistinct⟩ :=
      Component.settles_of_settlePackages hsettled List.Pairwise.nil
    exact ⟨forall₂_comp.1 ⟨described, traverse_eq_ok_iff.1 hdescribed, hnew⟩, hdistinct⟩
  · rintro ⟨hmade, hdistinct⟩
    obtain ⟨described, hdescribed, hsettles⟩ := forall₂_comp.2 hmade
    exact ⟨described, traverse_eq_ok_iff.2 hdescribed,
      Component.settlePackages_of_settles hsettles hdistinct⟩

namespace Lays

variable {schemas : Entries Scalar Mapping} {components : Components}

lemma keys_eq (h : Lays home schemas components) :
    Entries.keys schemas = components.map fun c => Scalar.text c.key :=
  map_eq_of_forall₂ (lays_iff.1 h).1 fun _ _ hc => hc.names.1

lemma nodup_keys (h : Lays home schemas components) (htexts : Entries.TextKeys schemas) :
    (components.map (·.key)).Nodup := by
  have hnodup : (Entries.keys schemas).Nodup := htexts.2
  rw [h.keys_eq] at hnodup
  refine List.Nodup.of_map Scalar.text ?_
  rwa [List.map_map]

lemma className_eq (h : Lays home schemas components) {c : Component Scalar}
    (hc : c ∈ components) : c.className = Text.pascalCase c.key := by
  obtain ⟨entry, -, hmade⟩ := forall₂_right (lays_iff.1 h).1 hc
  exact hmade.names.2.1

end Lays

/-- Settled descriptions say what the schemas say. -/
lemma described_of_settles {schemas : Entries Scalar Mapping} {described : List (Component Value)}
    {components : Components} (hkeyed : ∀ entry ∈ schemas, Value.textKeyedEntries entry.2 = true)
    (hdescribed :
      traverse (Component.describe home (Entries.keys schemas)) schemas = .ok described)
    (hsettled : List.Forall₂ Component.Settles described components) :
    List.Forall₂ (fun entry c => Component.Describes (Entries.keys schemas) entry c ∧
      Schema.package home entry.2 = .scalar c.package) schemas components := by
  have hrel := forall₂_comp.1 ⟨described, traverse_eq_ok_iff.1 hdescribed, hsettled⟩
  refine ((List.forall₂_and_left _ _).2 ⟨hkeyed, hrel⟩).imp ?_
  rintro entry d ⟨hentry, c, hdescribe, hsettles⟩
  obtain ⟨hdescribes, hpackage⟩ := Component.describes_of_describe hentry hdescribe
  exact ⟨hdescribes.settle hsettles, by rw [← hpackage, hsettles.1]⟩

lemma Lays.blueprint {schemas : Entries Scalar Mapping} {components : Components}
    (h : Lays home schemas components) (htexts : Entries.TextKeys schemas)
    (hkeyed : ∀ entry ∈ schemas, Value.textKeyedEntries entry.2 = true) :
    Blueprint home schemas components := by
  obtain ⟨described, hdescribed, hsettled⟩ := h
  obtain ⟨new, rfl, hnew, hdistinct⟩ :=
    Component.settles_of_settlePackages hsettled List.Pairwise.nil
  exact ⟨htexts, described_of_settles hkeyed hdescribed hnew, hdistinct⟩

/-- Under text keys the class names are known beforehand, and what is left are the passes. -/
lemma ofDocument_eq_passes {schemas : Entries Scalar Mapping} (htexts : Entries.TextKeys schemas)
    (hschemas : doc.schemas = .ok schemas) :
    ofDocument doc home registry accessibility = (do
      let described ← traverse (Component.describe home (Entries.keys schemas)) schemas
      let components ← Component.settlePackages [] described
      ofComponents registry accessibility (namesOf schemas) components) := by
  rw [ofDocument, hschemas]
  change (do
    let classNames ← traverse named schemas
    let described ← traverse (Component.describe home (Entries.keys schemas)) schemas
    let components ← Component.settlePackages [] described
    ofComponents registry accessibility classNames components) = _
  rw [traverse_named htexts]
  rfl

/-- The model of components under text keys in its passes. -/
theorem ofDocument_of_textKeys {schemas : Entries Scalar Mapping}
    (htexts : Entries.TextKeys schemas) (hschemas : doc.schemas = .ok schemas) :
    ofDocument doc home registry accessibility = .ok m ↔
      ∃ components, Lays home schemas components ∧
        List.Forall₂ (scopeOf registry accessibility schemas components).Realizes
          components m.classes := by
  rw [ofDocument_eq_passes htexts hschemas]
  simp only [bind_eq_ok]
  constructor
  · rintro ⟨described, hdescribed, components, hsettled, h⟩
    have hlays : Lays home schemas components := ⟨described, hdescribed, hsettled⟩
    exact ⟨components, hlays, (ofComponents_eq_ok (hlays.nodup_keys htexts)).1 h⟩
  · rintro ⟨components, hlays, h⟩
    obtain ⟨described, hdescribed, hsettled⟩ := id hlays
    exact ⟨described, hdescribed, components, hsettled,
      (ofComponents_eq_ok (hlays.nodup_keys htexts)).2 h⟩

/-- The model of a document in its passes. -/
theorem ofDocument_passes (hdoc : doc.TextKeyed) {schemas : Entries Scalar Mapping}
    (hschemas : doc.schemas = .ok schemas) :
    ofDocument doc home registry accessibility = .ok m ↔
      ∃ components, Lays home schemas components ∧
        List.Forall₂ (scopeOf registry accessibility schemas components).Realizes
          components m.classes :=
  ofDocument_of_textKeys (Document.textKeys_schemas hdoc hschemas) hschemas

/-- The classes of a model are built one by one, along lineages of the components they come from.
This much is true of every document, whatever its keys are. -/
lemma exists_built (h : ofDocument doc home registry accessibility = .ok m) :
    ∃ classNames components,
      (∀ c ∈ components, c.className = Text.pascalCase c.key) ∧
      List.Forall₂ (fun c d => ∃ ancestors, ancestors ⊆ components ∧
        Scope.build ⟨registry, components, classNames, accessibility⟩ c ancestors = .ok d)
        components m.classes := by
  simp only [ofDocument, ofComponents, bind_eq_ok, traverse_eq_ok_iff] at h
  obtain ⟨schemas, -, classNames, -, described, hdescribed, components, hsettled, lines, hlines,
    -, -, -, -, classes, hclasses, h⟩ := h
  obtain rfl := Except.ok.inj h
  have hlays : Lays home schemas components :=
    ⟨described, traverse_eq_ok_iff.2 hdescribed, hsettled⟩
  refine ⟨classNames, components, fun c hc => hlays.className_eq hc,
    (forall₂_comp.1 ⟨lines, hlines, hclasses⟩).imp ?_⟩
  rintro c d ⟨line, hof, hbuilt⟩
  rw [Lineage.of] at hof
  split at hof
  · rename_i chain hclimb
    obtain rfl := Except.ok.inj hof
    refine ⟨_, fun e he => ?_, hbuilt⟩
    have hmet : e ∈ (Lineage.climb components (some c.key)).1 := by
      rw [hclimb]
      exact List.mem_of_mem_drop he
    exact Lineage.mem_of_mem_climb hmet
  · simp at hof

/-- **Every name in a model is made from a key**: that of a class, and those of its subclasses. -/
lemma names_of_mem (h : ofDocument doc home registry accessibility = .ok m) {d : ClassDef}
    (hd : d ∈ m.classes) : (∃ key, d.name = Text.pascalCase key) ∧
      ∀ s ∈ d.subclasses, ∃ key, s.type.name = Text.pascalCase key := by
  obtain ⟨classNames, components, hnames, hall⟩ := exists_built h
  obtain ⟨c, hc, ancestors, -, hbuilt⟩ := forall₂_right hall hd
  have hassembled := Scope.assembled_of_build hbuilt
  refine ⟨⟨c.key, by rw [hassembled.name, hnames c hc]⟩, fun s hs => ?_⟩
  obtain ⟨child, hchild, -, htype⟩ :=
    forall₂_right (Scope.subclassesOf_eq_ok.1 hassembled.subclasses).1 hs
  exact ⟨child.key, by rw [htype, ← hnames child (List.mem_filter.1 hchild).1]; rfl⟩

lemma exists_schemas (h : ofDocument doc home registry accessibility = .ok m) :
    ∃ schemas, doc.schemas = .ok schemas := by
  rw [ofDocument, bind_eq_ok] at h
  obtain ⟨schemas, hschemas, -⟩ := h
  exact ⟨schemas, hschemas⟩

/-- **A model comes from a blueprint, one class for each of its components.** -/
theorem blueprint_of_ofDocument (hdoc : doc.TextKeyed)
    (h : ofDocument doc home registry accessibility = .ok m) :
    ∃ schemas components, doc.schemas = .ok schemas ∧ Blueprint home schemas components ∧
      List.Forall₂ (scopeOf registry accessibility schemas components).Realizes
        components m.classes := by
  obtain ⟨schemas, hschemas⟩ := exists_schemas h
  obtain ⟨components, hlays, hclasses⟩ := (ofDocument_passes hdoc hschemas).1 h
  exact ⟨schemas, components, hschemas, hlays.blueprint (Document.textKeys_schemas hdoc hschemas)
    fun _ hentry => Document.textKeyed_of_mem_schemas hdoc hschemas hentry, hclasses⟩

end ClassModel

end SchemaClasses
