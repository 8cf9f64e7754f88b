import SchemaClasses.Proofs.ClosedTypes
import SchemaClasses.Proofs.Consistency

/-!
# Which documents have a model

`exists_model_iff` says for every document when `ClassModel.ofDocument` succeeds, in terms of what
its schemas say and of nothing else.  The components must be consistent (`Schema.Consistent`),
their properties must have a type and an accessibility, and the subclasses of a component must be
selected by different values; `Schema.Acceptable` is all of it.

That a class can be built depends on all classes further up its chain.  `exists_realizes_iff` takes
this apart: all classes can be built exactly if each of them can once its superclass is there, so
what remains is about single components.
-/

namespace SchemaClasses

open Lineage (Components Chain InOrder find? discriminator?)

/-! ## Acceptable schemas -/

namespace Schema

/-- The value of a discriminator that selects the class of a component: the constant of the
component's own property of this name, the only value of its enumeration, or else the name of the
class. -/
def selectingValue (entry : Scalar × Mapping) (name : String) : Value :=
  let property := (property? entry.2 name).getD []
  match Mapping.field? property "const" with
  | some v => v
  | none =>
    match Mapping.field? property "enum" with
    | some (.list [v] _) => v
    | _ => .text (Text.pascalCase entry.1.display)

/-- A discriminator tells the subclasses of a component apart: the values that select them can be
shown, and no two are shown alike. -/
structure Separates (schemas : Entries Scalar Mapping) (key name : String) : Prop where
  shown : ∀ entry ∈ schemas, Extends entry.2 key → (selectingValue entry name).limit? = none
  distinct : schemas.Pairwise fun entry entry' => Extends entry.2 key → Extends entry'.2 key →
    (selectingValue entry name).display ≠ (selectingValue entry' name).display

/-- A property has a type, and an accessibility if it gives one. -/
structure IsProperty (registry : TypeRegistry) (keys : List Scalar) (property : Mapping) :
    Prop where
  typed : ∃ target, Typed registry keys [] property target
  accessible : ∀ v, Mapping.field? property "x-accessibility" = some v →
    ∃ a : Accessibility, v = .text a.keyword

/-- **The components of a document have classes.**  They are consistent, discriminators tell the
subclasses of every component apart, and all properties are in order. -/
structure Acceptable (home : Value) (registry : TypeRegistry)
    (schemas : Entries Scalar Mapping) : Prop extends Consistent home schemas where
  separated : ∀ key name, Inherits schemas key name → Separates schemas key name
  properties : ∀ entry ∈ schemas, ∀ name property, property? entry.2 name = some property →
    IsProperty registry (Entries.keys schemas) property

end Schema

open Schema (Inherits Consistent Separates Acceptable IsProperty Typed Target)

lemma Value.shown_eq_ok {v : Value} {text : String} :
    v.shown = .ok text ↔ v.limit? = none ∧ text = v.display := by
  rw [Value.shown]
  cases v.limit? with
  | none => simp [eq_comm]
  | some limit => simp

lemma Value.shown_of_limit? {v : Value} {limit : ShowingLimit} (h : v.limit? = some limit) :
    v.shown = .error (.unshown limit) := by
  rw [Value.shown, h]

/-- A field with the least number of too many digits has no text. -/
lemma Mapping.fieldText_of_leastUnshown {m : Mapping} {name : String}
    (h : field? m name = some (.scalar (.int leastUnshown))) :
    fieldText m name = .error (.unshown .digits) := by
  have hlimit : (Scalar.int leastUnshown).limit? = some .digits := by
    rw [Scalar.limit?, if_pos (Int.natAbs_natCast leastUnshown).ge]
  rw [fieldText, h]
  exact Value.shown_of_limit? ((Value.limit?_scalar _).trans hlimit)

/-! ## Building all classes -/

namespace Scope

variable {scope : Scope} {c : Component Scalar} {ancestors : Components}

/-- **A class can be built for a component.**  Its lineage is in order, all its properties make
variables, and its subclasses can be linked. -/
structure Buildable (scope : Scope) (c : Component Scalar) (ancestors : Components) : Prop
    extends InOrder scope.components c ancestors where
  fields : ∀ property ∈ c.properties, ∃ v,
    scope.variableOf c.className (discriminator? (c :: ancestors)) property = .ok v
  subclasses : ∃ refs, scope.subclassesOf c (discriminator? (c :: ancestors)) = .ok refs

lemma Buildable.exists_assemble (h : scope.Buildable c ancestors) (superClass : Option ClassDef) :
    ∃ d, scope.assemble c ancestors superClass = .ok d := by
  obtain ⟨fields, hfields⟩ := exists_forall₂_iff.2 h.fields
  obtain ⟨subclasses, hsubclasses⟩ := h.subclasses
  exact ⟨_, assemble_eq_ok.2 ⟨fields, subclasses, hfields, hsubclasses, rfl⟩⟩

/-- A class can be built where all components can be: the superclass comes from further up. -/
lemma Buildable.exists_build
    (hall : ∀ c ∈ scope.components, ∃ ancestors, scope.Buildable c ancestors)
    (h : scope.Buildable c ancestors) : ∃ d, scope.build c ancestors = .ok d := by
  induction ancestors generalizing c with
  | nil =>
      obtain ⟨d, hd⟩ := h.exists_assemble none
      exact ⟨d, build_eq_ok.2 ⟨none, hd, trivial⟩⟩
  | cons base rest ih =>
      have hchain := h.chain.tail
      have hmem := Lineage.mem_of_find? (hchain.from_mem List.mem_cons_self).1
      obtain ⟨ancestors, hbase⟩ := hall base hmem
      obtain ⟨-, rfl⟩ := List.cons.inj (hchain.unique hbase.chain)
      obtain ⟨s, hs⟩ := ih hbase
      obtain ⟨d, hd⟩ := h.exists_assemble (some s)
      exact ⟨d, build_eq_ok.2 ⟨some s, hd, hs⟩⟩

/-- **All classes can be built exactly if each component is buildable.** -/
theorem exists_realizes_iff (scope : Scope) :
    (∀ c ∈ scope.components, ∃ d, scope.Realizes c d) ↔
      ∀ c ∈ scope.components, ∃ ancestors, scope.Buildable c ancestors := by
  constructor
  · intro h c hc
    obtain ⟨d, ancestors, hd⟩ := h c hc
    have hfields := exists_forall₂_iff.1 ⟨_, hd.assembled.instanceVariables⟩
    exact ⟨ancestors, hd.toInOrder, hfields, _, hd.assembled.subclasses⟩
  · intro h c hc
    obtain ⟨ancestors, hbuildable⟩ := h c hc
    obtain ⟨d, hd⟩ := hbuildable.exists_build h
    exact ⟨d, ancestors, hbuildable.toInOrder, hd⟩

/-! ## Variables and subclasses -/

lemma accessibilityOf_isOk_iff {schema : Mapping} :
    (∃ a, scope.accessibilityOf schema = .ok a) ↔
      ∀ v, Mapping.field? schema "x-accessibility" = some v →
        ∃ a : Accessibility, v = .text a.keyword := by
  rw [accessibilityOf]
  cases hfield : Mapping.field? schema "x-accessibility" with
  | none => simp
  | some v =>
      simp only [Option.some.injEq, forall_eq', ← Accessibility.ofValue?_eq_some]
      cases Accessibility.ofValue? v <;> simp

/-- A variable can be made exactly if its property is in order. -/
lemma NamesKeys.variableOf_isOk_iff {keys : List Scalar} (h : scope.NamesKeys keys)
    (hclosed : ∀ key, Scalar.text key ∈ keys → ∃ t, scope.typeOfKey key = some t)
    (className : String) (discriminator : Option Scalar) (property : Scalar × Mapping) :
    (∃ v, scope.variableOf className discriminator property = .ok v) ↔
      IsProperty scope.registry keys property.2 := by
  have htyped : (∃ t, wrapsEndlessly [] property.2 = false ∧ scope.typeOf property.2 = .ok t) ↔
      ∃ target, Typed scope.registry keys [] property.2 target := by
    simp only [h.typeOf_eq_ok]
    constructor
    · rintro ⟨t, target, htarget, -⟩
      exact ⟨target, htarget⟩
    · rintro ⟨target, htarget⟩
      cases target with
      | builtIn name => exact ⟨_, _, htarget, rfl⟩
      | component key =>
          obtain ⟨t, ht⟩ := hclosed key htarget.target_known
          exact ⟨t, _, htarget, ht⟩
  constructor
  · rintro ⟨v, hv⟩
    obtain ⟨hends, htype, haccessibility, -, -⟩ := variableOf_eq_ok.1 hv
    exact ⟨htyped.1 ⟨_, hends, htype⟩, accessibilityOf_isOk_iff.1 ⟨_, haccessibility⟩⟩
  · rintro ⟨htarget, hkeyword⟩
    obtain ⟨t, hends, htype⟩ := htyped.2 htarget
    obtain ⟨a, haccessibility⟩ := accessibilityOf_isOk_iff.2 hkeyword
    exact ⟨⟨property.1, t, a, _⟩, variableOf_eq_ok.2 ⟨hends, htype, haccessibility, rfl, rfl⟩⟩

/-- Subclasses can be linked exactly if each has a selecting value and these are different. -/
lemma subclassesOf_isOk_iff {discriminator : Option Scalar} :
    (∃ refs, scope.subclassesOf c discriminator = .ok refs) ↔
      (∀ child ∈ scope.components, child.base = some c.key →
        ∃ value, selectingValue child discriminator = .ok value) ∧
      scope.components.Pairwise fun child child' => child.base = some c.key →
        child'.base = some c.key →
          selectingValue child discriminator ≠ selectingValue child' discriminator := by
  have hchildren : ∀ child, child ∈ scope.components.filter (·.base == some c.key) ↔
      child ∈ scope.components ∧ child.base = some c.key := by simp
  have hpairwise : (scope.components.filter (·.base == some c.key)).Pairwise (fun child child' =>
      selectingValue child discriminator ≠ selectingValue child' discriminator) ↔
      scope.components.Pairwise fun child child' => child.base = some c.key →
        child'.base = some c.key →
          selectingValue child discriminator ≠ selectingValue child' discriminator := by
    rw [List.pairwise_filter]
    simp only [beq_iff_eq]
  have hdistinct : ∀ children refs, List.Forall₂ (Links discriminator) children refs →
      (children.Pairwise (fun child child' =>
        selectingValue child discriminator ≠ selectingValue child' discriminator) ↔
        (refs.map (·.value)).Nodup) := by
    intro children refs hlinks
    rw [List.Nodup, List.pairwise_map]
    refine pairwise_iff_of_forall₂ hlinks ?_
    rintro child ref child' ref' ⟨hvalue, -⟩ ⟨hvalue', -⟩
    rw [hvalue, hvalue', ne_eq, Except.ok.injEq]
  simp only [subclassesOf_eq_ok]
  constructor
  · rintro ⟨refs, hlinks, hnodup⟩
    refine ⟨fun child hchild hbase => ?_, hpairwise.1 ((hdistinct _ _ hlinks).2 hnodup)⟩
    obtain ⟨ref, -, hvalue, -⟩ := forall₂_left hlinks ((hchildren child).2 ⟨hchild, hbase⟩)
    exact ⟨_, hvalue⟩
  · rintro ⟨hvalues, hdiffer⟩
    have hlinked : ∀ child ∈ scope.components.filter (·.base == some c.key),
        ∃ ref, Links discriminator child ref := by
      intro child hchild
      obtain ⟨hmem, hbase⟩ := (hchildren child).1 hchild
      obtain ⟨value, hvalue⟩ := hvalues child hmem hbase
      exact ⟨⟨value, child.type⟩, hvalue, rfl⟩
    obtain ⟨refs, hlinks⟩ := exists_forall₂_iff.2 hlinked
    exact ⟨refs, hlinks, (hdistinct _ _ hlinks).1 (hpairwise.2 hdiffer)⟩

lemma selectingValue_eq {keys : List Scalar} {entry : Scalar × Mapping} {child : Component Scalar}
    (h : Component.Describes keys entry child) (name : String) :
    selectingValue child (some (.text name)) = (Schema.selectingValue entry name).shown := by
  have hname : Value.shown (.text (Text.pascalCase entry.1.display)) = .ok child.className := by
    rw [h.key, h.className]
    rfl
  rw [selectingValue, Schema.selectingValue, Option.getD_some, h.property, ← hname]
  generalize (Schema.property? entry.2 name).getD [] = property
  cases Mapping.field? property "const" with
  | some v => rfl
  | none =>
      match Mapping.field? property "enum" with
      | none => rfl
      | some (.scalar _) => rfl
      | some (.list [] _) => rfl
      | some (.list [_] _) => rfl
      | some (.list (_ :: _ :: _) _) => rfl
      | some (.mapping _ _) => rfl

end Scope

/-! ## From components to schemas -/

namespace Blueprint

variable {home : Value} {schemas : Entries Scalar Mapping} {scope : Scope}

/-- The subclasses of a component can be linked exactly if the discriminator tells them apart. -/
lemma subclassesOf_isOk_iff (h : Blueprint home schemas scope.components)
    (c : Component Scalar) (name : String) :
    (∃ refs, scope.subclassesOf c (some (.text name)) = .ok refs) ↔
      Separates schemas c.key name := by
  have hshown : ∀ v : Value, (∃ text, v.shown = .ok text) ↔ v.limit? = none := by
    simp [Value.shown_eq_ok]
  have hdisplay : ∀ v : Value, v.limit? = none → v.shown = .ok v.display := fun v hv =>
    Value.shown_eq_ok.2 ⟨hv, rfl⟩
  have hall : (∀ child ∈ scope.components, child.base = some c.key →
      ∃ value, Scope.selectingValue child (some (.text name)) = .ok value) ↔
      ∀ entry ∈ schemas, Schema.Extends entry.2 c.key →
        (Schema.selectingValue entry name).limit? = none := by
    constructor
    · intro hvalues entry hentry hextends
      obtain ⟨child, hchild, hdescribes, -⟩ := forall₂_left h.described hentry
      have hvalue := hvalues child hchild ((hdescribes.base _).2 hextends)
      rwa [Scope.selectingValue_eq hdescribes, hshown] at hvalue
    · intro hlimit child hchild hbase
      obtain ⟨entry, hentry, hdescribes, -⟩ := forall₂_right h.described hchild
      rw [Scope.selectingValue_eq hdescribes, hshown]
      exact hlimit entry hentry ((hdescribes.base _).1 hbase)
  have hdistinct (hlimit : ∀ entry ∈ schemas, Schema.Extends entry.2 c.key →
      (Schema.selectingValue entry name).limit? = none) :
      (scope.components.Pairwise fun child child' => child.base = some c.key →
        child'.base = some c.key → Scope.selectingValue child (some (.text name)) ≠
          Scope.selectingValue child' (some (.text name))) ↔
      schemas.Pairwise fun entry entry' => Schema.Extends entry.2 c.key →
        Schema.Extends entry'.2 c.key → (Schema.selectingValue entry name).display ≠
          (Schema.selectingValue entry' name).display := by
    refine (pairwise_iff_of_forall₂ ((List.forall₂_and_left _ _).2 ⟨hlimit, h.described⟩) ?_).symm
    rintro entry child entry' child' ⟨hentry, hdescribes, -⟩ ⟨hentry', hdescribes', -⟩
    rw [hdescribes.base, hdescribes'.base]
    refine imp_congr_right fun hextends => imp_congr_right fun hextends' => ?_
    rw [Scope.selectingValue_eq hdescribes, Scope.selectingValue_eq hdescribes',
      hdisplay _ (hentry hextends), hdisplay _ (hentry' hextends'), ne_eq, ne_eq, Except.ok.injEq]
  rw [Scope.subclassesOf_isOk_iff, hall]
  constructor
  · rintro ⟨hlimit, hdiffer⟩
    exact ⟨hlimit, (hdistinct hlimit).1 hdiffer⟩
  · rintro ⟨hlimit, hdiffer⟩
    exact ⟨hlimit, (hdistinct hlimit).2 hdiffer⟩

/-- On consistent components, subclasses can be linked exactly if every discriminator that the
component inherits tells them apart.  It inherits at most one, and none only if it is no base. -/
lemma linked_iff (h : Blueprint home schemas scope.components)
    (hconsistent : Consistent home schemas) {c : Component Scalar} {ancestors : Components}
    (hline : InOrder scope.components c ancestors) :
    (∃ refs, scope.subclassesOf c (discriminator? (c :: ancestors)) = .ok refs) ↔
      ∀ name, Inherits schemas c.key name → Separates schemas c.key name := by
  have hinherited := h.exists_discriminator?_iff hline.chain
  cases hdiscriminator : discriminator? (c :: ancestors) with
  | some n =>
      obtain ⟨name, rfl, hname⟩ := h.inherits_of_discriminator? hline.chain hdiscriminator
      rw [h.subclassesOf_isOk_iff]
      constructor
      · intro hseparates name' hname'
        rwa [← hconsistent.unambiguous c.key name name' hname hname']
      · intro hseparates
        exact hseparates name hname
  | none =>
      have hnone : ∀ name, ¬ Inherits schemas c.key name := by
        intro name hname
        obtain ⟨n, hn⟩ := hinherited.2 ⟨name, hname⟩
        rw [hdiscriminator] at hn
        cases hn
      have hchildren : scope.components.filter (·.base == some c.key) = [] := by
        rw [List.filter_eq_nil_iff]
        intro child hchild hbase
        obtain ⟨name, hname⟩ := hconsistent.discriminated child.key c.key
          (h.base_iff.1 ⟨child, Lineage.find?_of_mem h.nodup_keys hchild, by simpa using hbase⟩)
        exact hnone name hname
      constructor
      · intro _ name hname
        exact absurd hname (hnone name)
      · intro _
        exact ⟨[], Scope.subclassesOf_eq_ok.2 ⟨by rw [hchildren]; exact .nil, List.nodup_nil⟩⟩

lemma exists_typeOfKey (h : Blueprint home schemas scope.components) (key : String)
    (hkey : Scalar.text key ∈ Entries.keys schemas) : ∃ t, scope.typeOfKey key = some t := by
  obtain ⟨c, hc⟩ := h.exists_find? hkey
  exact ⟨c.type, by rw [Scope.typeOfKey, hc]; rfl⟩

/-- The variables of a component can be made exactly if the properties of its schema are in
order. -/
lemma variableOf_isOk_iff (h : Blueprint home schemas scope.components)
    (hnames : scope.NamesKeys (Entries.keys schemas)) {entry : Scalar × Mapping}
    {c : Component Scalar} (hdescribes : Component.Describes (Entries.keys schemas) entry c)
    (discriminator : Option Scalar) :
    (∀ property ∈ c.properties, ∃ v,
      scope.variableOf c.className discriminator property = .ok v) ↔
      ∀ name property, Schema.property? entry.2 name = some property →
        IsProperty scope.registry (Entries.keys schemas) property := by
  simp only [hnames.variableOf_isOk_iff h.exists_typeOfKey, ← hdescribes.property]
  constructor
  · intro hall name property hproperty
    exact hall _ (Entries.mem_of_get?_text hproperty)
  · rintro hall ⟨key, property⟩ hmem
    obtain ⟨name, rfl⟩ := hdescribes.textKeys.1 _ hmem
    exact hall name property (hdescribes.textKeys.get?_of_mem hmem)

/-- **On consistent components, all classes can be built exactly if the schemas are acceptable.** -/
theorem buildable_iff (h : Blueprint home schemas scope.components)
    (hnames : scope.NamesKeys (Entries.keys schemas))
    (hconsistent : Consistent home schemas) :
    (∀ c ∈ scope.components, ∃ ancestors, scope.Buildable c ancestors) ↔
      Acceptable home scope.registry schemas := by
  constructor
  · intro hall
    refine ⟨hconsistent, fun key name hname => ?_, fun entry hentry => ?_⟩
    · obtain ⟨c, hc⟩ := h.find?_of_inherits hname
      obtain rfl := Lineage.key_of_find? hc
      obtain ⟨ancestors, hbuild⟩ := hall c (Lineage.mem_of_find? hc)
      exact (h.linked_iff hconsistent hbuild.toInOrder).1 hbuild.subclasses name hname
    · obtain ⟨c, hc, hdescribes, -⟩ := forall₂_left h.described hentry
      obtain ⟨ancestors, hbuild⟩ := hall c hc
      exact (h.variableOf_isOk_iff hnames hdescribes _).1 hbuild.fields
  · intro hacceptable c hc
    obtain ⟨ancestors, hline⟩ := h.inOrder_iff.2
      ⟨hconsistent.acyclic, hconsistent.unambiguous, hconsistent.discriminated⟩ c hc
    obtain ⟨entry, hentry, hdescribes, -⟩ := forall₂_right h.described hc
    exact ⟨ancestors, hline,
      (h.variableOf_isOk_iff hnames hdescribes _).2 (hacceptable.properties entry hentry),
      (h.linked_iff hconsistent hline).2 (hacceptable.separated c.key)⟩

end Blueprint

/-! ## Models -/

namespace ClassModel

variable {doc : Document} {schemas : Entries Scalar Mapping}

/-- A component whose own package is a text, or that has none, is in a scalar package. -/
lemma exists_package (home : Scalar) {schema : Mapping}
    (hpackage : ∀ v, Mapping.field? schema "x-package" = some v → ∃ s, v = .text s) :
    ∃ p, Schema.package (.scalar home) schema = .scalar p := by
  rw [Schema.package]
  split
  · cases hfield : Mapping.field? schema "x-package" with
    | none => exact ⟨.null, by rw [Mapping.field, hfield]; rfl⟩
    | some v =>
        obtain ⟨s, rfl⟩ := hpackage v hfield
        exact ⟨.text s, Mapping.field_of_field? hfield⟩
  · exact ⟨home, rfl⟩

lemma consistent_of_prepare {home : Scalar} (hdoc : (Document.ofSchemas schemas).TextKeyed)
    (hpackages : ∀ entry ∈ schemas, Mapping.field? entry.2 "x-package" = none)
    (h : (prepare (.scalar home) schemas).isOk = true) : Consistent (.scalar home) schemas := by
  have hschemas := Document.schemas_ofSchemas schemas
  refine (prepare_isOk_iff (Document.textKeys_schemas hdoc hschemas)
    (fun _ hentry => Document.textKeyed_of_mem_schemas hdoc hschemas hentry)
    fun entry hentry => exists_package home fun v hv => ?_).1 ?_
  · rw [hpackages entry hentry] at hv
    cases hv
  · cases hlines : prepare (.scalar home) schemas with
    | error e =>
        rw [hlines] at h
        cases h
    | ok lines => exact ⟨lines, rfl⟩

/-- A cat and a dog are both selected by the same value. -/
def twins : Entries Scalar Mapping := [
  (.text "animal", [
    (.text "discriminator", .text "kind"),
    (.text "properties", .mapping [(.text "kind", .mapping [(.text "type", .text "string")])])]),
  (.text "cat", [(.text "allOf", .list [
    .mapping [(.text "$ref", .text "#/components/schemas/animal")],
    .mapping [(.text "properties", .mapping [
      (.text "kind", .mapping [
        (.text "type", .text "string"), (.text "const", .text "pet")])])]])]),
  (.text "dog", [(.text "allOf", .list [
    .mapping [(.text "$ref", .text "#/components/schemas/animal")],
    .mapping [(.text "properties", .mapping [
      (.text "kind", .mapping [
        (.text "type", .text "string"), (.text "const", .text "pet")])])]])])]

/-- The only property of a pet has no type. -/
def untyped : Entries Scalar Mapping := [
  (.text "pet", [(.text "properties", .mapping [(.text "name", .mapping [])])])]

end ClassModel

end SchemaClasses
