import Mathlib.Data.List.Perm.Basic
import SchemaClasses.Proofs.Neighbours
import SchemaClasses.Proofs.Subclasses

/-!
# The order of the components

A model comes from passes that walk through the components in document order and stop at the first
fault, and yet the order says nothing: `agrees_of_reordered` gives the same components in another
order the same fate and the same classes.  What a pass demands is a demand on single components or
on pairs of them, so it carries over to a permutation, and each scope is as wide as the other.

One thing does follow the order.  A type name that is neither built in nor a key, but names the
classes of several components, stands for the first of them (`Ambiguous`).
-/

namespace SchemaClasses

open Lineage (Components find? discriminator?)
open Schema (Target Named BareType)

/-! ## Agreeing classes -/

/-- Several components have a class of this name, which is neither built in nor itself a key. -/
def Schema.Ambiguous (registry : TypeRegistry) (keys : List Scalar) (name : String) : Prop :=
  name ∉ registry.names ∧ Scalar.text name ∉ keys ∧
    ∃ k ∈ keys, ∃ k' ∈ keys, k ≠ k' ∧
      Text.pascalCase k.display = name ∧ Text.pascalCase k'.display = name

open Schema (Ambiguous)

/-- Two variables agree: only their types may differ, and only if the type name that the property
comes down to is ambiguous. -/
structure InstanceVariable.Agrees (registry : TypeRegistry) (schemas : Entries Scalar Mapping)
    (key : String) (v v' : InstanceVariable) : Prop where
  name : v'.name = v.name
  accessibility : v'.accessibility = v.accessibility
  isDiscriminator : v'.isDiscriminator = v.isDiscriminator
  type : v'.type = v.type ∨ ∃ schema name property typeName,
    Entries.get? schemas (.text key) = some schema ∧ v.name = .text name ∧
      Schema.property? schema name = some property ∧ BareType property typeName ∧
        Ambiguous registry (Entries.keys schemas) typeName

/-- **Two classes of one component agree.**  They list the same subclasses, maybe in another
order. -/
structure ClassDef.Agrees (registry : TypeRegistry) (schemas : Entries Scalar Mapping)
    (c c' : ClassDef) : Prop where
  name : c'.name = c.name
  package : c'.package = c.package
  superClass : c'.superClass.map (fun s => (s.componentKey, s.type)) =
    c.superClass.map fun s => (s.componentKey, s.type)
  discriminatorName : c'.discriminatorName = c.discriminatorName
  instanceVariables : List.Forall₂ (InstanceVariable.Agrees registry schemas c.componentKey)
    c.instanceVariables c'.instanceVariables
  subclasses : c'.subclasses.Perm c.subclasses

/-! ## Reordered components -/

lemma forall₂_of_perm {α β : Type} {R : α → β → Prop} {as as' : List α} {bs : List β}
    (hperm : as.Perm as') (h : List.Forall₂ R as bs) :
    ∃ bs', List.Forall₂ R as' bs' ∧ bs.Perm bs' := by
  obtain ⟨bs', hrel, hbs⟩ := List.perm_comp_forall₂ hperm.symm h
  exact ⟨bs', hrel, hbs.symm⟩

lemma Document.schemas_of_perm {doc doc' : Document} {entries entries' : Mapping}
    {schemas : Entries Scalar Mapping}
    (hentries : doc.section? ["components", "schemas"] = .ok entries)
    (hentries' : doc'.section? ["components", "schemas"] = .ok entries')
    (hperm : entries.Perm entries') (h : doc.schemas = .ok schemas) :
    ∃ schemas', doc'.schemas = .ok schemas' ∧ schemas.Perm schemas' := by
  rw [Document.schemas, hentries] at h
  obtain ⟨schemas', hrel, hschemas⟩ := forall₂_of_perm hperm (traverse_eq_ok_iff.1 h)
  refine ⟨schemas', ?_, hschemas⟩
  rw [Document.schemas, hentries']
  exact traverse_eq_ok_iff.2 hrel

namespace ClassModel

variable {home : Value} {schemas schemas' : Entries Scalar Mapping}
  {components components' : Components}

lemma Lays.perm (h : Lays home schemas components) (hperm : schemas.Perm schemas') :
    ∃ components', Lays home schemas' components' ∧ components.Perm components' := by
  obtain ⟨hmade, hdistinct⟩ := lays_iff.1 h
  have hkeys : Entries.keys schemas ⊆ Entries.keys schemas' := (hperm.map _).subset
  obtain ⟨components', hmade', hcomponents⟩ :=
    forall₂_of_perm hperm (hmade.imp fun _ _ hc => hc.mono hkeys)
  refine ⟨components', lays_iff.2 ⟨hmade', ?_⟩, hcomponents⟩
  exact hcomponents.pairwise hdistinct fun {c d} hcd => c.sameClass_comm d ▸ hcd

lemma Lays.unique (h : Lays home schemas components) (h' : Lays home schemas components') :
    components = components' := by
  obtain ⟨described, hdescribed, hsettled⟩ := h
  obtain ⟨described', hdescribed', hsettled'⟩ := h'
  obtain rfl := Except.ok.inj (hdescribed.symm.trans hdescribed')
  exact Except.ok.inj (hsettled.symm.trans hsettled')

end ClassModel

/-! ## Type names -/

namespace Schema

variable {registry : TypeRegistry} {keys keys' : List Scalar}

/-- A type name goes on to stand for something, and for the same unless it is ambiguous. -/
lemma Named.exists_of_perm {name : String} {target : Target}
    (htexts : ∀ k ∈ keys, ∃ s, k = Scalar.text s) (hperm : keys.Perm keys')
    (h : Named registry keys name target) :
    ∃ target', Named registry keys' name target' ∧
      (target' = target ∨ Ambiguous registry keys name) := by
  cases h with
  | builtIn known => exact ⟨_, .builtIn known, Or.inl rfl⟩
  | key foreign known => exact ⟨_, .key foreign (hperm.subset known), Or.inl rfl⟩
  | @className key foreign unknown first =>
      have hmem := List.mem_of_find?_eq_some first
      have hname := List.find?_some first
      obtain ⟨k, hfirst⟩ : ∃ k, keys'.find? (fun k => Text.pascalCase k.display == name) = some k :=
        Option.isSome_iff_exists.1 (List.find?_isSome.2 ⟨_, hperm.subset hmem, hname⟩)
      have hmem' := hperm.symm.subset (List.mem_of_find?_eq_some hfirst)
      have hname' := List.find?_some hfirst
      obtain ⟨s, rfl⟩ := htexts k hmem'
      rw [beq_iff_eq] at hname hname'
      refine ⟨.component s, .className foreign (mt hperm.mem_iff.2 unknown) hfirst, ?_⟩
      by_cases hsame : s = key
      · exact Or.inl (congrArg Target.component hsame)
      · exact Or.inr ⟨foreign, unknown, _, hmem', _, hmem, mt Scalar.text.inj hsame, hname',
          hname⟩

lemma IsProperty.of_perm {property : Mapping} (htexts : ∀ k ∈ keys, ∃ s, k = Scalar.text s)
    (hperm : keys.Perm keys') (h : IsProperty registry keys property) :
    IsProperty registry keys' property := by
  obtain ⟨⟨target, htyped⟩, haccessible⟩ := h
  refine ⟨?_, haccessible⟩
  rcases htyped.reference_or_bareType with hsame | ⟨name, -, hnamed, hother⟩
  · exact ⟨target, hsame keys' hperm.subset⟩
  · obtain ⟨target', hnamed', -⟩ := hnamed.exists_of_perm htexts hperm
    exact ⟨target', hother keys' target' hnamed'⟩

end Schema

/-! ## Classes -/

namespace Scope

variable {scope scope' : Scope} {keys keys' : List Scalar} {c : Component Scalar}

/-- Reordered components have the same children, each selected as before. -/
lemma subclassesOf_of_perm {discriminator : Option Scalar} {subclasses : List SubclassRef}
    (hperm : scope.components.Perm scope'.components)
    (h : scope.subclassesOf c discriminator = .ok subclasses) :
    ∃ subclasses', scope'.subclassesOf c discriminator = .ok subclasses' ∧
      subclasses.Perm subclasses' := by
  obtain ⟨hlinks, hdistinct⟩ := subclassesOf_eq_ok.1 h
  obtain ⟨subclasses', hlinks', hsubclasses⟩ := forall₂_of_perm (hperm.filter _) hlinks
  exact ⟨subclasses', subclassesOf_eq_ok.2 ⟨hlinks', (hsubclasses.map _).nodup_iff.1 hdistinct⟩,
    hsubclasses⟩

/-- A class that can be built among some components can be built among them in another order. -/
lemma Buildable.of_perm {ancestors : Components} (hwider : scope.Wider keys scope' keys')
    (hkeys : keys.Perm keys') (hperm : scope.components.Perm scope'.components)
    (hclosed : ∀ key, Scalar.text key ∈ keys → ∃ t, scope.typeOfKey key = some t)
    (h : scope.Buildable c ancestors) : scope'.Buildable c ancestors := by
  have hclosed' : ∀ key, Scalar.text key ∈ keys' → ∃ t, scope'.typeOfKey key = some t := by
    intro key hkey
    obtain ⟨t, ht⟩ := hclosed key (hkeys.symm.subset hkey)
    have htarget : scope.targetType? (.component key) = some t := ht
    exact ⟨t, hwider.targetType? htarget⟩
  refine ⟨h.toInOrder.within hwider.components, fun property hproperty => ?_, ?_⟩
  · rw [hwider.names'.variableOf_isOk_iff hclosed', hwider.registry]
    refine Schema.IsProperty.of_perm hwider.names.texts hkeys ?_
    rw [← hwider.names.variableOf_isOk_iff hclosed]
    exact h.fields property hproperty
  · obtain ⟨subclasses, hsubclasses⟩ := h.subclasses
    obtain ⟨subclasses', hsubclasses', -⟩ := subclassesOf_of_perm hperm hsubclasses
    exact ⟨subclasses', hsubclasses'⟩

variable {schemas : Entries Scalar Mapping} {d d' : ClassDef}

/-- The two variables of a property agree. -/
lemma Wider.agrees {schema : Mapping} {discriminator : Option Scalar}
    {property : Scalar × Mapping} {v v' : InstanceVariable}
    (hwider : scope.Wider (Entries.keys schemas) scope' keys')
    (hkeys : (Entries.keys schemas).Perm keys')
    (hschema : Entries.get? schemas (.text c.key) = some schema)
    (hdescribes : Component.Describes (Entries.keys schemas) (.text c.key, schema) c)
    (hproperty : property ∈ c.properties)
    (hv : scope.variableOf c.className discriminator property = .ok v)
    (hv' : scope'.variableOf c.className discriminator property = .ok v') :
    v.Agrees scope.registry schemas c.key v' := by
  obtain ⟨hname, haccessibility, hflag⟩ := hwider.variable_eq hv hv'
  refine ⟨hname, haccessibility, hflag, or_iff_not_imp_right.2 fun hunambiguous => ?_⟩
  have hsame := hwider.variableOf_of_named hv fun typeName target hbare hnamed => by
    obtain ⟨target', hnamed', rfl | hambiguous⟩ := hnamed.exists_of_perm hwider.names.texts hkeys
    · exact hnamed'
    · obtain ⟨key, property⟩ := property
      obtain ⟨name, rfl⟩ := hdescribes.textKeys.1 _ hproperty
      obtain ⟨-, -, -, hname, -⟩ := variableOf_eq_ok.1 hv
      have hlast := hdescribes.textKeys.get?_of_mem hproperty
      rw [hdescribes.property] at hlast
      exact absurd ⟨schema, name, property, typeName, hschema, hname, hlast, hbare, hambiguous⟩
        hunambiguous
  rw [hsame, Except.ok.injEq] at hv'
  rw [hv']

/-- **The two classes of a component agree.** -/
lemma agrees_of_perm {schema : Mapping}
    (hwider : scope.Wider (Entries.keys schemas) scope' keys')
    (hkeys : (Entries.keys schemas).Perm keys')
    (hperm : scope.components.Perm scope'.components)
    (hschema : Entries.get? schemas (.text c.key) = some schema)
    (hdescribes : Component.Describes (Entries.keys schemas) (.text c.key, schema) c)
    (hd : scope.Realizes c d) (hd' : scope'.Realizes c d') :
    d.Agrees scope.registry schemas d' := by
  obtain ⟨ancestors, hd, hd'⟩ := hwider.realizesAlong hd hd'
  have hassembled := hd.assembled
  have hassembled' := hd'.assembled
  refine ⟨hassembled'.name.trans hassembled.name.symm,
    hassembled'.package.trans hassembled.package.symm,
    hd'.superClass_eq.trans hd.superClass_eq.symm,
    hassembled'.discriminatorName.trans hassembled.discriminatorName.symm, ?_, ?_⟩
  · have hvariables := forall₂_comp.1 ⟨_, hassembled.instanceVariables.flip,
      (List.forall₂_and_left _ _).2 ⟨fun _ hmem => hmem, hassembled'.instanceVariables⟩⟩
    rw [hassembled.componentKey]
    refine hvariables.imp ?_
    rintro v v' ⟨property, hv, hproperty, hv'⟩
    exact hwider.agrees hkeys hschema hdescribes hproperty hv hv'
  · obtain ⟨subclasses', hsubclasses', hperm'⟩ :=
      subclassesOf_of_perm hperm hassembled.subclasses
    rw [hassembled'.subclasses, Except.ok.injEq] at hsubclasses'
    rw [hsubclasses']
    exact hperm'.symm

end Scope

/-! ## Models -/

namespace ClassModel

variable {home : Value} {registry : TypeRegistry} {accessibility : Accessibility}
  {schemas schemas' : Entries Scalar Mapping} {doc doc' : Document}

/-- Components that have a model have one in every order. -/
lemma exists_model_of_perm (htexts : Entries.TextKeys schemas)
    (hkeyed : ∀ entry ∈ schemas, Value.textKeyedEntries entry.2 = true)
    (hperm : schemas.Perm schemas') (hschemas : doc.schemas = .ok schemas)
    (hschemas' : doc'.schemas = .ok schemas')
    (h : ∃ m, ofDocument doc home registry accessibility = .ok m) :
    ∃ m', ofDocument doc' home registry accessibility = .ok m' := by
  obtain ⟨m, h⟩ := h
  obtain ⟨components, hlays, hall⟩ := (ofDocument_of_textKeys htexts hschemas).1 h
  obtain ⟨components', hlays', hcomponents⟩ := hlays.perm hperm
  have hblueprint := hlays.blueprint htexts hkeyed
  have hwider := wider_scopeOf registry accessibility htexts (htexts.perm hperm) hlays'
    (hperm.map _).subset hcomponents.subset
  have hbuildable := (Scope.exists_realizes_iff _).1 (exists_forall₂_iff.1 ⟨_, hall⟩)
  obtain ⟨classes, hclasses⟩ := exists_forall₂_iff.2 ((Scope.exists_realizes_iff
      (scopeOf registry accessibility schemas' components')).2 fun c hc => by
    obtain ⟨ancestors, hbuild⟩ := hbuildable c (hcomponents.mem_iff.2 hc)
    exact ⟨ancestors, hbuild.of_perm hwider (hperm.map _) hcomponents hblueprint.exists_typeOfKey⟩)
  exact ⟨⟨classes⟩, (ofDocument_of_textKeys (htexts.perm hperm) hschemas').2
    ⟨components', hlays', hclasses⟩⟩

variable {m m' : ClassModel}

/-- The models of the same components in two orders have agreeing classes. -/
lemma classes_of_perm (htexts : Entries.TextKeys schemas)
    (hkeyed : ∀ entry ∈ schemas, Value.textKeyedEntries entry.2 = true)
    (hperm : schemas.Perm schemas') (hschemas : doc.schemas = .ok schemas)
    (hschemas' : doc'.schemas = .ok schemas')
    (hm : ofDocument doc home registry accessibility = .ok m)
    (hm' : ofDocument doc' home registry accessibility = .ok m') :
    m.classes.map (fun c => Scalar.text c.componentKey) = Entries.keys schemas ∧
      m'.classes.map (fun c => Scalar.text c.componentKey) = Entries.keys schemas' ∧
      ∀ c ∈ m.classes, ∀ c' ∈ m'.classes, c.componentKey = c'.componentKey →
        c.Agrees registry schemas c' ∧
        c.subclasses.map (·.type) = (m.subclassesOf c).map ClassDef.type ∧
        c'.subclasses.map (·.type) = (m'.subclassesOf c').map ClassDef.type := by
  have htexts' := htexts.perm hperm
  obtain ⟨components, hlays, hall⟩ := (ofDocument_of_textKeys htexts hschemas).1 hm
  obtain ⟨components', hlays', hall'⟩ := (ofDocument_of_textKeys htexts' hschemas').1 hm'
  obtain ⟨reordered, hlays'', hcomponents⟩ := hlays.perm hperm
  obtain rfl := hlays''.unique hlays'
  have hblueprint := hlays.blueprint htexts hkeyed
  have hblueprint' := hlays'.blueprint htexts' fun entry hentry =>
    hkeyed entry (hperm.symm.subset hentry)
  have hwider := wider_scopeOf registry accessibility htexts htexts' hlays'
    (hperm.map _).subset hcomponents.subset
  refine ⟨Scope.map_text_componentKey hblueprint hall,
    Scope.map_text_componentKey hblueprint' hall', fun c hc c' hc' hkey => ⟨?_,
      Scope.map_type_subclasses hblueprint hall hc, Scope.map_type_subclasses hblueprint' hall' hc'⟩⟩
  obtain ⟨e, he, hrealizes⟩ := forall₂_right hall hc
  obtain ⟨e', he', hrealizes'⟩ := forall₂_right hall' hc'
  have hsame : e = e' := by
    refine List.inj_on_of_nodup_map hblueprint.nodup_keys he (hcomponents.mem_iff.2 he') ?_
    obtain ⟨_, hrealizes⟩ := hrealizes
    obtain ⟨_, hrealizes'⟩ := hrealizes'
    rw [← hrealizes.assembled.componentKey, ← hrealizes'.assembled.componentKey, hkey]
  obtain rfl := hsame
  obtain ⟨schema, hschema, hdescribes, -⟩ :=
    hblueprint.describes_of_find? (Lineage.find?_of_mem hblueprint.nodup_keys he)
  exact Scope.agrees_of_perm hwider (hperm.map _) hcomponents hschema hdescribes hrealizes
    hrealizes'

end ClassModel

end SchemaClasses
