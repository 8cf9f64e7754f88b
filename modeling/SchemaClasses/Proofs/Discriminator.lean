import SchemaClasses.Proofs.Inheritance

/-!
# One discriminator per inheritance tree

The name of a discriminator is settled along chains of components, the flag of a variable is set
when its class is built, and `ClassDef.discriminator?` looks through the ancestors of a class when
it is asked.  `discriminators_of_ofDocument` says that the three agree: a class and its superclass
have the same discriminator name, the flagged variables are those of this name, and what a class
answers is the variable of this name that the nearest class on its way up declares.

Only the flags need the keys of the document to be texts: a property named `null` would be flagged
where there is no discriminator.
-/

namespace SchemaClasses

open Lineage (Components Chain discriminator?)

namespace Scope

variable {scope : Scope} {c : Component Scalar} {d : ClassDef} {ancestors : Components}
  {classes : List ClassDef}

/-! ## The name -/

/-- **A class has the discriminator name of its superclass**, and its superclass has one. -/
lemma RealizesAlong.discriminatorName_super
    (hall : List.Forall₂ scope.Realizes scope.components classes)
    (h : scope.RealizesAlong c ancestors d) {s : ClassDef} (hs : d.superClass = some s) :
    ∃ name, s.discriminatorName = some name ∧ d.discriminatorName = some name := by
  cases ancestors with
  | nil =>
      rw [h.superClass_of_nil] at hs
      simp at hs
  | cons base rest =>
      obtain ⟨s', -, hs', hrealizes⟩ := h.superClass_of_cons hall
      obtain rfl : s = s' := Option.some.inj (hs.symm.trans hs')
      obtain ⟨name, hname⟩ := h.discriminated (by simp)
      refine ⟨name, ?_, ?_⟩
      · rw [hrealizes.assembled.discriminatorName, hname]
      · rw [h.assembled.discriminatorName, Lineage.discriminator?_cons_of_some hname]

lemma RealizesAlong.discriminatorName_ancestors
    (hall : List.Forall₂ scope.Realizes scope.components classes)
    (h : scope.RealizesAlong c ancestors d) :
    ∀ s ∈ d.ancestors, s.discriminatorName ≠ none ∧ s.discriminatorName = d.discriminatorName := by
  induction ancestors generalizing c d with
  | nil =>
      rw [ClassDef.ancestors_of_none h.superClass_of_nil]
      simp
  | cons base rest ih =>
      obtain ⟨s, -, hs, hrealizes⟩ := h.superClass_of_cons hall
      obtain ⟨name, hsuper, hname⟩ := h.discriminatorName_super hall hs
      rw [ClassDef.ancestors_of_some hs, List.forall_mem_cons]
      refine ⟨⟨by simp [hsuper], by rw [hsuper, hname]⟩, fun e he => ?_⟩
      obtain ⟨hne, hsame⟩ := ih hrealizes e he
      exact ⟨hne, by rw [hsame, hsuper, hname]⟩

/-! ## The flags -/

lemma equals_text_iff {name : Scalar} {t : String} : (Scalar.text t).equals name = true ↔
    name = .text t := by
  rw [Scalar.text_equals, Scalar.text_beq]

/-- **A variable is flagged exactly if it has the name of the discriminator.** -/
lemma Assembled.isDiscriminator_iff (h : scope.Assembled c ancestors d)
    (htexts : Entries.TextKeys c.properties) {v : InstanceVariable}
    (hv : v ∈ d.instanceVariables) :
    (∃ t, v.name = .text t) ∧ (v.isDiscriminator = true ↔ d.discriminatorName = some v.name) := by
  obtain ⟨property, hproperty, hvariable⟩ := forall₂_right h.instanceVariables hv
  obtain ⟨-, -, -, hname, hflag⟩ := variableOf_eq_ok.1 hvariable
  obtain ⟨t, ht⟩ := htexts.1 property hproperty
  refine ⟨⟨t, by rw [hname, ht]⟩, ?_⟩
  rw [hflag, hname, ht, equals_text_iff, h.discriminatorName]
  cases discriminator? (c :: ancestors) with
  | none => simp
  | some n => simp

lemma Assembled.nodup_name (h : scope.Assembled c ancestors d)
    (htexts : Entries.TextKeys c.properties) : (d.instanceVariables.map (·.name)).Nodup := by
  rw [h.map_name]
  exact htexts.2

lemma Assembled.length_discriminators_le (h : scope.Assembled c ancestors d)
    (htexts : Entries.TextKeys c.properties) : d.discriminators.length ≤ 1 := by
  have hflagged : ∀ v ∈ d.discriminators, d.discriminatorName = some v.name := by
    intro v hv
    obtain ⟨hmem, hflag⟩ := List.mem_filter.1 hv
    exact ((h.isDiscriminator_iff htexts hmem).2).1 hflag
  have hnodup : (d.discriminators.map (·.name)).Nodup :=
    (h.nodup_name htexts).sublist (List.filter_sublist.map _)
  match hlist : d.discriminators with
  | [] => simp
  | [v] => simp
  | v :: w :: rest =>
      rw [hlist] at hflagged hnodup
      have hv := hflagged v (by simp)
      have hw := hflagged w (by simp)
      rw [hv, Option.some.injEq] at hw
      simp [hw] at hnodup

end Scope

/-! ## The lookup -/

namespace ClassDef

/-- A variable of this name is declared on a chain of classes, and nearer classes declare none. -/
def NearestDeclares (chain : List ClassDef) (name : Scalar) (v : InstanceVariable) : Prop :=
  ∃ before d after, chain = before ++ d :: after ∧ v ∈ d.instanceVariables ∧ v.name = name ∧
    ∀ e ∈ before, ∀ w ∈ e.instanceVariables, w.name ≠ name

/-- A class whose chain declares a variable of its discriminator name answers the nearest one. -/
lemma exists_discriminator? {d : ClassDef} {t : String}
    (hname : d.discriminatorName = some (.text t))
    (htexts : ∀ e ∈ d :: d.ancestors, ∀ v ∈ e.instanceVariables, ∃ s, v.name = .text s)
    (hdeclared : ∃ e ∈ d :: d.ancestors, ∃ v ∈ e.instanceVariables, v.name = .text t) :
    ∃ v, d.discriminator? = some v ∧ NearestDeclares (d :: d.ancestors) (.text t) v := by
  have hequals : ∀ e ∈ d :: d.ancestors, ∀ v ∈ e.instanceVariables,
      (v.name.equals (.text t) = true ↔ v.name = .text t) := by
    intro e he v hv
    obtain ⟨s, hs⟩ := htexts e he v hv
    rw [hs, Scope.equals_text_iff, eq_comm]
  obtain ⟨e, he, v, hv, hvname⟩ := hdeclared
  have hsome : ((d :: d.ancestors).findSome? fun e =>
      e.instanceVariables.find? (·.name.equals (.text t))).isSome = true := by
    rw [List.findSome?_isSome_iff]
    refine ⟨e, he, ?_⟩
    rw [List.find?_isSome]
    exact ⟨v, hv, (hequals e he v hv).2 hvname⟩
  obtain ⟨w, hw⟩ := Option.isSome_iff_exists.1 hsome
  refine ⟨w, by rw [discriminator?, hname]; exact hw, ?_⟩
  obtain ⟨before, e', after, hchain, hfind, hbefore⟩ := List.findSome?_eq_some_iff.1 hw
  have hmem : ∀ x ∈ before ++ e' :: after, x ∈ d :: d.ancestors := fun x hx => hchain ▸ hx
  have hw' : w ∈ e'.instanceVariables := List.mem_of_find?_eq_some hfind
  have hfound := List.find?_some hfind
  refine ⟨before, e', after, hchain, hw', ?_, fun x hx u hu hname' => ?_⟩
  · exact (hequals e' (hmem e' (by simp)) w hw').1 hfound
  · have hx' := hmem x (List.mem_append_left _ hx)
    have hnone := List.find?_eq_none.1 (hbefore x hx) u hu
    exact hnone ((hequals x hx' u hu).2 hname')

/-- **One discriminator rules the inheritance tree of a class.**  The class shares it with its
superclass and all its ancestors, its flagged variables are those of this name, and the variable it
answers is the one that the nearest class on its way up declares. -/
structure HasOneDiscriminator (c : ClassDef) : Prop where
  super : ∀ s, c.superClass = some s →
    s.discriminatorName ≠ none ∧ c.discriminatorName = s.discriminatorName
  ancestors : ∀ s ∈ c.ancestors,
    s.discriminatorName ≠ none ∧ s.discriminatorName = c.discriminatorName
  distinct : (c.instanceVariables.map (·.name)).Nodup
  flagged : ∀ v ∈ c.instanceVariables,
    v.isDiscriminator = true ↔ c.discriminatorName = some v.name
  single : c.discriminators.length ≤ 1
  nearest : ∀ name, c.discriminatorName = some name →
    ∃ v, c.discriminator? = some v ∧ v.isDiscriminator = true ∧ v.name = name ∧
      NearestDeclares (c :: c.ancestors) name v

end ClassDef

/-! ## Models -/

namespace Scope

variable {scope : Scope} {c : Component Scalar} {d : ClassDef} {ancestors : Components}
  {classes : List ClassDef} {schemas : Entries Scalar Mapping} {home : Value}

/-- The discriminator of a class is a text, and a variable of a class on its way up. -/
lemma RealizesAlong.exists_declared (hblueprint : Blueprint home schemas scope.components)
    (hall : List.Forall₂ scope.Realizes scope.components classes)
    (h : scope.RealizesAlong c ancestors d) {name : Scalar}
    (hname : d.discriminatorName = some name) :
    (∃ t, name = .text t) ∧ ∃ e ∈ d :: d.ancestors, ∃ v ∈ e.instanceVariables, v.name = name := by
  rw [h.assembled.discriminatorName] at hname
  obtain ⟨declaring, hmem, hdeclares⟩ := Lineage.mem_of_discriminator? hname
  have hcomponent := Lineage.mem_of_find? (h.chain.from_mem hmem).1
  refine ⟨hblueprint.textDiscriminators declaring hcomponent name hdeclares, ?_⟩
  have hclasses : List.Forall₂ scope.Realizes (c :: ancestors) (d :: d.ancestors) :=
    .cons ⟨ancestors, h⟩ ((h.ancestors hall).imp fun e s hs => hs.2)
  obtain ⟨e, he, _, hrealizes⟩ := forall₂_left hclasses hmem
  refine ⟨e, he, ?_⟩
  -- A declared discriminator is a property, and each property has its variable.
  obtain ⟨entry, -, hdescribes, -⟩ := forall₂_right hblueprint.described hcomponent
  obtain ⟨p, hp⟩ := hdescribes.declared name hdeclares
  obtain ⟨t, rfl⟩ := hblueprint.textDiscriminators declaring hcomponent name hdeclares
  have hkey : Scalar.text t ∈ declaring.properties.map (·.1) :=
    List.mem_map_of_mem (f := (·.1)) (Entries.mem_of_get?_text hp)
  rw [← hrealizes.assembled.map_name] at hkey
  obtain ⟨v, hv, hvname⟩ := List.mem_map.1 hkey
  exact ⟨v, hv, hvname⟩

/-- **A class built for a component of a blueprint has one discriminator.** -/
theorem RealizesAlong.hasOneDiscriminator
    (hblueprint : Blueprint home schemas scope.components)
    (hall : List.Forall₂ scope.Realizes scope.components classes)
    (h : scope.RealizesAlong c ancestors d) : d.HasOneDiscriminator := by
  have htexts : ∀ e ∈ c :: ancestors, Entries.TextKeys e.properties := by
    intro e he
    obtain ⟨entry, -, hdescribes, -⟩ := forall₂_right hblueprint.described
      (Lineage.mem_of_find? (h.chain.from_mem he).1)
    exact hdescribes.textKeys
  have hassembled := h.assembled
  have hown := htexts c List.mem_cons_self
  have hflags : ∀ e ∈ d :: d.ancestors, ∀ v ∈ e.instanceVariables, (∃ t, v.name = .text t) ∧
      (v.isDiscriminator = true ↔ e.discriminatorName = some v.name) := by
    have hclasses : List.Forall₂ scope.Realizes (c :: ancestors) (d :: d.ancestors) :=
      .cons ⟨ancestors, h⟩ ((h.ancestors hall).imp fun e s hs => hs.2)
    intro e he v hv
    obtain ⟨b, hb, _, hrealizes⟩ := forall₂_right hclasses he
    exact hrealizes.assembled.isDiscriminator_iff (htexts b hb) hv
  refine ⟨fun s hs => ?_, h.discriminatorName_ancestors hall, hassembled.nodup_name hown,
    fun v hv => (hflags d List.mem_cons_self v hv).2, hassembled.length_discriminators_le hown,
    fun name hname => ?_⟩
  · obtain ⟨name, hsuper, hname⟩ := h.discriminatorName_super hall hs
    exact ⟨by simp [hsuper], by rw [hsuper, hname]⟩
  · obtain ⟨⟨t, rfl⟩, hdeclared⟩ := h.exists_declared hblueprint hall hname
    obtain ⟨v, hv, hnearest⟩ := ClassDef.exists_discriminator? hname
      (fun e he v hv => (hflags e he v hv).1) hdeclared
    obtain ⟨before, e, after, hchain, hmem, hvname, -⟩ := id hnearest
    have he : e ∈ d :: d.ancestors := by
      rw [hchain]
      exact List.mem_append_right _ List.mem_cons_self
    refine ⟨v, hv, ((hflags e he v hmem).2).2 ?_, hvname, hnearest⟩
    rcases List.mem_cons.1 he with rfl | he
    · rw [hname, hvname]
    · rw [(h.discriminatorName_ancestors hall e he).2, hname, hvname]

end Scope

namespace ClassModel

/-- **Every class of a model has one discriminator**, that of its inheritance tree. -/
theorem discriminators_of_ofDocument {doc : Document} {home : Value}
    {registry : TypeRegistry} {accessibility : Accessibility} {m : ClassModel}
    (hdoc : doc.TextKeyed) (h : ofDocument doc home registry accessibility = .ok m) :
    ∀ c ∈ m.classes, c.HasOneDiscriminator := by
  obtain ⟨schemas, components, -, hblueprint, hall⟩ := blueprint_of_ofDocument hdoc h
  intro d hd
  obtain ⟨c, -, ancestors, hrealizes⟩ := forall₂_right hall hd
  exact hrealizes.hasOneDiscriminator hblueprint hall

theorem discriminators_of_puppies :
    (Document.ofSchemas puppies).TextKeyed ∧
    ∃ m, ofDocument (.ofSchemas puppies) (.text "App") {} .owner = .ok m ∧
      m.classes.map (·.name) = ["Puppy", "Dog", "Animal"] ∧
      ∀ c ∈ m.classes, c.HasOneDiscriminator := by
  obtain ⟨m, hm, hnames⟩ := exists_model_puppies
  exact ⟨textKeyed_puppies, m, hm, hnames, discriminators_of_ofDocument textKeyed_puppies hm⟩

end ClassModel

end SchemaClasses
