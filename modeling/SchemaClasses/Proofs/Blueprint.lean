import SchemaClasses.Proofs.Lineage

/-!
# Blueprints

A blueprint is what the first passes over a document leave: its components, described one by one in
document order, with their packages settled, no two of them making the same class.  Everything
that a later pass reads is in it, and everything in it is told by the schemas (`Blueprint`).

Components know each other by their keys, so the chains of bases among components are those among
the schemas: `base_iff` and `baseChain_of_chain` carry one to the other.
-/

namespace SchemaClasses

open Lineage (Components Chain find? discriminator?)

/-! ## Packages -/

/-- Two components that make the same class. -/
def Component.sameClass (c d : Component Scalar) : Bool :=
  c.package == d.package && c.className == d.className

namespace Component

/-- A described component with its package settled. -/
def Settles (c : Component Value) (d : Component Scalar) : Prop :=
  c.package = .scalar d.package ∧ d = c.withPackage d.package

abbrev Distinct (cs : Components) : Prop := cs.Pairwise fun c d => c.sameClass d = false

variable {settled result new : Components} {cs : List (Component Value)}

/-- A component whose package is a scalar comes after those before it, unless one of them makes
the same class. -/
lemma settlePackages_cons {c : Component Value} {package : Scalar}
    (hc : c.package = .scalar package) :
    settlePackages settled (c :: cs) =
      match settled.find? fun d => d.sameClass (c.withPackage package) with
      | some first => failure (.duplicate first.key c.key package) (.text c.className)
      | none => settlePackages (settled ++ [c.withPackage package]) cs := by
  rw [settlePackages, hc]
  rfl

/-- What has been settled: the components in their order, no class made twice. -/
lemma settles_of_settlePackages (h : settlePackages settled cs = .ok result)
    (hsettled : Distinct settled) :
    ∃ new, result = settled ++ new ∧ List.Forall₂ Settles cs new ∧ Distinct result := by
  induction cs generalizing settled with
  | nil =>
      obtain rfl := Except.ok.inj h
      exact ⟨[], by simp, .nil, hsettled⟩
  | cons c rest ih =>
      cases hpackage : c.package with
      | list items ring => simp [settlePackages, hpackage, Value.scalar?] at h
      | mapping entries ring => simp [settlePackages, hpackage, Value.scalar?] at h
      | scalar package =>
          rw [settlePackages_cons hpackage] at h
          split at h
          · simp at h
          · rename_i hnone
            rw [List.find?_eq_none] at hnone
            obtain ⟨new, rfl, hnew, hdistinct⟩ := ih h (by
              refine List.pairwise_append.2 ⟨hsettled, List.pairwise_singleton _ _, ?_⟩
              intro d hd e he
              rw [List.mem_singleton.1 he]
              exact Bool.not_eq_true _ ▸ hnone d hd)
            exact ⟨c.withPackage package :: new, by simp, .cons ⟨hpackage, rfl⟩ hnew, hdistinct⟩

lemma settlePackages_of_settles (hnew : List.Forall₂ Settles cs new)
    (hdistinct : Distinct (settled ++ new)) :
    settlePackages settled cs = .ok (settled ++ new) := by
  induction hnew generalizing settled with
  | nil => rw [settlePackages, List.append_nil]
  | @cons c d cs new hd _ ih =>
      obtain ⟨hpackage, hd⟩ := hd
      have hnone : settled.find? (fun e => e.sameClass (c.withPackage d.package)) = none := by
        rw [List.find?_eq_none]
        intro e he
        rw [← hd, Bool.not_eq_true]
        exact (List.pairwise_append.1 hdistinct).2.2 e he d List.mem_cons_self
      rw [settlePackages_cons hpackage, hnone, ← hd]
      have happend : settled ++ d :: new = settled ++ [d] ++ new := by simp
      rw [happend] at hdistinct ⊢
      exact ih hdistinct

lemma Describes.settle {keys : List Scalar} {entry : Scalar × Mapping} {c : Component Value}
    {d : Component Scalar} (h : Describes keys entry c) (hd : Settles c d) :
    Describes keys entry d := by
  obtain ⟨-, hd⟩ := hd
  rw [hd]
  exact ⟨h.key, h.className, h.base, h.baseless, h.baseKnown, h.textKeys, h.property,
    h.discriminator, h.declared⟩

/-! ## Components made from schemas -/

/-- **A component is made from an entry**: it is what the entry says, with its package settled. -/
def MadeFrom (home : Value) (keys : List Scalar) (entry : Scalar × Mapping)
    (c : Component Scalar) : Prop :=
  ∃ d, describe home keys entry = .ok d ∧ Settles d c

namespace MadeFrom

variable {home : Value} {keys keys' : List Scalar} {entry : Scalar × Mapping}
  {c c' : Component Scalar}

lemma unique (h : MadeFrom home keys entry c) (h' : MadeFrom home keys entry c') : c = c' := by
  obtain ⟨d, hd, hpackage, hc⟩ := h
  obtain ⟨d', hd', hpackage', hc'⟩ := h'
  obtain rfl := Except.ok.inj (hd.symm.trans hd')
  rw [hpackage, Value.scalar.injEq] at hpackage'
  rw [hc, hc', hpackage']

/-- What an entry says about its names and its base needs no more than that it can be described. -/
lemma names (h : MadeFrom home keys entry c) :
    entry.1 = .text c.key ∧ c.className = Text.pascalCase c.key ∧
      ∀ key, c.base = some key ↔ Schema.Extends entry.2 key := by
  obtain ⟨key, schema⟩ := entry
  obtain ⟨d, hd, -, hc⟩ := h
  obtain ⟨k, composition, gathered, rfl, -, hcomposition, -, -, rfl⟩ := describe_eq_ok.1 hd
  obtain ⟨-, -, hbase⟩ := compositionOf_eq_ok.1 hcomposition
  rw [hc]
  exact ⟨rfl, rfl, fun key => extends_of_base hbase key⟩

/-- More keys change nothing for a component that can be made without them. -/
lemma mono (h : MadeFrom home keys entry c) (hsub : keys ⊆ keys') :
    MadeFrom home keys' entry c := by
  obtain ⟨key, schema⟩ := entry
  obtain ⟨d, hd, hc⟩ := h
  obtain ⟨k, composition, gathered, rfl, hne, hcomposition, hrest⟩ := describe_eq_ok.1 hd
  obtain ⟨hcomposed, hfragments, hbase⟩ := compositionOf_eq_ok.1 hcomposition
  refine ⟨d, describe_eq_ok.2 ⟨k, composition, gathered, rfl, hne, ?_, hrest⟩, hc⟩
  refine compositionOf_eq_ok.2 ⟨hcomposed.mono hsub, hfragments, hbase.imp_right ?_⟩
  rintro ⟨base, hrefs, hmem, hsome⟩
  exact ⟨base, hrefs, hsub hmem, hsome⟩

end MadeFrom

end Component

/-! ## Blueprints -/

/-- **The components of a document, described and settled.**  One component per schema, in document
order, and no two of them make the same class. -/
structure Blueprint (home : Value) (schemas : Entries Scalar Mapping)
    (components : Components) : Prop where
  textKeys : Entries.TextKeys schemas
  described : List.Forall₂ (fun entry c => Component.Describes (Entries.keys schemas) entry c ∧
    Schema.package home entry.2 = .scalar c.package) schemas components
  distinct : Component.Distinct components

namespace Blueprint

variable {home : Value} {schemas : Entries Scalar Mapping} {components : Components}

lemma keys_eq (h : Blueprint home schemas components) :
    Entries.keys schemas = components.map fun c => Scalar.text c.key :=
  map_eq_of_forall₂ h.described fun _ _ hc => hc.1.key

lemma nodup_keys (h : Blueprint home schemas components) :
    (components.map (·.key)).Nodup := by
  have hnodup := h.textKeys.2
  change (Entries.keys schemas).Nodup at hnodup
  rw [h.keys_eq] at hnodup
  refine List.Nodup.of_map Scalar.text ?_
  rwa [List.map_map]

lemma exists_find? (h : Blueprint home schemas components) {key : String}
    (hkey : Scalar.text key ∈ Entries.keys schemas) : ∃ c, find? components key = some c := by
  rw [h.keys_eq] at hkey
  obtain ⟨c, hc, heq⟩ := List.mem_map.1 hkey
  obtain rfl : c.key = key := Scalar.text.inj heq
  exact ⟨c, Lineage.find?_of_mem h.nodup_keys hc⟩

lemma closed (h : Blueprint home schemas components) :
    ∀ c ∈ components, ∀ b, c.base = some b → ∃ d, find? components b = some d := by
  intro c hc b hb
  obtain ⟨entry, -, hdescribes, -⟩ := forall₂_right h.described hc
  exact h.exists_find? (hdescribes.baseKnown b hb)

lemma textDiscriminators (h : Blueprint home schemas components) :
    Lineage.TextDiscriminators components := by
  intro c hc
  obtain ⟨entry, -, hdescribes, -⟩ := forall₂_right h.described hc
  exact hdescribes.exists_text

lemma textDiscriminators_of_chain (h : Blueprint home schemas components)
    {start : Option String} {chain : Components} (hchain : Chain components start chain) :
    Lineage.TextDiscriminators chain := fun _ hc =>
  h.textDiscriminators _ (Lineage.mem_of_find? (hchain.from_mem hc).1)

/-- A schema stands under the key of its component, and the component says what it says. -/
lemma describes_of_find? (h : Blueprint home schemas components) {key : String}
    {c : Component Scalar} (hc : find? components key = some c) :
    ∃ schema, Entries.get? schemas (.text key) = some schema ∧
      Component.Describes (Entries.keys schemas) (.text key, schema) c ∧
      Schema.package home schema = .scalar c.package := by
  obtain ⟨⟨k, schema⟩, hentry, hdescribes, hpackage⟩ :=
    forall₂_right h.described (Lineage.mem_of_find? hc)
  obtain rfl : k = .text key := by
    have hk := hdescribes.key
    rwa [Lineage.key_of_find? hc] at hk
  exact ⟨schema, h.textKeys.get?_of_mem hentry, hdescribes, hpackage⟩

lemma find?_of_get? (h : Blueprint home schemas components) {key : String}
    {schema : Mapping} (hschema : Entries.get? schemas (.text key) = some schema) :
    ∃ c, find? components key = some c ∧
      Component.Describes (Entries.keys schemas) (.text key, schema) c := by
  obtain ⟨c, hc⟩ := h.exists_find?
    (List.mem_map_of_mem (f := (·.1)) (Entries.mem_of_get?_text hschema))
  obtain ⟨schema', hschema', hdescribes, -⟩ := h.describes_of_find? hc
  rw [hschema, Option.some.injEq] at hschema'
  exact ⟨c, hc, hschema' ▸ hdescribes⟩

/-- The bases of the components are those that the schemas name. -/
theorem base_iff (h : Blueprint home schemas components) {key base : String} :
    Lineage.Base components key base ↔ Schema.Base schemas key base := by
  constructor
  · rintro ⟨c, hc, hbase⟩
    obtain ⟨schema, hschema, hdescribes, -⟩ := h.describes_of_find? hc
    exact ⟨schema, hschema, (hdescribes.base base).1 hbase⟩
  · rintro ⟨schema, hschema, hextends⟩
    obtain ⟨c, hc, hdescribes⟩ := h.find?_of_get? hschema
    exact ⟨c, hc, (hdescribes.base base).2 hextends⟩

/-- A chain of components follows the references of the schemas up to one without a reference. -/
theorem baseChain_of_chain (h : Blueprint home schemas components) {key : String}
    {c : Component Scalar} {ancestors : Components}
    (hchain : Chain components (some key) (c :: ancestors)) :
    Schema.BaseChain schemas key (ancestors.map (·.key)) := by
  induction ancestors generalizing key c with
  | nil =>
      cases hchain with
      | cons hc rest =>
          obtain ⟨schema, hschema, hdescribes, -⟩ := h.describes_of_find? hc
          refine .root hschema (hdescribes.baseless.1 ?_)
          cases hbase : c.base with
          | none => rfl
          | some b =>
              rw [hbase] at rest
              cases rest
  | cons base rest ih =>
      cases hchain with
      | cons hc rest' =>
          cases hbase : c.base with
          | none =>
              rw [hbase] at rest'
              cases rest'
          | some b =>
              rw [hbase] at rest'
              have hkey : base.key = b := by
                cases rest' with
                | cons hb _ => exact Lineage.key_of_find? hb
              rw [List.map_cons, hkey]
              exact .step (h.base_iff.1 ⟨c, hc, hbase⟩) (ih rest')

end Blueprint

end SchemaClasses
