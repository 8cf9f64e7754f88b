import SchemaClasses.Proofs.Fragments

/-!
# Describing a component

`Component.describe` reads one schema component: its composition, then its fragments in order.
This file says when it succeeds and what it then gives, in the terms of `Schema`.  The two results
everything later rests on:

* `describe_isOk_iff`: a component can be described exactly if it is well formed on its own,
* `describes_of_describe`: what the description then says, field by field (`Describes`).
-/

namespace SchemaClasses

/-! ## References -/

namespace Reference

lemma below?_eq_some {root s rest : String} : below? root s = some rest ↔ s = root ++ rest := by
  rw [below?, Option.map_eq_some_iff]
  constructor
  · rintro ⟨cs, hcs, rfl⟩
    rw [List.isPrefixOf?_eq_some_iff_append_eq] at hcs
    rw [← String.toList_inj, String.toList_append, String.toList_ofList, hcs]
  · rintro rfl
    refine ⟨rest.toList, ?_, String.ofList_toList⟩
    rw [List.isPrefixOf?_eq_some_iff_append_eq, String.toList_append]

lemma schemaRoot_eq : schemaRoot = "#" ++ "/components/schemas/" := by decide

/-- **A reference is resolved exactly if it is the place of one of the components.** -/
theorem resolve_eq_ok {keys : List Scalar} {ref : Value} {key : String} :
    resolve keys ref = .ok key ↔ ref = .text (schemaRoot ++ key) ∧ Scalar.text key ∈ keys := by
  constructor
  · intro h
    rw [resolve] at h
    split at h
    · simp at h
    · rename_i s hs
      rw [Value.text?_eq_some] at hs
      split at h
      · simp at h
      · simp at h
      · rename_i key' _ hbelow
        split at h
        · rename_i hany
          obtain rfl : key' = key := by simpa using h
          rw [below?_eq_some] at hbelow
          exact ⟨by rw [hs, hbelow], by simpa using hany⟩
        · simp at h
  · rintro ⟨rfl, hmem⟩
    have hlocal : below? "#" (schemaRoot ++ key) = some ("/components/schemas/" ++ key) := by
      rw [below?_eq_some, schemaRoot_eq, String.append_assoc]
    have hschema : below? schemaRoot (schemaRoot ++ key) = some key := below?_eq_some.2 rfl
    have hany : keys.any (· == .text key) = true := by simpa using hmem
    simp [resolve, Value.text?, hlocal, hschema, hany]

end Reference

namespace Component

open Schema
open Value (textKeyedEntries)

/-! ## Composition -/

/-- The base that references name: none if there are none, and the component of a single one. -/
lemma baseOf_eq_ok {className : String} {keys : List Scalar} {references : List Value}
    {base : Option String} :
    baseOf className keys references = .ok base ↔
      (references = [] ∧ base = none) ∨
        ∃ key, references = [.text (Reference.schemaRoot ++ key)] ∧ Scalar.text key ∈ keys ∧
          base = some key := by
  match references with
  | [] => simp [baseOf, eq_comm]
  | [ref] =>
      rw [baseOf]
      cases hres : Reference.resolve keys ref with
      | error fault =>
          have hnone : ∀ key, ¬ (ref = .text (Reference.schemaRoot ++ key) ∧
              Scalar.text key ∈ keys) := by
            intro key hkey
            rw [Reference.resolve_eq_ok.2 hkey] at hres
            simp at hres
          constructor
          · intro h
            simp at h
          · rintro (⟨h, -⟩ | ⟨key, h, hmem, -⟩)
            · simp at h
            · exact absurd ⟨List.singleton_inj.1 h, hmem⟩ (hnone key)
      | ok key =>
          obtain ⟨rfl, hmem⟩ := Reference.resolve_eq_ok.1 hres
          constructor
          · intro h
            exact Or.inr ⟨key, rfl, hmem, (Except.ok.inj h).symm⟩
          · rintro (⟨h, -⟩ | ⟨key', h, hmem', rfl⟩)
            · simp at h
            · have hres' := Reference.resolve_eq_ok.2 ⟨List.singleton_inj.1 h, hmem'⟩
              rw [hres, Except.ok.injEq] at hres'
              rw [hres']
  | ref :: ref' :: rest => simp [baseOf]

lemma partReferences_parts (schema : Mapping) :
    partReferences (parts schema) = references schema := by
  rw [partReferences, references]
  congr 1
  funext part
  cases part <;> rfl

/-- The parts are mappings exactly if they can be read as such, and then nothing is lost. -/
lemma partMappings_eq_ok {className : String} {items : List Value} {mappings : List Mapping} :
    partMappings className items = .ok mappings ↔
      List.Forall₂ (fun part m => ∃ ring, part = Value.mapping m ring) items mappings := by
  rw [partMappings, traverse_eq_ok_iff]
  refine forall₂_congr fun part _ m => ?_
  cases part with
  | scalar s => simp
  | list items ring => simp
  | mapping entries ring => simp

lemma filterMap_mapping?_of_forall₂ {items : List Value} {mappings : List Mapping}
    (h : List.Forall₂ (fun part m => ∃ ring, part = Value.mapping m ring) items mappings) :
    items.filterMap Value.mapping? = mappings := by
  induction h with
  | nil => rfl
  | cons hpart _ ih =>
      obtain ⟨ring, rfl⟩ := hpart
      rw [List.filterMap_cons, ih]
      rfl

/-- A composition is right if its parts are mappings and the base they refer to is known. -/
lemma composed_iff {keys : List Scalar} {schema : Mapping} {items : List Value}
    {ring : Option Nat} (hparts : Mapping.field? schema "allOf" = some (.list items ring)) :
    Composed keys schema ↔
      items ≠ [] ∧ (∀ part ∈ items, ∃ m mring, part = .mapping m mring) ∧
        (references schema = [] ∨ ∃ key, references schema =
          [.text (Reference.schemaRoot ++ key)] ∧ Scalar.text key ∈ keys) := by
  constructor
  · intro h
    obtain ⟨items', ring', heq, hne, hmappings⟩ := h.parts _ hparts
    obtain ⟨rfl, rfl⟩ := Value.list.inj heq
    exact ⟨hne, hmappings, h.references_eq⟩
  · rintro ⟨hne, hmappings, hbase⟩
    refine ⟨fun v hv => ?_, ?_, ?_⟩
    · rw [hparts, Option.some.injEq] at hv
      exact ⟨items, ring, hv.symm, hne, hmappings⟩
    · rcases hbase with h | ⟨key, h, -⟩ <;> simp [h]
    · rcases hbase with h | ⟨key, h, hmem⟩
      · simp [h]
      · intro ref href
        rw [h, List.mem_singleton] at href
        exact ⟨key, href, hmem⟩

/-- A composition in its steps, if it is a list that is not empty. -/
lemma compositionOf_of_parts {className : String} {keys : List Scalar} {schema : Mapping}
    {composition : Composition} {part : Value} {rest : List Value} {ring : Option Nat}
    (hfield : Mapping.field? schema "allOf" = some (.list (part :: rest) ring)) :
    compositionOf className keys schema = .ok composition ↔
      baseOf className keys (references schema) = .ok composition.base ∧
        (∀ p ∈ parts schema, ∃ m mring, p = Value.mapping m mring) ∧
        schema :: composition.fragments = fragments schema := by
  have hparts : parts schema = part :: rest := by rw [parts, hfield]
  rw [compositionOf, hfield]
  simp only [bind_eq_ok, ← hparts, partReferences_parts, partMappings_eq_ok]
  constructor
  · rintro ⟨base, hbase, mappings, hmappings, hok⟩
    obtain rfl := Except.ok.inj hok
    refine ⟨hbase, fun p hp => ?_, ?_⟩
    · obtain ⟨m, -, mring, rfl⟩ := forall₂_left hmappings hp
      exact ⟨m, mring, rfl⟩
    · rw [fragments, filterMap_mapping?_of_forall₂ hmappings]
  · rintro ⟨hbase, hmappings, hfragments⟩
    obtain ⟨mappings, hread⟩ := exists_forall₂_iff.2 hmappings
    refine ⟨composition.base, hbase, mappings, hread, ?_⟩
    rw [fragments, filterMap_mapping?_of_forall₂ hread, List.cons.injEq] at hfragments
    rw [← hfragments.2]
    rfl

lemma compositionOf_ne_ok {className : String} {keys : List Scalar} {schema : Mapping} {v : Value}
    (hfield : Mapping.field? schema "allOf" = some v)
    (hlist : ∀ part rest ring, v ≠ .list (part :: rest) ring) (composition : Composition) :
    compositionOf className keys schema ≠ .ok composition := by
  rw [compositionOf, hfield]
  cases v with
  | scalar s => simp
  | mapping entries ring => simp
  | list items ring =>
      cases items with
      | nil => simp
      | cons part rest => exact absurd rfl (hlist part rest ring)

/-- **A composition is read exactly if it has the right form.**  Its base is then the component
that its reference names, and its further fragments are the parts that are no references. -/
theorem compositionOf_eq_ok {className : String} {keys : List Scalar} {schema : Mapping}
    {composition : Composition} :
    compositionOf className keys schema = .ok composition ↔
      Composed keys schema ∧ schema :: composition.fragments = fragments schema ∧
        ((references schema = [] ∧ composition.base = none) ∨
          ∃ key, references schema = [.text (Reference.schemaRoot ++ key)] ∧
            Scalar.text key ∈ keys ∧ composition.base = some key) := by
  cases hfield : Mapping.field? schema "allOf" with
  | none =>
      have hparts : parts schema = [] := by rw [parts, hfield]
      have hrefs : references schema = [] := by rw [references, hparts, List.filterMap_nil]
      have hcomposed : Composed keys schema :=
        ⟨by simp [hfield], by simp [hrefs], by simp [hrefs]⟩
      rw [compositionOf, hfield]
      obtain ⟨base, further⟩ := composition
      simp [hcomposed, fragments, hparts, hrefs, eq_comm, and_comm]
  | some v =>
      by_cases hlist : ∃ part rest ring, v = .list (part :: rest) ring
      · obtain ⟨part, rest, ring, rfl⟩ := hlist
        have hparts : parts schema = part :: rest := by rw [parts, hfield]
        rw [compositionOf_of_parts hfield, composed_iff hfield, baseOf_eq_ok, hparts]
        constructor
        · rintro ⟨hbase, hmappings, hfragments⟩
          refine ⟨⟨by simp, hmappings, ?_⟩, hfragments, hbase⟩
          rcases hbase with ⟨h, -⟩ | ⟨key, h, hmem, -⟩
          · exact Or.inl h
          · exact Or.inr ⟨key, h, hmem⟩
        · rintro ⟨⟨-, hmappings, -⟩, hfragments, hbase⟩
          exact ⟨hbase, hmappings, hfragments⟩
      · constructor
        · intro h
          refine absurd h (compositionOf_ne_ok hfield (fun part rest ring hv => ?_) composition)
          exact hlist ⟨part, rest, ring, hv⟩
        · rintro ⟨hcomposed, -, -⟩
          obtain ⟨items, ring, rfl, hne, -⟩ := hcomposed.parts v hfield
          obtain ⟨part, rest, rfl⟩ := List.exists_cons_of_ne_nil hne
          exact absurd ⟨part, rest, ring, rfl⟩ hlist

/-- A composition has the base that its component extends. -/
lemma extends_of_base {keys : List Scalar} {schema : Mapping} {base : Option String}
    (h : (references schema = [] ∧ base = none) ∨
      ∃ key, references schema = [.text (Reference.schemaRoot ++ key)] ∧
        Scalar.text key ∈ keys ∧ base = some key) (key : String) :
    base = some key ↔ Extends schema key := by
  rcases h with ⟨hrefs, rfl⟩ | ⟨other, hrefs, -, rfl⟩
  · simp [Extends, hrefs]
  · simp [Extends, hrefs, eq_comm]

lemma exists_compositionOf (className : String) {keys : List Scalar} {schema : Mapping}
    (h : Composed keys schema) :
    ∃ composition, compositionOf className keys schema = .ok composition := by
  rcases h.references_eq with hrefs | ⟨key, hrefs, hmem⟩
  · exact ⟨⟨none, _⟩, compositionOf_eq_ok.2 ⟨h, rfl, Or.inl ⟨hrefs, rfl⟩⟩⟩
  · exact ⟨⟨some key, _⟩, compositionOf_eq_ok.2 ⟨h, rfl, Or.inr ⟨key, hrefs, hmem, rfl⟩⟩⟩

/-! ## Descriptions -/

/-- Only a text key makes a class name that is not empty. -/
lemma classNameOf_eq_ok {key : Scalar} {className : String} (h : classNameOf key = .ok className)
    (hne : className ≠ "") : ∃ k, key = .text k ∧ className = Text.pascalCase k := by
  cases key with
  | text k => exact ⟨k, rfl, (Except.ok.inj h).symm⟩
  | _ =>
      rw [classNameOf] at h
      · split at h
        · simp at h
        · exact absurd (Except.ok.inj h).symm hne
      · simp

/-- What a description says about a component, read off the component itself. -/
structure Describes {Package : Type} (keys : List Scalar) (entry : Scalar × Mapping)
    (c : Component Package) : Prop where
  key : entry.1 = .text c.key
  className : c.className = Text.pascalCase c.key
  base : ∀ key, c.base = some key ↔ Extends entry.2 key
  baseless : c.base = none ↔ references entry.2 = []
  baseKnown : ∀ key, c.base = some key → Scalar.text key ∈ keys
  textKeys : Entries.TextKeys c.properties
  property : ∀ name, Entries.get? c.properties (.text name) = property? entry.2 name
  discriminator : ∀ n, n ∈ c.discriminators ↔ ∃ name, n = .text name ∧ Declares entry.2 name
  declared : ∀ n ∈ c.discriminators, ∃ p, Entries.get? c.properties n = some p

lemma Describes.exists_text {Package : Type} {keys : List Scalar} {entry : Scalar × Mapping}
    {c : Component Package} (h : Describes keys entry c) :
    ∀ n ∈ c.discriminators, ∃ name, n = .text name := by
  intro n hn
  obtain ⟨name, hname, -⟩ := (h.discriminator n).1 hn
  exact ⟨name, hname⟩

variable {home : Value} {keys : List Scalar} {schema : Mapping}

/-- A description in its steps: a class name, the composition, the fragments, and the check that
the discriminators are properties. -/
lemma describe_eq_ok {key : Scalar} {c : Component Value} :
    describe home keys (key, schema) = .ok c ↔
      ∃ k composition gathered, key = .text k ∧ Text.pascalCase k ≠ "" ∧
        compositionOf (Text.pascalCase k) keys schema = .ok composition ∧
        gatherAll (Text.pascalCase k) {} (schema :: composition.fragments) = .ok gathered ∧
        (∀ n ∈ gathered.discriminators.items, Entries.contains gathered.properties n = true) ∧
        c = {
          key := k
          className := Text.pascalCase k
          package := Schema.package home schema
          base := composition.base
          properties := gathered.properties
          discriminators := gathered.discriminators.items } := by
  constructor
  · intro h
    rw [describe, bind_eq_ok] at h
    obtain ⟨className, hname, h⟩ := h
    split at h
    · simp [bind_eq_ok] at h
    · rename_i hne
      obtain ⟨k, rfl, rfl⟩ := classNameOf_eq_ok hname hne
      simp only [bind_eq_ok] at h
      obtain ⟨composition, hcomposition, gathered, hgathered, h⟩ := h
      split at h
      · simp at h
      · rename_i hfind
        refine ⟨k, composition, gathered, rfl, hne, hcomposition, hgathered, fun n hn => ?_,
          (Except.ok.inj h).symm⟩
        simpa using List.find?_eq_none.1 hfind n hn
  · rintro ⟨k, composition, gathered, rfl, hne, hcomposition, hgathered, hdeclared, rfl⟩
    have hfind : gathered.discriminators.items.find? (fun name =>
        !Entries.contains gathered.properties name) = none := by
      rw [List.find?_eq_none]
      intro n hn
      simp [hdeclared n hn]
    rw [describe, bind_eq_ok]
    refine ⟨Text.pascalCase k, rfl, ?_⟩
    rw [if_neg hne]
    simp only [bind_eq_ok]
    refine ⟨composition, hcomposition, gathered, hgathered, ?_⟩
    rw [hfind]
    rfl

/-- What is gathered from all fragments of a component is what the component says. -/
lemma gathered_component {className : String} {g : Gathered}
    (hkeyed : textKeyedEntries schema = true)
    (h : gatherAll className {} (fragments schema) = .ok g) :
    Entries.TextKeys g.properties ∧
      (∀ name, Entries.get? g.properties (.text name) = property? schema name) ∧
      ∀ n, n ∈ g.discriminators.items ↔ ∃ name, n = .text name ∧ Declares schema name := by
  obtain ⟨hkeys, hproperty, hdiscriminator⟩ :=
    gathered_of_gatherAll (fun f hf => textKeyed_of_mem_fragments hkeyed hf) h
  refine ⟨hkeys ⟨by simp, by simp⟩, fun name => ?_, fun n => ?_⟩
  · rw [hproperty, property?, Entries.get?_nil, Option.or_none]
  · rw [hdiscriminator]
    simp [Declares]

/-- **What a description says is what the component says.** -/
theorem describes_of_describe {entry : Scalar × Mapping} {c : Component Value}
    (hkeyed : textKeyedEntries entry.2 = true) (h : describe home keys entry = .ok c) :
    Describes keys entry c ∧ c.package = Schema.package home entry.2 := by
  obtain ⟨key, schema⟩ := entry
  obtain ⟨k, composition, gathered, rfl, -, hcomposition, hgathered, hdeclared, rfl⟩ :=
    describe_eq_ok.1 h
  obtain ⟨-, hfragments, hbase⟩ := compositionOf_eq_ok.1 hcomposition
  rw [hfragments] at hgathered
  obtain ⟨hkeys, hproperty, hdiscriminator⟩ := gathered_component hkeyed hgathered
  refine ⟨{
    key := rfl
    className := rfl
    base := fun key => ?_
    baseless := ?_
    baseKnown := fun key hk => ?_
    textKeys := hkeys
    property := hproperty
    discriminator := hdiscriminator
    declared := fun n hn => ?_ }, rfl⟩
  · exact extends_of_base hbase key
  · rcases hbase with ⟨hrefs, hnone⟩ | ⟨other, hrefs, -, hsome⟩
    · simp [hrefs, hnone]
    · simp [hrefs, hsome]
  · rcases hbase with ⟨-, hnone⟩ | ⟨other, -, hmem, hsome⟩
    · simp [hnone] at hk
    · obtain rfl : other = key := by simpa [hsome] using hk
      exact hmem
  · have hcontains := hdeclared n hn
    rwa [Entries.contains_eq_isSome, Option.isSome_iff_exists] at hcontains

/-- **A component can be described exactly if it is well formed on its own.** -/
theorem describe_isOk_iff {k : String} (hkeyed : textKeyedEntries schema = true) :
    (∃ c, describe home keys (.text k, schema) = .ok c) ↔ WellFormed keys k schema := by
  constructor
  · rintro ⟨c, h⟩
    obtain ⟨k', composition, gathered, hk, hne, hcomposition, hgathered, hdeclared, -⟩ :=
      describe_eq_ok.1 h
    obtain rfl : k = k' := Scalar.text.inj hk
    obtain ⟨hcomposed, hfragments, -⟩ := compositionOf_eq_ok.1 hcomposition
    rw [hfragments] at hgathered
    obtain ⟨-, hproperty, hdiscriminator⟩ := gathered_component hkeyed hgathered
    refine ⟨hne, hcomposed, (gatherAll_isOk_iff _ _).1 ⟨gathered, hgathered⟩, fun name hname => ?_⟩
    have hcontains := hdeclared _ ((hdiscriminator _).2 ⟨name, rfl, hname⟩)
    rwa [Entries.contains_eq_isSome, hproperty, Option.isSome_iff_exists] at hcontains
  · rintro ⟨hne, hcomposed, hobjects, hdeclared⟩
    obtain ⟨composition, hcomposition⟩ := exists_compositionOf (Text.pascalCase k) hcomposed
    obtain ⟨-, hfragments, -⟩ := compositionOf_eq_ok.1 hcomposition
    obtain ⟨gathered, hgathered⟩ := (gatherAll_isOk_iff (Text.pascalCase k) {}).2 hobjects
    obtain ⟨-, hproperty, hdiscriminator⟩ := gathered_component hkeyed hgathered
    refine ⟨_, describe_eq_ok.2 ⟨k, composition, gathered, rfl, hne, hcomposition,
      by rw [hfragments]; exact hgathered, fun n hn => ?_, rfl⟩⟩
    obtain ⟨name, rfl, hname⟩ := (hdiscriminator n).1 hn
    rw [Entries.contains_eq_isSome, hproperty, Option.isSome_iff_exists]
    exact hdeclared name hname

end Component

end SchemaClasses
