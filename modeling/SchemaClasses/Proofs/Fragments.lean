import Mathlib.Data.List.Basic
import SchemaClasses.Hierarchy.Component
import SchemaClasses.Proofs.Schema

/-!
# Reading fragments

The fragments of a component are read in order, each adding its properties and its discriminators
to what the ones before it have gathered.  `gather_isOk_iff` says which fragments can be read at
all, `adds_of_gather` what one of them adds, and `gathered_of_gatherAll` what all of them come to:
of a property the last declaration counts, of the discriminators every one.

Properties are written into entries, and discriminators into an ordered set.  Both look names up by
an equality that is coarser than being equal in general, but not on texts.
-/

namespace SchemaClasses

/-! ## Lists without repetition -/

lemma eraseDups_concat {α : Type} [BEq α] [LawfulBEq α] (as : List α) (a : α) :
    (as ++ [a]).eraseDups = if a ∈ as then as.eraseDups else as.eraseDups ++ [a] := by
  rw [List.eraseDups_append, List.removeAll]
  by_cases h : a ∈ as <;> simp [h, List.eraseDups_cons]

/-! ## Ordered sets of names -/

/-- Names that are texts are found in an ordered set after adding them, and no others are new. -/
lemma OrderedSet.mem_items_insertAll {s : OrderedSet Scalar} {names : List Scalar}
    (h : ∀ n ∈ names, ∃ t, n = .text t) (n : Scalar) :
    n ∈ (s.insertAll names).items ↔ n ∈ s.items ∨ n ∈ names := by
  induction names generalizing s with
  | nil => simp [insertAll]
  | cons name rest ih =>
      obtain ⟨⟨t, rfl⟩, hrest⟩ := List.forall_mem_cons.1 h
      have hstep : s.insertAll (.text t :: rest) = (s.insert (.text t)).insertAll rest := rfl
      rw [hstep, ih hrest, items_insert]
      split
      · rename_i hin
        have hmem : Scalar.text t ∈ s.items := by simpa [contains_eq_any] using hin
        constructor
        · rintro (hn | hn)
          · exact Or.inl hn
          · exact Or.inr (List.mem_cons_of_mem _ hn)
        · rintro (hn | hn)
          · exact Or.inl hn
          · rcases List.mem_cons.1 hn with rfl | hn
            · exact Or.inl hmem
            · exact Or.inr hn
      · simp [or_assoc]

namespace Component

open Schema
open Value (textKeyedEntries)

/-! ## Properties -/

/-- Properties are gathered exactly if each of them is a mapping, and are then written one after
the other. -/
lemma gatherProperties_eq_ok {className : String} {properties gathered : Entries Scalar Mapping}
    {entries : List (Scalar × Value)} :
    gatherProperties className properties entries = .ok gathered ↔
      ∃ schemas : List (Scalar × Mapping),
        List.Forall₂ (fun e e' => ∃ ring, e = (e'.1, Value.mapping e'.2 ring)) entries schemas ∧
          gathered = schemas.foldl (fun m e => Entries.insert m e.1 e.2) properties := by
  induction entries generalizing properties with
  | nil =>
      rw [gatherProperties, Except.ok.injEq]
      constructor
      · rintro rfl
        exact ⟨[], .nil, rfl⟩
      · rintro ⟨schemas, hrel, rfl⟩
        rw [List.forall₂_nil_left_iff] at hrel
        rw [hrel, List.foldl_nil]
  | cons entry rest ih =>
      obtain ⟨name, v⟩ := entry
      cases v with
      | mapping m ring =>
          rw [gatherProperties, ih]
          constructor
          · rintro ⟨schemas, hrel, rfl⟩
            exact ⟨(name, m) :: schemas, .cons ⟨ring, rfl⟩ hrel, rfl⟩
          · rintro ⟨schemas, hrel, rfl⟩
            rw [List.forall₂_cons_left_iff] at hrel
            obtain ⟨⟨name', m'⟩, schemas', ⟨ring', he⟩, hrel, rfl⟩ := hrel
            obtain ⟨rfl, he⟩ := Prod.mk.inj he
            obtain ⟨rfl, rfl⟩ := Value.mapping.inj he
            exact ⟨schemas', hrel, rfl⟩
      | scalar s =>
          simp [gatherProperties, failure, List.forall₂_cons_left_iff]
      | list items ring =>
          simp [gatherProperties, failure, List.forall₂_cons_left_iff]

lemma gatherProperties_isOk_iff (className : String) (properties : Entries Scalar Mapping)
    {entries : List (Scalar × Value)} :
    (∃ gathered, gatherProperties className properties entries = .ok gathered) ↔
      ∀ entry ∈ entries, ∃ p ring, entry.2 = .mapping p ring := by
  induction entries generalizing properties with
  | nil => simp [gatherProperties]
  | cons entry rest ih =>
      obtain ⟨name, v⟩ := entry
      rw [List.forall_mem_cons]
      cases v with
      | mapping m ring =>
          rw [gatherProperties, ih]
          simp
      | scalar s => simp [gatherProperties, failure]
      | list items ring => simp [gatherProperties, failure]

/-- Writing entries with distinct text keys: each of their keys finds its new value, and every
other key what it found before. -/
lemma get?_foldl_insert {schemas : List (Scalar × Mapping)} (hkeys : (schemas.map (·.1)).Nodup)
    (properties : Entries Scalar Mapping) (name : String) :
    Entries.get? (schemas.foldl (fun m e => Entries.insert m e.1 e.2) properties) (.text name) =
      (Entries.get? schemas (.text name)).or (Entries.get? properties (.text name)) := by
  induction schemas generalizing properties with
  | nil => rfl
  | cons e rest ih =>
      obtain ⟨k, m⟩ := e
      rw [List.map_cons, List.nodup_cons] at hkeys
      rw [List.foldl_cons, ih hkeys.2, Entries.get?_insert, Entries.get?_cons]
      by_cases hk : (k == .text name) = true
      · have hnone : Entries.get? rest (.text name) = none := by
          rw [Scalar.beq_text] at hk
          by_contra hne
          obtain ⟨m', hm'⟩ := Option.ne_none_iff_exists'.1 hne
          exact hkeys.1 (hk ▸ List.mem_map_of_mem (f := (·.1)) (Entries.mem_of_get?_text hm'))
        simp [hk, hnone]
      · simp [hk]

/-! ## Discriminators -/

@[simp] lemma failure_ne_ok {α : Type} {fault : ModelFault} {className : Scalar}
    {field : Option Scalar} {a : α} :
    (failure fault className field : Except Failure α) ≠ .ok a := raise_ne_ok

/-- A fragment names no discriminator exactly if none is given, or null. -/
lemma namedDiscriminator_eq_none {className : String} {fragment : Mapping} :
    namedDiscriminator className fragment = .ok none ↔
      ∀ v, Mapping.field? fragment "discriminator" = some v → v = .null := by
  cases hgiven : Mapping.field? fragment "discriminator" with
  | none => simp [namedDiscriminator, Mapping.field, hgiven, Value.isNull]
  | some v =>
      simp only [namedDiscriminator, Mapping.field_of_field? hgiven, Option.some.injEq,
        forall_eq']
      constructor
      · intro h
        split at h
        · rename_i hnull
          unfold Value.isNull at hnull
          split at hnull
          · rfl
          · exact absurd hnull (by simp)
        · split at h
          · split at h <;> simp at h
          · simp at h
      · rintro rfl
        rfl

/-- A fragment names a discriminator exactly if it gives a name that is not empty, directly or
inside a mapping. -/
lemma namedDiscriminator_eq_some {className : String} {fragment : Mapping} {name : String} :
    namedDiscriminator className fragment = .ok (some name) ↔
      name ≠ "" ∧ Names fragment name := by
  constructor
  · intro h
    simp only [namedDiscriminator] at h
    split at h
    · simp at h
    · split at h
      · rename_i hnull _ s hnamed
        split at h
        · simp at h
        · rename_i hne
          obtain rfl : s = name := by simpa using h
          rw [Value.text?_eq_some] at hnamed
          refine ⟨hne, ?_⟩
          cases hgiven : Mapping.field? fragment "discriminator" with
          | none => simp [Mapping.field, hgiven, Value.isNull] at hnull
          | some v =>
              rw [Mapping.field_of_field? hgiven] at hnamed
              cases v with
              | mapping m ring =>
                  refine .inside m ring hgiven ?_
                  change Mapping.field m "propertyName" = .text s at hnamed
                  cases hinner : Mapping.field? m "propertyName" with
                  | none => simp [Mapping.field, hinner] at hnamed
                  | some w => rw [← hnamed, Mapping.field_of_field? hinner]
              | scalar t => exact .directly (by rw [hgiven, ← hnamed])
              | list items ring => simp at hnamed
      · simp at h
  · rintro ⟨hne, hnames⟩
    cases hnames with
    | directly given =>
        simp [namedDiscriminator, Mapping.field_of_field? given, Value.isNull, Value.text?, hne]
    | inside m ring given named =>
        simp [namedDiscriminator, Mapping.field_of_field? given, Mapping.field_of_field? named,
          Value.isNull, Value.text?, hne]

/-- A fragment can be asked for its discriminator exactly if it gives one in a known form. -/
lemma namedDiscriminator_isOk_iff (className : String) {fragment : Mapping} :
    (∃ named, namedDiscriminator className fragment = .ok named) ↔
      ∀ v, Mapping.field? fragment "discriminator" = some v →
        v = .null ∨ ∃ name, name ≠ "" ∧ Names fragment name := by
  constructor
  · rintro ⟨named, h⟩ v hv
    cases named with
    | none => exact Or.inl (namedDiscriminator_eq_none.1 h v hv)
    | some name => exact Or.inr ⟨name, namedDiscriminator_eq_some.1 h⟩
  · intro h
    by_cases hnamed : ∃ name, name ≠ "" ∧ Names fragment name
    · obtain ⟨name, hname⟩ := hnamed
      exact ⟨some name, namedDiscriminator_eq_some.2 hname⟩
    · refine ⟨none, namedDiscriminator_eq_none.2 fun v hv => ?_⟩
      exact (h v hv).resolve_right hnamed

/-- What is read as the discriminator of a fragment is what the fragment names. -/
lemma mem_toList_iff_names {className : String} {fragment : Mapping} {named : Option String}
    (hnamed : namedDiscriminator className fragment = .ok named) {name : String} :
    name ∈ named.toList ↔ Names fragment name := by
  rw [Option.mem_toList]
  cases named with
  | none =>
      rw [namedDiscriminator_eq_none] at hnamed
      constructor
      · intro h
        cases h
      · intro h
        cases h with
        | directly given => exact absurd (hnamed _ given) (by simp)
        | inside m mring given _ => exact absurd (hnamed _ given) (by simp)
  | some other =>
      obtain ⟨-, hother⟩ := namedDiscriminator_eq_some.1 hnamed
      constructor
      · intro h
        exact Option.some.inj h ▸ hother
      · intro h
        rw [Names.unique hother h]

/-- The names of the properties that mark themselves. -/
lemma mem_marked_iff {entries : List (Scalar × Value)} (hkeyed : textKeyedEntries entries = true)
    (n : Scalar) :
    n ∈ (entries.filter fun entry => marksDiscriminator entry.2).map (·.1) ↔
      ∃ name p ring, n = .text name ∧ Mapping.field? entries name = some (.mapping p ring) ∧
        Mapping.field? p "x-discriminator" = some (.scalar (.bool true)) := by
  have hkeys := Mapping.textKeys_of_textKeyed hkeyed
  rw [List.mem_map]
  constructor
  · rintro ⟨⟨k, v⟩, hmem, rfl⟩
    obtain ⟨hmem, hmarks⟩ := List.mem_filter.1 hmem
    obtain ⟨name, hname⟩ := hkeys.1 _ hmem
    obtain rfl : k = .text name := hname
    cases v with
    | scalar s => simp [marksDiscriminator] at hmarks
    | list items ring => simp [marksDiscriminator] at hmarks
    | mapping p ring =>
        refine ⟨name, p, ring, rfl, hkeys.get?_of_mem hmem, ?_⟩
        simp only at hmarks
        rw [marksDiscriminator] at hmarks
        split at hmarks
        · rename_i b hb
          subst hmarks
          cases hfield : Mapping.field? p "x-discriminator" with
          | none => simp [Mapping.field, hfield] at hb
          | some w => rw [← hb, Mapping.field_of_field? hfield]
        · simp at hmarks
  · rintro ⟨name, p, ring, rfl, hp, hmark⟩
    refine ⟨(.text name, .mapping p ring), List.mem_filter.2 ⟨?_, ?_⟩, rfl⟩
    · exact Entries.mem_of_get?_text hp
    · simp [marksDiscriminator, Mapping.field_of_field? hmark]

/-! ## Fragments -/

lemma isText_iff {v : Value} {s : String} : v.isText s = true ↔ v = .text s := by
  unfold Value.isText
  split <;> simp_all

/-- The properties that a fragment gives; one that gives none has no properties. -/
def givenProperties (fragment : Mapping) : Value :=
  (Mapping.field? fragment "properties").getD (.mapping [])

/-- A fragment is read exactly if its type is that of an object and its properties and its
discriminator can be read. -/
lemma gather_eq_ok {className : String} {g g' : Gathered} {fragment : Mapping} :
    gather className g fragment = .ok g' ↔
      (∀ v, Mapping.field? fragment "type" = some v → v = .text "object") ∧
        ∃ entries ring properties named, givenProperties fragment = .mapping entries ring ∧
          gatherProperties className g.properties entries = .ok properties ∧
          namedDiscriminator className fragment = .ok named ∧
          g' = ⟨properties, (g.discriminators.insertAll (named.toList.map Scalar.text)).insertAll
            ((entries.filter fun entry => marksDiscriminator entry.2).map (·.1))⟩ := by
  have htype : ((Mapping.field? fragment "type").getD (.text "object")).isText "object" = true ↔
      ∀ v, Mapping.field? fragment "type" = some v → v = .text "object" := by
    rw [isText_iff]
    cases Mapping.field? fragment "type" <;> simp
  rw [← htype, gather]
  change _ ↔ _ ∧ ∃ entries ring properties named,
    (Mapping.field? fragment "properties").getD (.mapping []) = _ ∧ _
  by_cases hobject : ((Mapping.field? fragment "type").getD (.text "object")).isText "object"
  · rw [hobject]
    cases (Mapping.field? fragment "properties").getD (.mapping []) with
    | scalar s => simp
    | list items ring => simp
    | mapping entries ring =>
        simp only [Bool.not_true, Bool.false_eq_true, if_false, bind_eq_ok, true_and,
          Value.mapping.injEq]
        constructor
        · rintro ⟨properties, hproperties, named, hnamed, hg⟩
          exact ⟨entries, ring, properties, named, ⟨rfl, rfl⟩, hproperties, hnamed,
            (Except.ok.inj hg).symm⟩
        · rintro ⟨entries', ring', properties, named, ⟨rfl, rfl⟩, hproperties, hnamed, rfl⟩
          exact ⟨properties, hproperties, named, hnamed, rfl⟩
  · simp [hobject, bind_eq_ok]

/-- What reading one fragment adds to what was gathered before. -/
structure Adds (fragment : Mapping) (g g' : Gathered) : Prop where
  textKeys : Entries.TextKeys g.properties → Entries.TextKeys g'.properties
  property : ∀ name, Entries.get? g'.properties (.text name) =
    (propertyIn? fragment name).or (Entries.get? g.properties (.text name))
  discriminator : ∀ n, n ∈ g'.discriminators.items ↔ n ∈ g.discriminators.items ∨
    ∃ name, n = .text name ∧ (Names fragment name ∨ Marks fragment name)

variable {fragment : Mapping}

lemma textKeyed_givenProperties (hkeyed : textKeyedEntries fragment = true)
    {entries : List (Scalar × Value)} {ring : Option Nat}
    (h : givenProperties fragment = .mapping entries ring) : textKeyedEntries entries = true := by
  rw [givenProperties] at h
  cases hfield : Mapping.field? fragment "properties" with
  | none =>
      rw [hfield, Option.getD_none] at h
      obtain ⟨rfl, -⟩ := Value.mapping.inj h
      rfl
  | some v =>
      rw [hfield, Option.getD_some] at h
      rw [← Value.textKeyed_mapping entries ring, ← h]
      exact Mapping.textKeyed_of_field? hkeyed hfield

lemma propertyIn?_eq {entries : List (Scalar × Value)} {ring : Option Nat}
    (h : givenProperties fragment = .mapping entries ring) (name : String) :
    propertyIn? fragment name = (Mapping.field? entries name).bind Value.mapping? := by
  rw [givenProperties] at h
  rw [propertyIn?]
  cases hfield : Mapping.field? fragment "properties" with
  | none =>
      rw [hfield, Option.getD_none] at h
      obtain ⟨rfl, -⟩ := Value.mapping.inj h
      rfl
  | some v =>
      rw [hfield, Option.getD_some] at h
      rw [h]

/-- Names of mappings are found in a list of entries and in that of their schemas alike. -/
lemma get?_of_forall₂_mapping {entries : List (Scalar × Value)} {schemas : List (Scalar × Mapping)}
    (h : List.Forall₂ (fun e e' => ∃ ring, e = (e'.1, Value.mapping e'.2 ring)) entries schemas)
    (name : String) :
    Entries.get? schemas (.text name) = (Mapping.field? entries name).bind Value.mapping? := by
  rw [Mapping.field?]
  induction h with
  | nil => rfl
  | @cons e e' entries schemas he _ ih =>
      obtain ⟨ring, rfl⟩ := he
      obtain ⟨k, m⟩ := e'
      rw [Entries.get?_cons, Entries.get?_cons, ih]
      split <;> rfl

/-- The discriminators that reading a fragment adds are those that it names or marks. -/
lemma mem_discriminators_iff {className : String} {g : Gathered} {named : Option String}
    {entries : List (Scalar × Value)} {ring : Option Nat}
    (hkeyed : textKeyedEntries fragment = true)
    (hgiven : givenProperties fragment = .mapping entries ring)
    (hnamed : namedDiscriminator className fragment = .ok named) (n : Scalar) :
    n ∈ ((g.discriminators.insertAll (named.toList.map Scalar.text)).insertAll
      ((entries.filter fun entry => marksDiscriminator entry.2).map (·.1))).items ↔
      n ∈ g.discriminators.items ∨
        ∃ name, n = .text name ∧ (Names fragment name ∨ Marks fragment name) := by
  have hentries := textKeyed_givenProperties hkeyed hgiven
  have hnames : ∀ m, m ∈ named.toList.map Scalar.text ↔
      ∃ name, m = .text name ∧ Names fragment name := by
    intro m
    simp only [List.mem_map, mem_toList_iff_names hnamed, eq_comm, and_comm]
  have hmarks : ∀ m, m ∈ (entries.filter fun entry => marksDiscriminator entry.2).map (·.1) ↔
      ∃ name, m = .text name ∧ Marks fragment name := by
    intro m
    rw [mem_marked_iff hentries]
    constructor
    · rintro ⟨name, p, pring, rfl, hp, hmark⟩
      exact ⟨name, rfl, p, by rw [propertyIn?_eq hgiven, hp]; rfl, hmark⟩
    · rintro ⟨name, rfl, p, hp, hmark⟩
      rw [propertyIn?_eq hgiven, Option.bind_eq_some_iff] at hp
      obtain ⟨v, hv, hmapping⟩ := hp
      obtain ⟨pring, rfl⟩ := Value.mapping?_eq_some.1 hmapping
      exact ⟨name, p, pring, rfl, hv, hmark⟩
  rw [OrderedSet.mem_items_insertAll fun m hm => ((hmarks m).1 hm).imp fun _ h => h.1,
    OrderedSet.mem_items_insertAll fun m hm => ((hnames m).1 hm).imp fun _ h => h.1,
    hnames, hmarks, or_assoc, ← exists_or]
  simp only [← and_or_left]

/-- **Reading a fragment adds its properties and its discriminators.** -/
theorem adds_of_gather {className : String} {g g' : Gathered}
    (hkeyed : textKeyedEntries fragment = true) (h : gather className g fragment = .ok g') :
    Adds fragment g g' := by
  obtain ⟨-, entries, ring, properties, named, hgiven, hproperties, hnamed, rfl⟩ :=
    gather_eq_ok.1 h
  obtain ⟨schemas, hrel, rfl⟩ := gatherProperties_eq_ok.1 hproperties
  have hsame : entries.map (·.1) = schemas.map (·.1) := by
    refine map_eq_of_forall₂ hrel ?_
    rintro e e' ⟨ring, rfl⟩
    rfl
  obtain ⟨htexts, hnodup⟩ :=
    Mapping.textKeys_of_textKeyed (textKeyed_givenProperties hkeyed hgiven)
  refine ⟨Entries.textKeys_foldl_insert fun e he => ?_, fun name => ?_,
    mem_discriminators_iff hkeyed hgiven hnamed⟩
  · have hmem : e.1 ∈ entries.map (·.1) := hsame ▸ List.mem_map_of_mem he
    obtain ⟨entry, hentry, heq⟩ := List.mem_map.1 hmem
    exact heq ▸ htexts entry hentry
  · rw [get?_foldl_insert (hsame ▸ hnodup), get?_of_forall₂_mapping hrel, propertyIn?_eq hgiven]

/-- **A fragment is read exactly if it is an object schema.** -/
theorem gather_isOk_iff (className : String) (g : Gathered) :
    (∃ g', gather className g fragment = .ok g') ↔ IsObject fragment := by
  constructor
  · rintro ⟨g', h⟩
    obtain ⟨htype, entries, ring, properties, named, hgiven, hproperties, hnamed, -⟩ :=
      gather_eq_ok.1 h
    refine ⟨htype, fun v hv => ?_, (namedDiscriminator_isOk_iff className).1 ⟨named, hnamed⟩⟩
    rw [givenProperties, hv, Option.getD_some] at hgiven
    exact ⟨entries, ring, hgiven, (gatherProperties_isOk_iff _ _).1 ⟨properties, hproperties⟩⟩
  · intro hobject
    obtain ⟨named, hnamed⟩ := (namedDiscriminator_isOk_iff className).2 hobject.discriminator
    have hgiven : ∃ entries ring, givenProperties fragment = .mapping entries ring ∧
        ∀ entry ∈ entries, ∃ p pring, entry.2 = Value.mapping p pring := by
      rw [givenProperties]
      cases hfield : Mapping.field? fragment "properties" with
      | none => exact ⟨[], none, rfl, by simp⟩
      | some v => exact hobject.properties v hfield
    obtain ⟨entries, ring, hentries, hmappings⟩ := hgiven
    obtain ⟨properties, hproperties⟩ :=
      (gatherProperties_isOk_iff className g.properties).2 hmappings
    exact ⟨_, gather_eq_ok.2 ⟨hobject.type, entries, ring, properties, named, hentries,
      hproperties, hnamed, rfl⟩⟩

/-- Fragments are read exactly if all of them are object schemas. -/
theorem gatherAll_isOk_iff (className : String) (g : Gathered) {fragments : List Mapping} :
    (∃ g', gatherAll className g fragments = .ok g') ↔ ∀ f ∈ fragments, IsObject f := by
  induction fragments generalizing g with
  | nil => simp [gatherAll]
  | cons f rest ih =>
      rw [List.forall_mem_cons, ← gather_isOk_iff className g]
      constructor
      · rintro ⟨g', h⟩
        rw [gatherAll] at h
        split at h
        · rename_i g₁ hg₁
          exact ⟨⟨g₁, hg₁⟩, (ih g₁).1 ⟨g', h⟩⟩
        · simp at h
      · rintro ⟨⟨g₁, hg₁⟩, hrest⟩
        obtain ⟨g', hg'⟩ := (ih g₁).2 hrest
        refine ⟨g', ?_⟩
        rw [gatherAll, hg₁]
        exact hg'

/-- What reading several fragments gathers: the last declaration of a property counts, and every
discriminator that is named or marked. -/
lemma gathered_of_gatherAll {className : String} {g g' : Gathered} {fragments : List Mapping}
    (hkeyed : ∀ f ∈ fragments, textKeyedEntries f = true)
    (h : gatherAll className g fragments = .ok g') :
    (Entries.TextKeys g.properties → Entries.TextKeys g'.properties) ∧
      (∀ name, Entries.get? g'.properties (.text name) =
        (fragments.reverse.findSome? (propertyIn? · name)).or
          (Entries.get? g.properties (.text name))) ∧
      ∀ n, n ∈ g'.discriminators.items ↔ n ∈ g.discriminators.items ∨
        ∃ name, n = .text name ∧ ∃ f ∈ fragments, Names f name ∨ Marks f name := by
  induction fragments generalizing g with
  | nil =>
      cases h
      simp
  | cons f rest ih =>
      obtain ⟨hf, hrest⟩ := List.forall_mem_cons.1 hkeyed
      rw [gatherAll] at h
      split at h
      · rename_i g₁ hg₁
        have hadds := adds_of_gather hf hg₁
        obtain ⟨hkeys, hproperty, hdiscriminator⟩ := ih hrest h
        refine ⟨fun hg => hkeys (hadds.textKeys hg), fun name => ?_, fun n => ?_⟩
        · rw [hproperty, hadds.property, List.reverse_cons, List.findSome?_append,
            Option.or_assoc, List.findSome?_singleton]
        · rw [hdiscriminator, hadds.discriminator, or_assoc]
          refine or_congr Iff.rfl ?_
          constructor
          · rintro (⟨name, rfl, hname⟩ | ⟨name, rfl, f', hf', hname⟩)
            · exact ⟨name, rfl, f, List.mem_cons_self, hname⟩
            · exact ⟨name, rfl, f', List.mem_cons_of_mem _ hf', hname⟩
          · rintro ⟨name, rfl, f', hf', hname⟩
            rcases List.mem_cons.1 hf' with rfl | hf'
            · exact Or.inl ⟨name, rfl, hname⟩
            · exact Or.inr ⟨name, rfl, f', hf', hname⟩
      · simp at h

end Component

end SchemaClasses
