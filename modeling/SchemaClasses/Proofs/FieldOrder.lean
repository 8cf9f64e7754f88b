import SchemaClasses.Proofs.ClosedTypes
import SchemaClasses.Proofs.Discriminator

/-!
# The fields of a class, in order

The variables of a class are the properties of its component.  Where a name is declared first, in
whatever fragment, decides its place; where it is declared last decides its type and who may see it.
This file follows the keys of the entries through the readers: writing one (`keys_insert`), writing
those of a fragment (`keys_of_gather`), and those of all fragments (`keys_of_gatherAll`) extends a
list of names without repetition.

`fields_of_ofDocument` is the whole statement, for every class of a model.
-/

namespace SchemaClasses

open Lineage (Components)
open Value (textKeyedEntries)

/-! ## What is declared -/

namespace Schema

/-- The names of the properties that a fragment declares. -/
def propertyNames (fragment : Mapping) : List String :=
  match Mapping.field? fragment "properties" with
  | some (.mapping entries _) => entries.filterMap (·.1.text?)
  | _ => []

/-- The names of the properties of a component: those of its fragments, each at the place where it
is declared first. -/
def fieldNames (schema : Mapping) : List String :=
  ((fragments schema).flatMap propertyNames).eraseDups

/-- Who may see a property: whoever its schema says, or the default if it does not say. -/
def SeenAs (default : Accessibility) (property : Mapping) (a : Accessibility) : Prop :=
  (Mapping.field? property "x-accessibility" = none ∧ a = default) ∨
    Mapping.field? property "x-accessibility" = some (.text a.keyword)

end Schema

/-! ## Writing names -/

namespace Entries

variable {α : Type}

lemma map_fst_of_texts {m : Entries Scalar α} (htexts : ∀ e ∈ m, ∃ s, e.1 = .text s) :
    m.map (·.1) = (m.filterMap (·.1.text?)).map .text := by
  induction m with
  | nil => rfl
  | cons e rest ih =>
      obtain ⟨k, v⟩ := e
      obtain ⟨⟨name, rfl⟩, hrest⟩ := List.forall_mem_cons.1 htexts
      rw [List.map_cons, ih hrest]
      rfl

/-- Writing a name keeps the names as they are if it is there already, and else adds it last. -/
lemma keys_insert (m : Entries Scalar α) (name : String) (value : α) :
    keys (insert m (.text name) value) =
      if contains m (.text name) then keys m else keys m ++ [.text name] := by
  induction m with
  | nil => rfl
  | cons e rest ih =>
      obtain ⟨k, v⟩ := e
      rw [insert]
      by_cases hk : (k == .text name) = true
      · have hcontains : contains ((k, v) :: rest) (.text name) = true := by simp [contains, hk]
        rw [if_pos hk, if_pos hcontains]
        rfl
      · have hcontains : contains ((k, v) :: rest) (.text name) = contains rest (.text name) := by
          simp [contains, hk]
        rw [if_neg hk, hcontains]
        change k :: keys (insert rest (.text name) value) = _
        rw [ih]
        split <;> rfl

lemma keys_foldl_insert {pairs : List (Scalar × α)} {names before : List String}
    (hpairs : pairs.map (·.1) = names.map .text) {m : Entries Scalar α}
    (hm : keys m = before.eraseDups.map .text) :
    keys (pairs.foldl (fun m e => insert m e.1 e.2) m) = (before ++ names).eraseDups.map .text := by
  induction pairs generalizing names before m with
  | nil =>
      obtain rfl : names = [] := by simpa using hpairs.symm
      rw [List.foldl_nil, hm, List.append_nil]
  | cons e rest ih =>
      cases names with
      | nil => simp at hpairs
      | cons name names =>
          obtain ⟨k, v⟩ := e
          obtain ⟨rfl, hrest⟩ := List.cons.inj hpairs
          have hstep : keys (insert m (.text name) v) = (before ++ [name]).eraseDups.map .text := by
            have hmem : contains m (.text name) = true ↔ name ∈ before := by
              rw [contains_text_iff, ← keys, hm,
                List.mem_map_of_injective fun _ _ => Scalar.text.inj, List.mem_eraseDups]
            rw [keys_insert, eraseDups_concat, hm, if_congr hmem rfl rfl]
            split
            · rfl
            · rw [List.map_append, List.map_singleton]
          rw [List.foldl_cons, ih hrest hstep, List.append_assoc, List.singleton_append]

end Entries

/-! ## Reading fragments in order -/

namespace Component

open Schema (propertyNames fragments fieldNames)

variable {className : String}

lemma propertyNames_eq {fragment entries : Mapping} {ring : Option Nat}
    (h : givenProperties fragment = .mapping entries ring) :
    propertyNames fragment = entries.filterMap (·.1.text?) := by
  rw [givenProperties] at h
  rw [propertyNames]
  cases hfield : Mapping.field? fragment "properties" with
  | none =>
      rw [hfield, Option.getD_none] at h
      obtain ⟨rfl, -⟩ := Value.mapping.inj h
      rfl
  | some v =>
      rw [hfield, Option.getD_some] at h
      rw [h]

/-- Reading a fragment adds the names that are new, in the order of the fragment. -/
lemma keys_of_gather {g g' : Gathered} {fragment : Mapping} {before : List String}
    (hkeyed : textKeyedEntries fragment = true) (h : gather className g fragment = .ok g')
    (hg : Entries.keys g.properties = before.eraseDups.map .text) :
    Entries.keys g'.properties = (before ++ propertyNames fragment).eraseDups.map .text := by
  obtain ⟨-, entries, ring, properties, named, hgiven, hproperties, -, rfl⟩ := gather_eq_ok.1 h
  obtain ⟨schemas, hrel, rfl⟩ := gatherProperties_eq_ok.1 hproperties
  refine Entries.keys_foldl_insert ?_ hg
  have hsame : entries.map (·.1) = schemas.map (·.1) := by
    refine map_eq_of_forall₂ hrel ?_
    rintro e e' ⟨ring, rfl⟩
    rfl
  obtain ⟨htexts, -⟩ := Mapping.textKeys_of_textKeyed (textKeyed_givenProperties hkeyed hgiven)
  rw [← hsame, propertyNames_eq hgiven, Entries.map_fst_of_texts htexts]

lemma keys_of_gatherAll {g g' : Gathered} {fragments : List Mapping} {before : List String}
    (hkeyed : ∀ f ∈ fragments, textKeyedEntries f = true)
    (h : gatherAll className g fragments = .ok g')
    (hg : Entries.keys g.properties = before.eraseDups.map .text) :
    Entries.keys g'.properties =
      (before ++ fragments.flatMap propertyNames).eraseDups.map .text := by
  induction fragments generalizing g before with
  | nil =>
      cases h
      simpa using hg
  | cons f rest ih =>
      obtain ⟨hf, hrest⟩ := List.forall_mem_cons.1 hkeyed
      rw [gatherAll] at h
      split at h
      · rename_i g₁ hg₁
        rw [List.flatMap_cons, ← List.append_assoc]
        exact ih hrest h (keys_of_gather hf hg₁ hg)
      · simp at h

/-- **A component has its properties in the order in which they are first declared.** -/
theorem MadeFrom.keys_properties {home : Value} {keys : List Scalar} {entry : Scalar × Mapping}
    {c : Component Scalar} (h : MadeFrom home keys entry c)
    (hkeyed : textKeyedEntries entry.2 = true) :
    c.properties.map (·.1) = (fieldNames entry.2).map .text := by
  obtain ⟨key, schema⟩ := entry
  obtain ⟨d, hd, -, hc⟩ := h
  obtain ⟨k, composition, gathered, -, -, hcomposition, hgathered, -, rfl⟩ := describe_eq_ok.1 hd
  obtain ⟨-, hfragments, -⟩ := compositionOf_eq_ok.1 hcomposition
  rw [hfragments] at hgathered
  rw [hc]
  have hnone : Entries.keys ({} : Gathered).properties =
      ([] : List String).eraseDups.map Scalar.text := rfl
  have hnames := keys_of_gatherAll (fun f hf => Schema.textKeyed_of_mem_fragments hkeyed hf)
    hgathered hnone
  exact hnames

end Component

/-! ## Variables of a class -/

lemma Scope.seenAs_of_accessibilityOf {scope : Scope} {property : Mapping} {a : Accessibility}
    (h : scope.accessibilityOf property = .ok a) :
    Schema.SeenAs scope.defaultAccessibility property a := by
  rw [accessibilityOf] at h
  split at h
  · rename_i hfield
    exact Or.inl ⟨hfield, (Except.ok.inj h).symm⟩
  · rename_i v hfield
    split at h
    · rename_i a' ha
      obtain rfl := Except.ok.inj h
      rw [Accessibility.ofValue?_eq_some.1 ha] at hfield
      exact Or.inr hfield
    · simp at h

/-- A type that a model gives to what a property stands for: a built-in type of this name, or that
of the class made from this component. -/
def ClassModel.Gives (m : ClassModel) : Schema.Target → TypeRef → Prop
  | .builtIn name, t => t = { name := name, isBuiltIn := true }
  | .component key, t => ∃ d ∈ m.classes, d.componentKey = key ∧ t = d.type

/-- **The fields of a class are the properties of its component**, none lost, repeated or reordered.
Each has the type and the accessibility that its last declaration gives it, and all of them are the
class's own but the one that is named like its discriminator. -/
structure ClassDef.HasFields (registry : TypeRegistry) (default : Accessibility)
    (keys : List Scalar) (m : ClassModel) (entry : Scalar × Mapping) (c : ClassDef) : Prop where
  key : entry.1 = .text c.componentKey
  names : c.instanceVariables.map (·.name) = (Schema.fieldNames entry.2).map .text
  distinct : (c.instanceVariables.map (·.name)).Nodup
  lastDeclared : ∀ v ∈ c.instanceVariables, ∃ name property target,
    v.name = .text name ∧ Schema.property? entry.2 name = some property ∧
      Schema.Typed registry keys [] property target ∧ m.Gives target v.type ∧
      Schema.SeenAs default property v.accessibility
  own : c.ownVariables = c.instanceVariables.filter fun v => c.discriminatorName != some v.name

namespace Scope

variable {scope : Scope} {c : Component Scalar} {d : ClassDef} {m : ClassModel}

lemma gives_of_targetType? {target : Schema.Target} {t : TypeRef}
    (hall : List.Forall₂ scope.Realizes scope.components m.classes)
    (ht : scope.targetType? target = some t) : m.Gives target t := by
  cases target with
  | builtIn name => exact (Option.some.inj ht).symm
  | component key =>
      obtain ⟨c, hc, rfl⟩ := Option.map_eq_some_iff.1 ht
      obtain ⟨d, hd, _, hrealizes⟩ := forall₂_left hall (Lineage.mem_of_find? hc)
      exact ⟨d, hd, by rw [hrealizes.assembled.componentKey, Lineage.key_of_find? hc],
        hrealizes.assembled.type_eq.symm⟩

lemma Assembled.ownVariables_eq {ancestors : Components} (h : scope.Assembled c ancestors d)
    (htexts : Entries.TextKeys c.properties) :
    d.ownVariables = d.instanceVariables.filter fun v => d.discriminatorName != some v.name := by
  refine List.filter_congr fun v hv => ?_
  obtain ⟨⟨t, ht⟩, hflag⟩ := h.isDiscriminator_iff htexts hv
  rw [bne]
  congr 1
  rw [Bool.eq_iff_iff, hflag, ht]
  cases d.discriminatorName <;> simp

/-- A class built for a component that says what its entry says has the fields of the entry. -/
lemma RealizesAlong.hasFields {ancestors : Components} {home : Value} {keys : List Scalar}
    {entry : Scalar × Mapping} (hnames : scope.NamesKeys keys)
    (hall : List.Forall₂ scope.Realizes scope.components m.classes)
    (hkeyed : textKeyedEntries entry.2 = true) (hmade : Component.MadeFrom home keys entry c)
    (h : scope.RealizesAlong c ancestors d) :
    d.HasFields scope.registry scope.defaultAccessibility keys m entry := by
  obtain ⟨described, hdescribe, hsettles⟩ := id hmade
  have hdescribes := (Component.describes_of_describe hkeyed hdescribe).1.settle hsettles
  have hassembled := h.assembled
  refine ⟨by rw [hdescribes.key, hassembled.componentKey],
    by rw [hassembled.map_name, hmade.keys_properties hkeyed],
    hassembled.nodup_name hdescribes.textKeys, fun v hv => ?_,
    hassembled.ownVariables_eq hdescribes.textKeys⟩
  obtain ⟨⟨k, property⟩, hproperty, hvariable⟩ := forall₂_right hassembled.instanceVariables hv
  obtain ⟨hends, htype, haccessibility, hname, -⟩ := variableOf_eq_ok.1 hvariable
  obtain ⟨name, hk⟩ := hdescribes.textKeys.1 _ hproperty
  obtain rfl : k = .text name := hk
  obtain ⟨target, htyped, ht⟩ := (hnames.typeOf_eq_ok [] property).1 ⟨hends, htype⟩
  exact ⟨name, property, target, hname,
    by rw [← hdescribes.property, hdescribes.textKeys.get?_of_mem hproperty], htyped,
    gives_of_targetType? hall ht, seenAs_of_accessibilityOf haccessibility⟩

end Scope

/-! ## Models -/

namespace ClassModel

variable {home : Value} {registry : TypeRegistry} {accessibility : Accessibility} {m : ClassModel}

/-- **No declared field is lost, repeated or reordered.**  The classes of a model have the fields of
its schema components, one class for each of them. -/
theorem fields_of_ofDocument {doc : Document} (hdoc : doc.TextKeyed)
    (h : ofDocument doc home registry accessibility = .ok m) :
    ∃ schemas, doc.schemas = .ok schemas ∧
      List.Forall₂ (fun entry c =>
        c.HasFields registry accessibility (Entries.keys schemas) m entry) schemas m.classes := by
  obtain ⟨schemas, hschemas⟩ := exists_schemas h
  have htexts := Document.textKeys_schemas hdoc hschemas
  have hkeyed : ∀ entry ∈ schemas, textKeyedEntries entry.2 = true :=
    fun _ hentry => Document.textKeyed_of_mem_schemas hdoc hschemas hentry
  obtain ⟨components, hlays, hall⟩ := (ofDocument_passes hdoc hschemas).1 h
  have hmade := (List.forall₂_and_left _ _).2 ⟨hkeyed, (lays_iff.1 hlays).1⟩
  refine ⟨schemas, hschemas, (forall₂_comp.1 ⟨components, hmade, hall⟩).imp ?_⟩
  rintro entry d ⟨c, ⟨hentry, hc⟩, ancestors, hrealizes⟩
  have hnames := namesKeys_scopeOf registry accessibility components htexts
  exact hrealizes.hasFields hnames hall hentry hc

/-- A dog says twice what its name and its age are, before and after the reference to its base. -/
def terriers : Entries Scalar Mapping := [
  (.text "dog", [
    (.text "properties", .mapping [
      (.text "name", .mapping [(.text "type", .text "string")]),
      (.text "age", .mapping [(.text "type", .text "string")])]),
    (.text "allOf", .list [
      .mapping [(.text "properties", .mapping [
        (.text "toys", .mapping [(.text "type", .text "array")]),
        (.text "name", .mapping [
          (.text "type", .text "Animal"), (.text "x-accessibility", .text "public")])])],
      .mapping [(.text "$ref", .text "#/components/schemas/animal")],
      .mapping [(.text "properties", .mapping [
        (.text "kind", .mapping [(.text "type", .text "string")]),
        (.text "age", .mapping [(.text "type", .text "integer")])])]])]),
  (.text "animal", [
    (.text "discriminator", .text "kind"),
    (.text "properties", .mapping [(.text "kind", .mapping [(.text "type", .text "string")])])])]

lemma exists_model_terriers :
    ∃ m, ofDocument (.ofSchemas terriers) (.text "App") {} .owner = .ok m ∧
      (m.classes.map fun c => (c.instanceVariables.map fun v =>
          (v.name.display, v.type.name, v.accessibility.keyword),
        c.ownVariables.map (·.name.display))) =
        [([("name", "Animal", "public"), ("age", "integer", "private"),
            ("toys", "array", "private"), ("kind", "string", "private")], ["name", "age", "toys"]),
          ([("kind", "string", "private")], [])] :=
  exists_ok_of_toOption (by decide +kernel)

theorem fields_of_terriers :
    (Document.ofSchemas terriers).TextKeyed ∧
    ∃ m, ofDocument (.ofSchemas terriers) (.text "App") {} .owner = .ok m ∧
      (m.classes.map fun c => (c.instanceVariables.map fun v =>
          (v.name.display, v.type.name, v.accessibility.keyword),
        c.ownVariables.map (·.name.display))) =
        [([("name", "Animal", "public"), ("age", "integer", "private"),
            ("toys", "array", "private"), ("kind", "string", "private")], ["name", "age", "toys"]),
          ([("kind", "string", "private")], [])] ∧
      ∃ schemas, (Document.ofSchemas terriers).schemas = .ok schemas ∧
        List.Forall₂ (fun entry c =>
          c.HasFields {} .owner (Entries.keys schemas) m entry) schemas m.classes := by
  have hkeyed : (Document.ofSchemas terriers).TextKeyed := by decide
  obtain ⟨m, hm, hfields⟩ := exists_model_terriers
  exact ⟨hkeyed, m, hm, hfields, fields_of_ofDocument hkeyed hm⟩

end ClassModel

end SchemaClasses
