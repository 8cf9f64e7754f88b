import Mathlib.Data.List.Nodup
import Mathlib.Tactic.Lemma
import SchemaClasses.Document.Basic
import SchemaClasses.Proofs.Outcome

/-!
# Documents whose keys are texts

A mapping is a list of entries, and as a document is read no key is written twice.  In most
documents all keys are texts, and then being the same key is being equal.  `Value.textKeyed`
says both of every mapping in a value: its keys are texts, and no two of them are equal.

What follows from it, and all that later files use, is how entries are found: an entry of such a
mapping is the one that its key finds (`get?_of_mem`), and what is found is such a value again.
-/

namespace SchemaClasses

namespace Value

mutual

/-- All keys in the value are texts, and no mapping in it has a key twice. -/
def textKeyed : Value → Bool
  | scalar _ => true
  | list items _ => textKeyedItems items
  | mapping entries _ => textKeyedEntries entries

def textKeyedItems : List Value → Bool
  | [] => true
  | v :: rest => v.textKeyed && textKeyedItems rest

def textKeyedEntries : List (Scalar × Value) → Bool
  | [] => true
  | (k, v) :: rest =>
    k.text?.isSome && !Entries.contains rest k && (v.textKeyed && textKeyedEntries rest)

end

@[simp] lemma textKeyed_scalar (s : Scalar) : (scalar s).textKeyed = true := by
  rw [textKeyed]

@[simp] lemma textKeyed_list (items : List Value) (ring : Option Nat) :
    (list items ring).textKeyed = textKeyedItems items := by
  rw [textKeyed]

@[simp] lemma textKeyed_mapping (entries : List (Scalar × Value)) (ring : Option Nat) :
    (mapping entries ring).textKeyed = textKeyedEntries entries := by
  rw [textKeyed]

lemma textKeyedItems_iff {items : List Value} :
    textKeyedItems items = true ↔ ∀ v ∈ items, v.textKeyed = true := by
  induction items with
  | nil => simp [textKeyedItems]
  | cons v rest ih => simp [textKeyedItems, ih]

end Value

/-! ## Entries whose keys are texts -/

namespace Entries

variable {α : Type}

/-- The keys are texts, and no two of them are equal. -/
def TextKeys (m : Entries Scalar α) : Prop :=
  (∀ entry ∈ m, ∃ s, entry.1 = .text s) ∧ (m.map (·.1)).Nodup

lemma contains_text_iff {m : Entries Scalar α} {s : String} :
    contains m (.text s) = true ↔ .text s ∈ m.map (·.1) := by
  simp [contains]

lemma mem_of_get?_text {m : Entries Scalar α} {s : String} {v : α}
    (h : get? m (.text s) = some v) : (.text s, v) ∈ m := by
  rw [get?, Option.map_eq_some_iff] at h
  obtain ⟨⟨k, w⟩, hfind, rfl⟩ := h
  have hk : k = .text s := by simpa using List.find?_some hfind
  exact hk ▸ List.mem_of_find?_eq_some hfind

/-- An entry is the one that its key finds. -/
lemma TextKeys.get?_of_mem {m : Entries Scalar α} (hm : TextKeys m) {k : Scalar} {v : α}
    (h : (k, v) ∈ m) : get? m k = some v := by
  induction m with
  | nil => simp at h
  | cons entry rest ih =>
      obtain ⟨k', w⟩ := entry
      obtain ⟨htext, hnodup⟩ := hm
      rw [List.map_cons, List.nodup_cons] at hnodup
      rw [get?_cons]
      rcases List.mem_cons.1 h with he | hrest
      · obtain ⟨rfl, rfl⟩ := Prod.mk.inj he
        simp
      · obtain ⟨s, hs⟩ := htext _ (List.mem_cons_of_mem _ hrest)
        have hne : ¬ (k' == k) = true := by
          intro hkk
          simp only at hs
          rw [hs, Scalar.beq_text] at hkk
          rw [hkk] at hnodup
          exact hnodup.1 (hs ▸ List.mem_map_of_mem (f := (·.1)) hrest)
        rw [if_neg hne]
        exact ih ⟨fun e he => htext e (List.mem_cons_of_mem _ he), hnodup.2⟩ hrest

lemma TextKeys.perm {m m' : Entries Scalar α} (hm : TextKeys m) (hperm : m.Perm m') :
    TextKeys m' :=
  ⟨fun entry hentry => hm.1 entry (hperm.mem_iff.2 hentry), (hperm.map _).nodup_iff.1 hm.2⟩

/-- What stands under a text does not depend on the order. -/
lemma TextKeys.get?_of_perm {m m' : Entries Scalar α} (hm : TextKeys m) (hperm : m.Perm m')
    (s : String) : get? m' (.text s) = get? m (.text s) := by
  refine Option.ext fun v => ⟨fun h => ?_, fun h => ?_⟩
  · exact hm.get?_of_mem (hperm.mem_iff.2 (mem_of_get?_text h))
  · exact (hm.perm hperm).get?_of_mem (hperm.mem_iff.1 (mem_of_get?_text h))

lemma textKeys_insert {m : Entries Scalar α} (hm : TextKeys m) (name : String) (value : α) :
    TextKeys (insert m (.text name) value) := by
  induction m with
  | nil => exact ⟨by simp [insert], by simp [insert]⟩
  | cons e rest ih =>
      obtain ⟨k, v⟩ := e
      obtain ⟨htexts, hnodup⟩ := hm
      rw [List.map_cons, List.nodup_cons] at hnodup
      obtain ⟨hhead, hrest⟩ := List.forall_mem_cons.1 htexts
      rw [insert]
      split
      · exact ⟨List.forall_mem_cons.2 ⟨hhead, hrest⟩, List.nodup_cons.2 hnodup⟩
      · rename_i hk
        obtain ⟨htexts', hnodup'⟩ := ih ⟨hrest, hnodup.2⟩
        refine ⟨List.forall_mem_cons.2 ⟨hhead, htexts'⟩, List.nodup_cons.2 ⟨?_, hnodup'⟩⟩
        obtain ⟨t, rfl⟩ := hhead
        intro hmem
        rw [← contains_text_iff, contains_eq_isSome, get?_insert] at hmem
        have hne : ¬ (Scalar.text name == Scalar.text t) = true := fun e =>
          hk (BEq.symm e)
        rw [if_neg hne, ← contains_eq_isSome, contains_text_iff] at hmem
        exact hnodup.1 hmem

/-- Writing entries with text keys keeps the keys texts, and none of them twice. -/
lemma textKeys_foldl_insert {pairs : List (Scalar × α)}
    (htexts : ∀ e ∈ pairs, ∃ s, e.1 = .text s) {m : Entries Scalar α} (h : TextKeys m) :
    TextKeys (pairs.foldl (fun m e => insert m e.1 e.2) m) := by
  induction pairs generalizing m with
  | nil => exact h
  | cons e rest ih =>
      obtain ⟨⟨s, hs⟩, hrest⟩ := List.forall_mem_cons.1 htexts
      rw [List.foldl_cons]
      refine ih hrest ?_
      rw [hs]
      exact textKeys_insert h s e.2

/-- Writing adds no value but the new one. -/
lemma forall_insert {κ : Type} [BEq κ] {p : α → Prop} {m : Entries κ α} (hm : ∀ e ∈ m, p e.2)
    (key : κ) {value : α} (hvalue : p value) : ∀ e ∈ insert m key value, p e.2 := by
  induction m with
  | nil => exact List.forall_mem_singleton.2 hvalue
  | cons e rest ih =>
      obtain ⟨k, v⟩ := e
      obtain ⟨hv, hrest⟩ := List.forall_mem_cons.1 hm
      rw [insert]
      split
      · exact List.forall_mem_cons.2 ⟨hvalue, hrest⟩
      · exact List.forall_mem_cons.2 ⟨hv, ih hrest⟩

lemma forall_foldl_insert {κ : Type} [BEq κ] {p : α → Prop} {pairs : List (κ × α)}
    (hpairs : ∀ e ∈ pairs, p e.2) {m : Entries κ α} (hm : ∀ e ∈ m, p e.2) :
    ∀ e ∈ pairs.foldl (fun m e => insert m e.1 e.2) m, p e.2 := by
  induction pairs generalizing m with
  | nil => exact hm
  | cons e rest ih =>
      obtain ⟨he, hrest⟩ := List.forall_mem_cons.1 hpairs
      exact ih hrest (forall_insert hm e.1 he)

end Entries

namespace Mapping

open Value (textKeyedEntries)

lemma textKeys_of_textKeyed {m : Mapping} (h : textKeyedEntries m = true) :
    Entries.TextKeys m := by
  induction m with
  | nil => exact ⟨by simp, List.nodup_nil⟩
  | cons entry rest ih =>
      obtain ⟨k, v⟩ := entry
      simp only [textKeyedEntries, Bool.and_eq_true, Bool.not_eq_true'] at h
      obtain ⟨⟨htext, hnew⟩, -, hrest⟩ := h
      obtain ⟨s, hs⟩ := Option.isSome_iff_exists.1 htext
      rw [Scalar.text?_eq_some] at hs
      obtain ⟨htexts, hnodup⟩ := ih hrest
      refine ⟨List.forall_mem_cons.2 ⟨⟨s, hs⟩, htexts⟩, List.nodup_cons.2 ⟨?_, hnodup⟩⟩
      intro hmem
      have : Entries.contains rest k = true := by
        rw [hs] at hmem ⊢
        exact Entries.contains_text_iff.2 hmem
      rw [this] at hnew
      exact Bool.noConfusion hnew

lemma textKeyed_of_mem {m : Mapping} (h : textKeyedEntries m = true) {k : Scalar} {v : Value}
    (hv : (k, v) ∈ m) : v.textKeyed = true := by
  induction m with
  | nil => simp at hv
  | cons entry rest ih =>
      obtain ⟨k', w⟩ := entry
      simp only [textKeyedEntries, Bool.and_eq_true] at h
      rcases List.mem_cons.1 hv with he | hrest
      · obtain ⟨-, rfl⟩ := Prod.mk.inj he
        exact h.2.1
      · exact ih h.2.2 hrest

lemma textKeyed_of_textKeys {m : Mapping} (h : Entries.TextKeys m)
    (hvalues : ∀ e ∈ m, e.2.textKeyed = true) : textKeyedEntries m = true := by
  induction m with
  | nil => rw [textKeyedEntries]
  | cons e rest ih =>
      obtain ⟨k, v⟩ := e
      obtain ⟨htexts, hnodup⟩ := h
      obtain ⟨⟨s, rfl⟩, hrest⟩ := List.forall_mem_cons.1 htexts
      rw [List.map_cons, List.nodup_cons, ← Entries.contains_text_iff, Bool.not_eq_true] at hnodup
      obtain ⟨hv, hvalues⟩ := List.forall_mem_cons.1 hvalues
      rw [textKeyedEntries, hnodup.1, hv, ih ⟨hrest, hnodup.2⟩ hvalues]
      rfl

lemma textKeyed_of_field? {m : Mapping} (h : textKeyedEntries m = true) {name : String}
    {v : Value} (hv : field? m name = some v) : v.textKeyed = true :=
  textKeyed_of_mem h (Entries.mem_of_get?_text hv)

lemma field_of_field? {m : Mapping} {name : String} {v : Value} (h : field? m name = some v) :
    field m name = v := by
  rw [field, h, Option.getD_some]

lemma field?_insert_self (m : Mapping) (key : String) (v : Value) :
    field? (Entries.insert m (.text key) v) key = some v := by
  rw [field?, Entries.get?_insert, if_pos BEq.rfl]

lemma field?_insert_of_ne {m : Mapping} {key name : String} (h : name ≠ key) (v : Value) :
    field? (Entries.insert m (.text key) v) name = field? m name := by
  rw [field?, field?, Entries.get?_insert, if_neg]
  rw [Scalar.beq_text]
  exact fun he => h (Scalar.text.inj he).symm

lemma field?_erase_self (m : Mapping) (key : String) :
    field? (Entries.erase m (.text key)) key = none := by
  rw [field?, Entries.get?_erase, if_pos BEq.rfl]

lemma field?_erase_of_ne {m : Mapping} {key name : String} (h : name ≠ key) :
    field? (Entries.erase m (.text key)) name = field? m name := by
  rw [field?, field?, Entries.get?_erase, if_neg]
  rw [Scalar.beq_text]
  exact fun he => h (Scalar.text.inj he).symm

end Mapping

/-! ## Documents -/

namespace Document

/-- All keys of the document are texts, and no mapping in it has a key twice. -/
def TextKeyed (doc : Document) : Prop := Value.textKeyedEntries doc.entries = true

instance (doc : Document) : Decidable doc.TextKeyed :=
  inferInstanceAs (Decidable (Value.textKeyedEntries doc.entries = true))

/-- A section of a value with text keys has text keys. -/
lemma textKeyed_of_descend {walked path : List String} {v : Value} {m : Mapping}
    (hv : v.textKeyed = true) (h : descend walked v path = .ok m) :
    Value.textKeyedEntries m = true := by
  induction path generalizing walked v with
  | nil =>
      cases v with
      | mapping entries ring =>
          rw [descend, Except.ok.injEq] at h
          rwa [← h, ← Value.textKeyed_mapping entries ring]
      | scalar s => simp [descend] at h
      | list items ring => simp [descend] at h
  | cons key rest ih =>
      cases v with
      | mapping entries ring =>
          rw [descend] at h
          split at h
          · cases h
            rw [Value.textKeyedEntries]
          · rename_i hnull
            refine ih ?_ h
            rw [Value.textKeyed_mapping] at hv
            cases hfield : Mapping.field? entries key with
            | none => simp [Mapping.field, hfield]
            | some w =>
                rw [Mapping.field_of_field? hfield]
                exact Mapping.textKeyed_of_field? hv hfield
      | scalar s => simp [descend] at h
      | list items ring => simp [descend] at h

lemma TextKeyed.section? {doc : Document} (hdoc : doc.TextKeyed) {path : List String} {m : Mapping}
    (h : doc.section? path = .ok m) : Value.textKeyedEntries m = true :=
  textKeyed_of_descend (by rw [Value.textKeyed_mapping]; exact hdoc) h

lemma schemaEntry_eq_ok {e : Scalar × Value} {e' : Scalar × Mapping} :
    schemaEntry e = .ok e' ↔ ∃ ring, e = (e'.1, .mapping e'.2 ring) := by
  obtain ⟨name, v⟩ := e
  obtain ⟨name', m⟩ := e'
  cases v with
  | mapping entries ring => simp [schemaEntry]
  | scalar s => simp [schemaEntry]
  | list items ring => simp [schemaEntry]

lemma forall₂_of_schemas {doc : Document} {schemas : Entries Scalar Mapping}
    (h : doc.schemas = .ok schemas) :
    ∃ entries, doc.section? ["components", "schemas"] = .ok entries ∧
      List.Forall₂ (fun e e' => ∃ ring, e = (e'.1, Value.mapping e'.2 ring)) entries schemas := by
  rw [Document.schemas] at h
  split at h
  · exact absurd h (by simp)
  · rename_i entries hentries
    refine ⟨entries, hentries, (traverse_eq_ok_iff.1 h).imp fun e e' he => ?_⟩
    exact schemaEntry_eq_ok.1 he

variable {doc : Document} {schemas : Entries Scalar Mapping}

lemma keys_schemas {entries : Mapping}
    (hentries : doc.section? ["components", "schemas"] = .ok entries)
    (h : doc.schemas = .ok schemas) : Entries.keys schemas = Entries.keys entries := by
  obtain ⟨entries', hentries', hrel⟩ := forall₂_of_schemas h
  obtain rfl := Except.ok.inj (hentries.symm.trans hentries')
  symm
  refine map_eq_of_forall₂ hrel ?_
  rintro e e' ⟨ring, rfl⟩
  rfl

/-- The keys of the schema components are texts, none of them twice. -/
theorem textKeys_schemas (hdoc : doc.TextKeyed) (h : doc.schemas = .ok schemas) :
    Entries.TextKeys schemas := by
  obtain ⟨entries, hentries, hrel⟩ := forall₂_of_schemas h
  have hkeyed := hdoc.section? hentries
  have hsame : entries.map (·.1) = schemas.map (·.1) := (keys_schemas hentries h).symm
  obtain ⟨htexts, hnodup⟩ := Mapping.textKeys_of_textKeyed hkeyed
  refine ⟨fun e' he' => ?_, hsame ▸ hnodup⟩
  obtain ⟨e, he, ring, rfl⟩ := forall₂_right hrel he'
  exact htexts _ he

/-- A schema component has text keys, none of them twice in a mapping. -/
theorem textKeyed_of_mem_schemas (hdoc : doc.TextKeyed) (h : doc.schemas = .ok schemas)
    {e : Scalar × Mapping} (he : e ∈ schemas) : Value.textKeyedEntries e.2 = true := by
  obtain ⟨entries, hentries, hrel⟩ := forall₂_of_schemas h
  have hkeyed := hdoc.section? hentries
  obtain ⟨e', he', ring, rfl⟩ := forall₂_right hrel he
  rw [← Value.textKeyed_mapping e.2 ring]
  exact Mapping.textKeyed_of_mem hkeyed he'

/-- A document of schema components and nothing else. -/
def ofSchemas (schemas : Entries Scalar Mapping) : Document where
  entries := [(.text "components", .mapping [
    (.text "schemas", .mapping (schemas.map fun e => (e.1, .mapping e.2)))])]

lemma schemas_ofSchemas (schemas : Entries Scalar Mapping) :
    (ofSchemas schemas).schemas = .ok schemas := by
  change traverse schemaEntry (schemas.map fun e => (e.1, .mapping e.2)) = .ok schemas
  rw [traverse_eq_ok_iff, List.forall₂_map_left_iff, List.forall₂_same]
  exact fun _ _ => rfl

end Document

end SchemaClasses
