import SchemaClasses.Proofs.Description
import SchemaClasses.Proofs.JsonValues

/-!
# What a failure comes from

A failure that a reader of a document meets is a fault that is reported with the place where it was
found, or it comes from a part of the document that a message was to show and that has no text
(`Value.Causes`).  The parts of a value are the value itself and whatever it contains.

A message shows its values only in `Failure.raise`, so everything about it is said in
`Value.failsOnly_raise`: if what a failure would show is inside the document, the failure has such a
cause.  What remains is to follow the values that go into messages back to the document they were
read from, for its sections and for the description of a component.
-/

namespace SchemaClasses

/-! ## Parts of a value -/

namespace Value

/-- A value and everything inside it, keys left out. -/
inductive Part (v : Value) : Value → Prop where
  | self : Part v v
  | item {items : List Value} {ring : Option Nat} {w : Value} (inside : Part v (.list items ring))
      (mem : w ∈ items) : Part v w
  | entry {m : Mapping} {ring : Option Nat} {e : Scalar × Value}
      (inside : Part v (.mapping m ring)) (mem : e ∈ m) : Part v e.2

variable {v w : Value} {m : Mapping} {name : String}

lemma Part.textKeyed (h : v.Part w) (hv : v.textKeyed = true) : w.textKeyed = true := by
  induction h with
  | self => exact hv
  | item _ mem ih =>
      rw [textKeyed_list, textKeyedItems_iff] at ih
      exact ih _ mem
  | entry _ mem ih =>
      rw [textKeyed_mapping] at ih
      exact Mapping.textKeyed_of_mem ih mem

/-- What is inside a regular value is regular. -/
lemma Part.regular (h : v.Part w) (hv : v.Regular) : w.Regular := by
  induction h with
  | self => exact hv
  | item _ mem ih => exact ih.item mem
  | entry _ mem ih => exact ih.entry mem

/-- A mapping with these entries is inside the value. -/
def Holds (v : Value) (m : Mapping) : Prop := ∃ ring, v.Part (.mapping m ring)

lemma Holds.entry (h : v.Holds m) {e : Scalar × Value} (he : e ∈ m) : v.Part e.2 := by
  obtain ⟨ring, h⟩ := h
  exact h.entry he

lemma Holds.field? (h : v.Holds m) (hw : Mapping.field? m name = some w) : v.Part w :=
  h.entry (Entries.mem_of_get?_text hw)

lemma Holds.keyed (h : v.Holds m) (hv : v.textKeyed = true) : textKeyedEntries m = true := by
  obtain ⟨ring, h⟩ := h
  rw [← textKeyed_mapping m ring]
  exact h.textKeyed hv

lemma Part.holds {ring : Option Nat} (h : v.Part (.mapping m ring)) : v.Holds m := ⟨ring, h⟩

end Value

/-! ## Causes -/

namespace Value

/-- What a failure can come from in a value: a fault that is reported with the place where it was
found, or a part that was to be shown and cannot be. -/
inductive Causes (v : Value) : Failure → Prop where
  | document (e : DocumentError) : Causes v (.document e)
  | model (fault : ModelFault) (className : String) (field : Option Scalar) :
      Causes v (.model ⟨fault, some (.text className), field⟩)
  | unshown {w : Value} {l : ShowingLimit} (part : v.Part w) (limit : w.limit? = some l) :
      Causes v (.unshown l)

/-- A value that can be shown, or is inside another one. -/
def Covers (v w : Value) : Prop := w.limit? = none ∨ v.Part w

variable {v w : Value} {α : Type}

lemma covers_text (v : Value) (s : String) : v.Covers (.text s) := Or.inl rfl

lemma Part.covers (h : v.Part w) : v.Covers w := Or.inr h

lemma Covers.causes {l : ShowingLimit} (h : v.Covers w) (hw : w.limit? = some l) :
    v.Causes (.unshown l) := by
  rcases h with hnone | hpart
  · rw [hnone] at hw
    cases hw
  · exact .unshown hpart hw

lemma failsOnly_raise {f : Failure} (hf : v.Causes f) (hshown : ∀ w ∈ f.shown, v.Covers w) :
    FailsOnly v.Causes (Failure.raise f : Except Failure α) := by
  refine FailsOnly.throw ?_
  rw [Failure.settled]
  split
  · rename_i l hl
    obtain ⟨w, hw, hlimit⟩ := List.exists_of_findSome?_eq_some hl
    exact (hshown w hw).causes hlimit
  · exact hf

lemma failsOnly_failure {fault : ModelFault} {className : String} {field : Option Scalar}
    (hfault : ∀ w ∈ fault.shown, v.Covers w) (hfield : ∀ s ∈ field, ∃ t, s = .text t) :
    FailsOnly v.Causes (Component.failure fault (.text className) field : Except Failure α) := by
  refine failsOnly_raise (.model fault className field) fun w hw => ?_
  rw [Failure.shown, ModelError.shown, List.mem_append, List.mem_map] at hw
  rcases hw with hw | ⟨s, hs, rfl⟩
  · exact hfault w hw
  · rw [Option.toList_some, List.singleton_append, List.mem_cons, Option.mem_toList] at hs
    rcases hs with rfl | hs
    · exact covers_text v className
    · obtain ⟨t, rfl⟩ := hfield s hs
      exact covers_text v t

lemma failsOnly_shown (h : v.Covers w) : FailsOnly v.Causes w.shown := by
  rw [Value.shown]
  split
  · rename_i l hl
    exact .throw (h.causes hl)
  · exact .ok _

end Value

/-! ## Sections -/

namespace Document

variable {v w : Value} {doc : Document} {schemas : Entries Scalar Mapping}

lemma failsOnly_descend (walked path : List String) (w : Value) :
    FailsOnly v.Causes (descend walked w path) := by
  induction path generalizing walked w with
  | nil =>
      cases w with
      | mapping m ring => exact .ok m
      | scalar s => exact .throw (.document _)
      | list items ring => exact .throw (.document _)
  | cons key rest ih =>
      cases w with
      | mapping m ring =>
          rw [descend]
          split
          · exact .ok []
          · exact ih _ _
      | scalar s => exact .throw (.document _)
      | list items ring => exact .throw (.document _)

lemma part_of_descend {walked path : List String} {m : Mapping}
    (hw : ∀ m, w.mapping? = some m → v.Holds m) (h : descend walked w path = .ok m) :
    ∀ e ∈ m, v.Part e.2 := by
  induction path generalizing walked w with
  | nil =>
      cases w with
      | mapping entries ring =>
          obtain rfl := Except.ok.inj h
          exact fun e he => (hw entries rfl).entry he
      | scalar s => cases h
      | list items ring => cases h
  | cons key rest ih =>
      cases w with
      | mapping entries ring =>
          rw [descend] at h
          split at h
          · obtain rfl := Except.ok.inj h
            exact List.forall_mem_nil _
          · rename_i hnull
            refine ih (fun m hm => ?_) h
            cases hfield : Mapping.field? entries key with
            | none =>
                rw [Mapping.field, hfield] at hnull
                exact absurd rfl hnull
            | some u =>
                rw [Mapping.field_of_field? hfield] at hm
                obtain ⟨uring, rfl⟩ := Value.mapping?_eq_some.1 hm
                exact ((hw entries rfl).field? hfield).holds
      | scalar s => cases h
      | list items ring => cases h

/-- Everything that stands where the schema components do is inside the document. -/
lemma holds_of_mem_schemas (hdoc : v.Holds doc.entries) (h : doc.schemas = .ok schemas)
    {entry : Scalar × Mapping} (hentry : entry ∈ schemas) : v.Holds entry.2 := by
  obtain ⟨entries, hentries, hrel⟩ := forall₂_of_schemas h
  obtain ⟨e, he, ring, rfl⟩ := forall₂_right hrel hentry
  refine (part_of_descend (fun m hm => ?_) hentries _ he).holds
  obtain rfl := Option.some.inj hm
  exact hdoc

lemma failsOnly_schemas (hdoc : v.Holds doc.entries) (hv : v.textKeyed = true) :
    FailsOnly v.Causes doc.schemas := by
  rw [schemas]
  split
  · rename_i f hf
    exact .throw (failsOnly_descend _ _ _ f hf)
  · rename_i entries hentries
    refine .traverse_of_mem fun e he => ?_
    obtain ⟨name, u⟩ := e
    have hkeyed := TextKeyed.section? (hdoc.keyed hv) hentries
    obtain ⟨s, rfl⟩ : ∃ s, name = .text s := (Mapping.textKeys_of_textKeyed hkeyed).1 _ he
    have hraise : FailsOnly v.Causes (Failure.raise (.document (.schemaNotMapping (.text s))) :
        Except Failure (Scalar × Mapping)) :=
      Value.failsOnly_raise (.document _) (List.forall_mem_singleton.2 (Value.covers_text v s))
    cases u with
    | mapping m ring => exact .ok _
    | scalar x => exact hraise
    | list items ring => exact hraise

end Document

/-! ## Descriptions -/

lemma Reference.shown_of_resolve {keys : List Scalar} {ref w : Value} {fault : ModelFault}
    (h : resolve keys ref = .error fault) (hw : w ∈ fault.shown) : w = ref := by
  rw [resolve] at h
  split at h
  · obtain rfl := Except.error.inj h
    exact List.mem_singleton.1 hw
  · split at h
    · obtain rfl := Except.error.inj h
      exact List.mem_singleton.1 hw
    · obtain rfl := Except.error.inj h
      cases hw
    · split at h
      · cases h
      · obtain rfl := Except.error.inj h
        cases hw

namespace Component

open Value (failsOnly_failure covers_text)

variable {v : Value} {schema fragment : Mapping}

lemma holds_of_mem_parts (h : v.Holds schema) {part : Value} (hpart : part ∈ Schema.parts schema) :
    v.Part part := by
  rw [Schema.parts] at hpart
  split at hpart
  · rename_i items ring hfield
    exact (h.field? hfield).item hpart
  · cases hpart

lemma holds_of_mem_fragments (h : v.Holds schema) (hf : fragment ∈ Schema.fragments schema) :
    v.Holds fragment := by
  rcases List.mem_cons.1 hf with rfl | hf
  · exact h
  · obtain ⟨part, hpart, hm⟩ := List.mem_filterMap.1 (List.mem_filter.1 hf).1
    obtain ⟨ring, rfl⟩ := Value.mapping?_eq_some.1 hm
    exact (holds_of_mem_parts h hpart).holds

lemma part_of_mem_references (h : v.Holds schema) {ref : Value}
    (href : ref ∈ Schema.references schema) : v.Part ref := by
  obtain ⟨part, hpart, hm⟩ := List.mem_filterMap.1 href
  obtain ⟨m, hmapping, hfield⟩ := Option.bind_eq_some_iff.1 hm
  obtain ⟨ring, rfl⟩ := Value.mapping?_eq_some.1 hmapping
  exact (holds_of_mem_parts h hpart).holds.field? hfield

lemma failsOnly_baseOf (className : String) (keys : List Scalar) {references : List Value}
    (h : ∀ ref ∈ references, v.Part ref) :
    FailsOnly v.Causes (baseOf className keys references) := by
  match references with
  | [] => exact .ok none
  | [ref] =>
      rw [baseOf]
      split
      · exact .ok _
      · rename_i fault hfault
        refine failsOnly_failure (fun w hw => ?_) (by simp)
        rw [Reference.shown_of_resolve hfault hw]
        exact (h ref List.mem_cons_self).covers
  | ref :: ref' :: rest => exact failsOnly_failure (List.forall_mem_nil _) (by simp)

lemma failsOnly_partMappings (className : String) (items : List Value) :
    FailsOnly v.Causes (partMappings className items) := by
  refine .traverse fun part => ?_
  split
  · exact .ok _
  · exact failsOnly_failure (List.forall_mem_nil _) (by simp)

lemma failsOnly_compositionOf (h : v.Holds schema) (className : String) (keys : List Scalar) :
    FailsOnly v.Causes (compositionOf className keys schema) := by
  unfold compositionOf
  split
  · exact .ok _
  · rename_i part rest ring hfield
    have hparts : Schema.parts schema = part :: rest := by rw [Schema.parts, hfield]
    dsimp only
    rw [← hparts, partReferences_parts]
    exact .bind (failsOnly_baseOf className keys fun ref => part_of_mem_references h) fun _ =>
      .bind (failsOnly_partMappings className _) fun _ => .ok _
  · exact failsOnly_failure (List.forall_mem_nil _) (by simp)

lemma failsOnly_gatherProperties (className : String) (properties : Entries Scalar Mapping)
    {entries : List (Scalar × Value)} (hkeys : ∀ e ∈ entries, ∃ s, e.1 = .text s) :
    FailsOnly v.Causes (gatherProperties className properties entries) := by
  induction entries generalizing properties with
  | nil => exact .ok properties
  | cons e rest ih =>
      obtain ⟨⟨s, hs⟩, hrest⟩ := List.forall_mem_cons.1 hkeys
      obtain ⟨name, w⟩ := e
      have hfailure : FailsOnly v.Causes (failure .propertyNotMapping (.text className)
          (some name) : Except Failure (Entries Scalar Mapping)) :=
        failsOnly_failure (List.forall_mem_nil _) (by simpa using ⟨s, hs⟩)
      cases w with
      | mapping m ring => exact ih _ hrest
      | scalar x => exact hfailure
      | list items ring => exact hfailure

lemma failsOnly_namedDiscriminator (className : String) (fragment : Mapping) :
    FailsOnly v.Causes (namedDiscriminator className fragment) := by
  have hfailure : FailsOnly v.Causes (failure .unnamedDiscriminator (.text className) :
      Except Failure (Option String)) := failsOnly_failure (List.forall_mem_nil _) (by simp)
  unfold namedDiscriminator
  dsimp only
  split
  · exact .ok none
  · split
    · split
      · exact hfailure
      · exact .ok _
    · exact hfailure

lemma failsOnly_gather (hv : v.textKeyed = true) (h : v.Holds fragment) (className : String)
    (g : Gathered) : FailsOnly v.Causes (gather className g fragment) := by
  have htype : ∀ w ∈ (ModelFault.notObject
      ((Mapping.field? fragment "type").getD (.text "object"))).shown, v.Covers w := by
    refine List.forall_mem_singleton.2 ?_
    cases hfield : Mapping.field? fragment "type" with
    | none => exact covers_text v "object"
    | some w => exact (h.field? hfield).covers
  unfold gather
  split
  · rename_i entries ring hgiven
    obtain ⟨hkeys, -⟩ :=
      Mapping.textKeys_of_textKeyed (textKeyed_givenProperties (h.keyed hv) hgiven)
    exact .check (failsOnly_failure htype (by simp)) <|
      .bind (failsOnly_gatherProperties className _ hkeys) fun _ =>
        .bind (failsOnly_namedDiscriminator className fragment) fun _ => .ok _
  · exact .check (failsOnly_failure htype (by simp))
      (failsOnly_failure (List.forall_mem_nil _) (by simp))

lemma failsOnly_gatherAll (hv : v.textKeyed = true) (className : String) (g : Gathered)
    {fragments : List Mapping} (h : ∀ f ∈ fragments, v.Holds f) :
    FailsOnly v.Causes (gatherAll className g fragments) := by
  induction fragments generalizing g with
  | nil => exact .ok g
  | cons f rest ih =>
      obtain ⟨hf, hrest⟩ := List.forall_mem_cons.1 h
      rw [gatherAll]
      split
      · exact ih _ hrest
      · rename_i e he
        exact .throw (failsOnly_gather hv hf className g e he)

/-- **Why a component cannot be described** is said with its class, unless a value cannot be
shown. -/
theorem failsOnly_describe (hv : v.textKeyed = true) (home : Value) (keys : List Scalar)
    {entry : Scalar × Mapping} (hkey : ∃ s, entry.1 = .text s) (h : v.Holds entry.2) :
    FailsOnly v.Causes (describe home keys entry) := by
  obtain ⟨key, schema⟩ := entry
  obtain ⟨s, rfl⟩ := hkey
  refine .bind (.ok _) fun className => .check ?_ ?_
  · exact failsOnly_failure (List.forall_mem_singleton.2 (covers_text v s)) (by simp)
  · refine .bind_of_ok (failsOnly_compositionOf h className keys) fun composition hcomposition => ?_
    obtain ⟨-, hfragments, -⟩ := compositionOf_eq_ok.1 hcomposition
    rw [hfragments]
    refine .bind_of_ok (failsOnly_gatherAll hv className {} fun f => holds_of_mem_fragments h)
      fun gathered hgathered => ?_
    obtain ⟨-, -, hdiscriminators⟩ := gathered_component (h.keyed hv) hgathered
    split
    · rename_i name hname
      obtain ⟨t, rfl, -⟩ := (hdiscriminators name).1 (List.mem_of_find?_eq_some hname)
      exact failsOnly_failure (List.forall_mem_singleton.2 (covers_text v t)) (by simp)
    · exact .ok _

end Component

end SchemaClasses
