import SchemaClasses.Proofs.TextKeys
import SchemaClasses.Reference
import SchemaClasses.Text.ClassName

/-!
# What a schema component says

The terms in which the theory of class models is stated, read off the schemas themselves and not
off the functions that read them.  A component consists of *fragments*: the component itself and
the parts of its `allOf` that are no references.  It *extends* the component that the reference
among its parts names, its properties are those of its fragments, the last declaration counting,
and it *declares* the discriminators that its fragments name or mark.

`WellFormed` collects what a component must fulfil on its own, whatever the others say.  All this
is about mappings with text keys, so property names are plain texts here.
-/

namespace SchemaClasses.Schema

/-! ## Composition -/

/-- The parts of a composition; a component that is none has no parts. -/
def parts (schema : Mapping) : List Value :=
  match Mapping.field? schema "allOf" with
  | some (.list items _) => items
  | _ => []

/-- The references among the parts. -/
def references (schema : Mapping) : List Value :=
  (parts schema).filterMap fun part => part.mapping?.bind fun m => Mapping.field? m "$ref"

/-- One of the parts is a reference to the component of this key. -/
def Extends (schema : Mapping) (key : String) : Prop :=
  Value.text (Reference.schemaRoot ++ key) ∈ references schema

/-- The component itself, and its parts that are no references. -/
def fragments (schema : Mapping) : List Mapping :=
  schema :: ((parts schema).filterMap Value.mapping?).filter fun m => !Mapping.hasField m "$ref"

/-! ## Properties and discriminators -/

/-- The schema of a property as one fragment declares it. -/
def propertyIn? (fragment : Mapping) (name : String) : Option Mapping :=
  match Mapping.field? fragment "properties" with
  | some (.mapping entries _) => (Mapping.field? entries name).bind Value.mapping?
  | _ => none

/-- The schema of a property as the last fragment that declares it does. -/
def property? (schema : Mapping) (name : String) : Option Mapping :=
  (fragments schema).reverse.findSome? (propertyIn? · name)

/-- A fragment names its discriminator: directly, or as the property name of a mapping. -/
inductive Names (fragment : Mapping) (name : String) : Prop where
  | directly (given : Mapping.field? fragment "discriminator" = some (.text name))
  | inside (m : Mapping) (ring : Option Nat)
      (given : Mapping.field? fragment "discriminator" = some (.mapping m ring))
      (named : Mapping.field? m "propertyName" = some (.text name))

/-- A fragment marks one of its properties as the discriminator. -/
def Marks (fragment : Mapping) (name : String) : Prop :=
  ∃ p, propertyIn? fragment name = some p ∧
    Mapping.field? p "x-discriminator" = some (.scalar (.bool true))

/-- One of the fragments names or marks this discriminator. -/
def Declares (schema : Mapping) (name : String) : Prop :=
  ∃ fragment ∈ fragments schema, Names fragment name ∨ Marks fragment name

/-- The package of a component: its own if it gives one, and else that of the run. -/
def package (home : Value) (schema : Mapping) : Value :=
  if (Mapping.field schema "x-package").truthy then Mapping.field schema "x-package"
  else home

/-! ## Well-formed components -/

/-- A fragment is an object schema: its type, its properties and its discriminator are given in
one of the forms that there are for them, or not at all. -/
structure IsObject (fragment : Mapping) : Prop where
  type : ∀ v, Mapping.field? fragment "type" = some v → v = .text "object"
  properties : ∀ v, Mapping.field? fragment "properties" = some v →
    ∃ entries ring, v = .mapping entries ring ∧
      ∀ entry ∈ entries, ∃ p pring, entry.2 = .mapping p pring
  discriminator : ∀ v, Mapping.field? fragment "discriminator" = some v →
    v = .null ∨ ∃ name, name ≠ "" ∧ Names fragment name

/-- A composition is a list of mappings that is not empty, and at most one of them is a reference,
which names one of the components. -/
structure Composed (keys : List Scalar) (schema : Mapping) : Prop where
  parts : ∀ v, Mapping.field? schema "allOf" = some v →
    ∃ items ring, v = .list items ring ∧ items ≠ [] ∧
      ∀ part ∈ items, ∃ m mring, part = .mapping m mring
  single : (references schema).length ≤ 1
  resolved : ∀ ref ∈ references schema,
    ∃ key, ref = .text (Reference.schemaRoot ++ key) ∧ Scalar.text key ∈ keys

/-- A composition refers to nothing, or to a single component, which is there. -/
lemma Composed.references_eq {keys : List Scalar} {schema : Mapping} (h : Composed keys schema) :
    references schema = [] ∨
      ∃ key, references schema = [.text (Reference.schemaRoot ++ key)] ∧
        Scalar.text key ∈ keys := by
  have hsingle := h.single
  cases hrefs : references schema with
  | nil => exact Or.inl rfl
  | cons ref rest =>
      rw [hrefs, List.length_cons] at hsingle
      obtain rfl : rest = [] := List.eq_nil_of_length_eq_zero (by omega)
      obtain ⟨key, rfl, hmem⟩ := h.resolved ref (by rw [hrefs]; exact List.mem_cons_self)
      exact Or.inr ⟨key, rfl, hmem⟩

/-- A composition stays right among more components. -/
lemma Composed.mono {keys keys' : List Scalar} {schema : Mapping} (h : Composed keys schema)
    (hsub : keys ⊆ keys') : Composed keys' schema := by
  refine ⟨h.parts, h.single, fun ref href => ?_⟩
  obtain ⟨key, hkey, hmem⟩ := h.resolved ref href
  exact ⟨key, hkey, hsub hmem⟩

/-- **A component is well formed on its own.**  Its key makes a class name, its composition and
its fragments have the right form, and every discriminator it declares is one of its properties. -/
structure WellFormed (keys : List Scalar) (key : String) (schema : Mapping) : Prop where
  named : Text.pascalCase key ≠ ""
  composed : Composed keys schema
  objects : ∀ fragment ∈ fragments schema, IsObject fragment
  declared : ∀ name, Declares schema name → ∃ p, property? schema name = some p

lemma Names.unique {fragment : Mapping} {name name' : String} (h : Names fragment name)
    (h' : Names fragment name') : name = name' := by
  cases h with
  | directly given =>
      cases h' with
      | directly given' => simpa [given] using given'
      | inside m ring given' _ => simp [given] at given'
  | inside m ring given named =>
      cases h' with
      | directly given' => simp [given] at given'
      | inside m' ring' given' named' =>
          obtain ⟨rfl, -⟩ : m = m' ∧ ring = ring' := by simpa [given] using given'
          simpa [named] using named'

/-! ## Components together -/

/-- The component of one key extends that of another. -/
def Base (schemas : Entries Scalar Mapping) (key base : String) : Prop :=
  ∃ schema, Entries.get? schemas (.text key) = some schema ∧ Extends schema base

/-- The keys met on the way from a component over its base, the base of that, and so on, up to a
component that refers to none. -/
inductive BaseChain (schemas : Entries Scalar Mapping) : String → List String → Prop where
  | root {key : String} {schema : Mapping}
      (found : Entries.get? schemas (.text key) = some schema) (free : references schema = []) :
      BaseChain schemas key []
  | step {key base : String} {above : List String} (direct : Base schemas key base)
      (rest : BaseChain schemas base above) : BaseChain schemas key (base :: above)

/-! ## Text keys below a component -/

variable {schema : Mapping}

lemma textKeyed_of_mem_parts (h : Value.textKeyedEntries schema = true) {part : Value}
    (hpart : part ∈ parts schema) : part.textKeyed = true := by
  rw [parts] at hpart
  split at hpart
  · rename_i items ring hfield
    have hlist := Mapping.textKeyed_of_field? h hfield
    rw [Value.textKeyed_list, Value.textKeyedItems_iff] at hlist
    exact hlist part hpart
  · simp at hpart

lemma textKeyed_of_mem_fragments (h : Value.textKeyedEntries schema = true) {fragment : Mapping}
    (hf : fragment ∈ fragments schema) : Value.textKeyedEntries fragment = true := by
  rcases List.mem_cons.1 hf with rfl | hf
  · exact h
  · obtain ⟨part, hpart, hm⟩ := List.mem_filterMap.1 (List.mem_filter.1 hf).1
    obtain ⟨ring, rfl⟩ := Value.mapping?_eq_some.1 hm
    rw [← Value.textKeyed_mapping fragment ring]
    exact textKeyed_of_mem_parts h hpart

end SchemaClasses.Schema
