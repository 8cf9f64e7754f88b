import SchemaClasses.Hierarchy.Evaluation
import SchemaClasses.Proofs.PropertyType

/-!
# Schemas that wrap schemas

A property schema may hold nothing but another one, in order to add a description to it.
`Scope.typeOf` hands the question on to the schema inside, and so does a wrapper around a wrapper:
a schema resolves as the one at the end of its chain (`resolveType_of_wraps`), to the same type or
with the same failure for the same class and field.  Where the combinator that decides has any other
form, the search ends with a failure, whatever the schema holds besides (`resolveType_of_several`).

What runs asks first whether the chain comes back to a schema that it has met, and knows these by
their ring numbers.  A schema that wraps itself never ends, and neither does one that wraps it
(`wrapsEndlessly_of_wraps`), so this question is handed on as well.
-/

namespace SchemaClasses.Scope

open Schema (combination?)

variable {scope : Scope} {className : String} {field : Scalar} {schema inner : Mapping}
  {ring outer : Option Nat}

/-! ## Resolving a type -/

/-- The type of a property, asked for by a class and a field. -/
def resolveType (scope : Scope) (className : String) (field : Scalar) (schema : Mapping) :
    Except Failure TypeRef :=
  if wrapsEndlessly [] schema then .error (.unsupported .endlessSchema)
  else inField className field (scope.typeOf schema)

/-- The type of a variable is the resolved one. -/
lemma variableOf_eq_resolveType (discriminator : Option Scalar) :
    scope.variableOf className discriminator (field, schema) = do
      let type ← scope.resolveType className field schema
      let accessibility ← inField className field (scope.accessibilityOf schema)
      return {
        name := field
        type := type
        accessibility := accessibility
        isDiscriminator := field.equals (discriminator.getD .null) } := by
  rw [variableOf, resolveType]
  dsimp only
  split <;> rfl

/-- The value of the combinator that decides stands under its name. -/
lemma exists_firstCombinator {v : Value} (h : combination? schema = some v) :
    ∃ name, firstCombinator schema combinators = some (name, v) := by
  have hmap := map_firstCombinator schema combinators
  change _ = combination? schema at hmap
  rw [h, Option.map_eq_some_iff] at hmap
  obtain ⟨⟨name, w⟩, hfirst, rfl⟩ := hmap
  exact ⟨name, hfirst⟩

lemma mem_of_firstCombinator {names : List String} {name : String} {v : Value}
    (h : firstCombinator schema names = some (name, v)) : name ∈ names := by
  induction names with
  | nil => simp [firstCombinator] at h
  | cons first rest ih =>
      rw [firstCombinator] at h
      split at h
      · split at h
        · exact List.mem_cons_of_mem _ (ih h)
        · obtain ⟨rfl, -⟩ := Prod.mk.inj (Option.some.inj h)
          exact List.mem_cons_self
      · exact List.mem_cons_of_mem _ (ih h)

/-! ## Chains of wrappers -/

/-- A chain that comes back to a schema still does so if more schemas have been met before. -/
lemma wrapsEndlessly_mono {met met' : List Nat} (hsub : met ⊆ met')
    (h : wrapsEndlessly met schema = true) : wrapsEndlessly met' schema = true := by
  induction met, schema using wrapsEndlessly.induct generalizing met' with
  | case1 met schema ref href =>
      rw [wrapsEndlessly, href] at h
      exact absurd h Bool.false_ne_true
  | case2 met schema hfree name inner ring outer hgiven _ ih =>
      rw [wrapsEndlessly_of_wrapped hfree hgiven, Bool.or_eq_true] at h ⊢
      refine h.imp (fun hagain => ?_) (ih (List.append_subset.2 ⟨by simp, ?_⟩))
      · cases ring with
        | none => exact hagain
        | some r => simpa using hsub (by simpa using hagain)
      · exact List.Subset.trans hsub (List.subset_append_right _ _)
  | case3 met schema hfree hother =>
      rw [wrapsEndlessly_of_other hother] at h
      exact absurd h Bool.false_ne_true

/-- **A schema wraps another**, directly or around other wrappers.  A wrapper is no reference, and
the combinator that decides holds a single schema; what else it has plays no part.  Ring numbers are
given only where a document contains itself, and there a schema that is met again inside itself
never ends. -/
inductive Wraps : Mapping → Mapping → Prop where
  | refl (schema : Mapping) : Wraps schema schema
  | step {wrapper inner schema : Mapping} {ring outer : Option Nat}
      (free : Mapping.field? wrapper "$ref" = none)
      (given : combination? wrapper = some (.list [.mapping inner ring] outer))
      (again : wrapsEndlessly ring.toList inner = true → wrapsEndlessly [] inner = true)
      (rest : Wraps inner schema) : Wraps wrapper schema

/-- A chain of wrappers ends exactly if the chain of the schema they wrap does. -/
lemma wrapsEndlessly_of_wraps (h : Wraps schema inner) :
    wrapsEndlessly [] schema = wrapsEndlessly [] inner := by
  induction h with
  | refl schema => rfl
  | step free given again _ ih =>
      obtain ⟨name, hfirst⟩ := exists_firstCombinator given
      have hfresh : ∀ ring : Option Nat, ring.any [].contains = false := by
        intro ring
        cases ring <;> rfl
      rw [← ih, wrapsEndlessly_of_wrapped free hfirst, List.append_nil, hfresh, Bool.false_or,
        Bool.eq_iff_iff]
      exact ⟨again, wrapsEndlessly_mono (List.nil_subset _)⟩

lemma typeOf_of_wraps (scope : Scope) (h : Wraps schema inner) :
    scope.typeOf schema = scope.typeOf inner := by
  induction h with
  | refl schema => rfl
  | step free given _ _ ih =>
      obtain ⟨name, hfirst⟩ := exists_firstCombinator given
      rw [typeOf_of_wrapped free hfirst, ih]

lemma resolveType_of_several {v : Value} (hshown : field.limit? = none)
    (hfree : Mapping.field? schema "$ref" = none) (hgiven : combination? schema = some v)
    (hother : ∀ inner ring outer, v ≠ .list [.mapping inner ring] outer) :
    ∃ name ∈ combinators, scope.resolveType className field schema =
      .error (.model ⟨.severalVariants name, some (.text className), some field⟩) := by
  obtain ⟨name, hfirst⟩ := exists_firstCombinator hgiven
  have hends : wrapsEndlessly [] schema = false := wrapsEndlessly_of_other (by
    intro name' inner ring outer heq
    rw [hfirst] at heq
    exact hother inner ring outer (Prod.mk.inj (Option.some.inj heq)).2)
  refine ⟨name, mem_of_firstCombinator hfirst, ?_⟩
  rw [resolveType, hends, typeOf_of_several hfree hfirst hother]
  simp [inField, Component.failure, Failure.raise, Failure.settled, Failure.shown,
    ModelError.shown, ModelFault.shown, hshown]

/-- A wrapper around a wrapper around a list, with more in both of them than anyone asks for. -/
def wrappedTwice : Mapping := [
  (.text "description", .text "toys"),
  (.text "allOf", .null),
  (.text "oneOf", .list [.mapping [
    (.text "type", .text "string"),
    (.text "anyOf", .list [.mapping [(.text "type", .text "array")]])]]),
  (.text "anyOf", .list [.null, .null]),
  (.text "type", .text "number")]

lemma wraps_wrappedTwice : Wraps wrappedTwice [(.text "type", .text "array")] :=
  .step rfl rfl id (.step rfl rfl id (.refl _))

end SchemaClasses.Scope
