import SchemaClasses.Hierarchy.PropertyType
import SchemaClasses.Proofs.Description

/-!
# What the type of a property is

`Scope.typeOf` climbs through the schemas that a property wraps, and `Scope.wrapsEndlessly` looks
ahead whether this ends.  The two together are one relation between the schema of a property and
what it stands for: a built-in type, or a component (`Schema.Typed`).  The relation needs neither
the components nor their packages, only the keys; `typeOf_eq_ok` reads the type off its target.
-/

namespace SchemaClasses

/-! ## The relation -/

namespace Schema

/-- What the type of a property stands for. -/
inductive Target where
  | builtIn (name : String)
  | component (key : String)

/-- A target is a built-in type of the registry, or a component that is there. -/
def Target.Known (registry : TypeRegistry) (keys : List Scalar) : Target → Prop
  | builtIn name => name ∈ registry.names
  | component key => Scalar.text key ∈ keys

/-- A type name stands for the built-in type of this name, or else for the component with this key,
or else for the first one whose class has this name. -/
inductive Named (registry : TypeRegistry) (keys : List Scalar) (name : String) : Target → Prop where
  | builtIn (known : name ∈ registry.names) : Named registry keys name (.builtIn name)
  | key (foreign : name ∉ registry.names) (known : Scalar.text name ∈ keys) :
      Named registry keys name (.component name)
  | className {key : String} (foreign : name ∉ registry.names) (unknown : Scalar.text name ∉ keys)
      (first : keys.find? (fun k => Text.pascalCase k.display == name) = some (.text key)) :
      Named registry keys name (.component key)

/-- The value of the first combinator that is given and not null. -/
def combination? (schema : Mapping) : Option Value :=
  ["allOf", "oneOf", "anyOf"].findSome? fun name =>
    (Mapping.field? schema name).filter fun v => !v.isNull

/-- **The type of a property.**  A reference decides; else the first combinator does, which must
hold a single schema and hands on the question to it; else the type name does.  The schemas that
have been met on the way must not be met again, as they may in a document that contains itself. -/
inductive Typed (registry : TypeRegistry) (keys : List Scalar) :
    List Nat → Mapping → Target → Prop where
  | reference {met : List Nat} {schema : Mapping} {key : String}
      (given : Mapping.field? schema "$ref" = some (.text (Reference.schemaRoot ++ key)))
      (known : Scalar.text key ∈ keys) : Typed registry keys met schema (.component key)
  | wrapped {met : List Nat} {schema inner : Mapping} {ring outer : Option Nat} {target : Target}
      (free : Mapping.field? schema "$ref" = none)
      (given : combination? schema = some (.list [.mapping inner ring] outer))
      (fresh : ∀ r ∈ ring, r ∉ met)
      (inside : Typed registry keys (ring.toList ++ met) inner target) :
      Typed registry keys met schema target
  | named {met : List Nat} {schema : Mapping} {name : String} {target : Target}
      (free : Mapping.field? schema "$ref" = none) (plain : combination? schema = none)
      (given : Mapping.field? schema "type" = some (.text name))
      (known : Named registry keys name target) : Typed registry keys met schema target

variable {registry : TypeRegistry} {keys : List Scalar} {target : Target}

lemma Named.target_known {name : String} (h : Named registry keys name target) :
    target.Known registry keys := by
  cases h with
  | builtIn known => exact known
  | key _ known => exact known
  | className _ _ first => exact List.mem_of_find?_eq_some first

/-- A property stands for something that is there. -/
lemma Typed.target_known {met : List Nat} {schema : Mapping}
    (h : Typed registry keys met schema target) : target.Known registry keys := by
  induction h with
  | reference _ known => exact known
  | wrapped _ _ _ _ ih => exact ih
  | named _ _ _ known => exact known.target_known

variable {met : List Nat} {schema : Mapping}

lemma typed_iff_of_reference {ref : Value} (href : Mapping.field? schema "$ref" = some ref) :
    Typed registry keys met schema target ↔
      ∃ key, ref = .text (Reference.schemaRoot ++ key) ∧ Scalar.text key ∈ keys ∧
        target = .component key := by
  constructor
  · intro h
    cases h with
    | reference given known => exact ⟨_, Option.some.inj (href.symm.trans given), known, rfl⟩
    | wrapped free _ _ _ => simp [href] at free
    | named free _ _ _ => simp [href] at free
  · rintro ⟨key, rfl, known, rfl⟩
    exact .reference href known

lemma typed_iff_of_wrapped {inner : Mapping} {ring outer : Option Nat}
    (hfree : Mapping.field? schema "$ref" = none)
    (hgiven : combination? schema = some (.list [.mapping inner ring] outer)) :
    Typed registry keys met schema target ↔
      (∀ r ∈ ring, r ∉ met) ∧ Typed registry keys (ring.toList ++ met) inner target := by
  constructor
  · intro h
    cases h with
    | reference given _ => simp [hfree] at given
    | wrapped _ given fresh inside =>
        obtain ⟨⟨rfl, rfl⟩, rfl⟩ : (inner = _ ∧ ring = _) ∧ outer = _ := by
          simpa [hgiven] using given
        exact ⟨fresh, inside⟩
    | named _ plain _ _ => simp [hgiven] at plain
  · rintro ⟨fresh, inside⟩
    exact .wrapped hfree hgiven fresh inside

lemma not_typed_of_several {v : Value} (hfree : Mapping.field? schema "$ref" = none)
    (hgiven : combination? schema = some v)
    (hother : ∀ inner ring outer, v ≠ .list [.mapping inner ring] outer) :
    ¬ Typed registry keys met schema target := by
  intro h
  cases h with
  | reference given _ => simp [hfree] at given
  | wrapped _ given _ _ => exact hother _ _ _ (Option.some.inj (hgiven.symm.trans given))
  | named _ plain _ _ => simp [hgiven] at plain

lemma typed_iff_of_plain (hfree : Mapping.field? schema "$ref" = none)
    (hplain : combination? schema = none) :
    Typed registry keys met schema target ↔
      ∃ name, Mapping.field? schema "type" = some (.text name) ∧
        Named registry keys name target := by
  constructor
  · intro h
    cases h with
    | reference given _ => simp [hfree] at given
    | wrapped _ given _ _ => simp [hplain] at given
    | named _ _ given known => exact ⟨_, given, known⟩
  · rintro ⟨name, given, known⟩
    exact .named hfree hplain given known

end Schema

namespace Scope

open Schema (Target Named Typed combination?)

variable {scope : Scope} {schema : Mapping} {t : TypeRef}

/-! ## Combinators -/

lemma map_firstCombinator (schema : Mapping) (names : List String) :
    (firstCombinator schema names).map (·.2) =
      names.findSome? fun name => (Mapping.field? schema name).filter fun v => !v.isNull := by
  induction names with
  | nil => rfl
  | cons name rest ih =>
      rw [firstCombinator, List.findSome?_cons]
      cases hfield : Mapping.field? schema name with
      | none => exact ih
      | some v =>
          by_cases hnull : v.isNull = true
          · simpa [hnull, Option.filter] using ih
          · simp [hnull, Option.filter]

lemma combination?_of_firstCombinator {given : Option (String × Value)}
    (h : firstCombinator schema combinators = given) : combination? schema = given.map (·.2) := by
  rw [← h, map_firstCombinator]
  rfl

/-! ## Names -/

/-- The type of a target: a built-in type, or the class of a component. -/
def targetType? (scope : Scope) : Target → Option TypeRef
  | .builtIn name => some { name := name, isBuiltIn := true }
  | .component key => scope.typeOfKey key

/-- The class names stand beside the keys they are made from, which are texts. -/
structure NamesKeys (scope : Scope) (keys : List Scalar) : Prop where
  names : scope.classNames = keys.map fun k => (k, Text.pascalCase k.display)
  texts : ∀ k ∈ keys, ∃ s, k = .text s

variable {keys : List Scalar}

lemma NamesKeys.findByName_eq_some (h : scope.NamesKeys keys) {name : String} {k : Scalar} :
    Reference.findByName scope.classNames name = some k ↔
      (Scalar.text name ∈ keys ∧ k = .text name) ∨
        Scalar.text name ∉ keys ∧
          keys.find? (fun k => Text.pascalCase k.display == name) = some k := by
  have hany : (scope.classNames.any fun entry => entry.1 == .text name) = true ↔
      Scalar.text name ∈ keys := by
    simp [h.names]
  have hfind : (scope.classNames.find? fun entry => entry.2 == name).map (·.1) =
      keys.find? fun k => Text.pascalCase k.display == name := by
    rw [h.names, List.find?_map, Option.map_map]
    exact Option.map_id_apply
  rw [Reference.findByName, hfind]
  by_cases hmem : Scalar.text name ∈ keys
  · simp [hany.2 hmem, hmem, eq_comm]
  · have hnone := mt hany.1 hmem
    simp [hnone, hmem]

/-- **A type name has the type of what it stands for.** -/
theorem NamesKeys.typeOfName_eq_ok (h : scope.NamesKeys keys) {name : String} :
    scope.typeOfName name = .ok t ↔
      ∃ target, Named scope.registry keys name target ∧ scope.targetType? target = some t := by
  rw [typeOfName]
  by_cases hbuiltIn : name ∈ scope.registry.names
  · rw [if_pos (TypeRegistry.isBuiltIn_iff.2 hbuiltIn)]
    constructor
    · intro ht
      exact ⟨.builtIn name, .builtIn hbuiltIn, congrArg some (Except.ok.inj ht)⟩
    · rintro ⟨target, hnamed, ht⟩
      cases hnamed with
      | builtIn known => exact congrArg Except.ok (Option.some.inj ht)
      | key foreign _ => exact absurd hbuiltIn foreign
      | className foreign _ _ => exact absurd hbuiltIn foreign
  · rw [if_neg (mt TypeRegistry.isBuiltIn_iff.1 hbuiltIn)]
    have hfound : (∃ k, Reference.findByName scope.classNames name = some k ∧
        scope.typeOfKey k.display = some t) ↔
        ∃ target, Named scope.registry keys name target ∧ scope.targetType? target = some t := by
      simp only [h.findByName_eq_some]
      constructor
      · rintro ⟨k, ⟨hmem, rfl⟩ | ⟨hmem, hfirst⟩, ht⟩
        · exact ⟨.component name, .key hbuiltIn hmem, ht⟩
        · obtain ⟨key, rfl⟩ := h.texts k (List.mem_of_find?_eq_some hfirst)
          exact ⟨.component key, .className hbuiltIn hmem hfirst, ht⟩
      · rintro ⟨target, hnamed, ht⟩
        cases hnamed with
        | builtIn known => exact absurd known hbuiltIn
        | key _ known => exact ⟨_, Or.inl ⟨known, rfl⟩, ht⟩
        | className _ unknown first => exact ⟨_, Or.inr ⟨unknown, first⟩, ht⟩
    rw [← hfound, ← Option.bind_eq_some_iff]
    split
    · rename_i type htype
      rw [htype]
      simp
    · rename_i hnone
      rw [hnone]
      simp

/-- A type name that stands for nothing is reported under its own name. -/
lemma typeOfName_cases (scope : Scope) (name : String) :
    (∃ t, scope.typeOfName name = .ok t) ∨ scope.typeOfName name = .error (.unknownType name) := by
  rw [typeOfName]
  split
  · exact Or.inl ⟨_, rfl⟩
  · split
    · exact Or.inl ⟨_, rfl⟩
    · exact Or.inr rfl

/-- A reference has the type of the component it names. -/
lemma NamesKeys.typeOfReference_eq_ok (h : scope.NamesKeys keys) {ref : Value} :
    scope.typeOfReference ref = .ok t ↔
      ∃ key, ref = .text (Reference.schemaRoot ++ key) ∧ Scalar.text key ∈ keys ∧
        scope.targetType? (.component key) = some t := by
  have hkeys : scope.classNames.map (·.1) = keys := by
    rw [h.names, List.map_map]
    exact List.map_id _
  rw [typeOfReference, hkeys]
  constructor
  · intro ht
    split at ht
    · simp at ht
    · rename_i key hresolve
      obtain ⟨href, hmem⟩ := Reference.resolve_eq_ok.1 hresolve
      split at ht
      · rename_i type htype
        exact ⟨key, href, hmem, htype.trans (congrArg some (Except.ok.inj ht))⟩
      · simp at ht
  · rintro ⟨key, href, hmem, ht⟩
    rw [Reference.resolve_eq_ok.2 ⟨href, hmem⟩]
    dsimp only
    rw [show scope.typeOfKey key = some t from ht]

/-! ## Types -/

lemma typeOf_of_reference {ref : Value} (href : Mapping.field? schema "$ref" = some ref) :
    scope.typeOf schema = scope.typeOfReference ref := by
  rw [typeOf, href]

lemma typeOf_of_wrapped {inner : Mapping} {name : String} {ring outer : Option Nat}
    (hfree : Mapping.field? schema "$ref" = none)
    (hgiven : firstCombinator schema combinators = some (name, .list [.mapping inner ring] outer)) :
    scope.typeOf schema = scope.typeOf inner := by
  rw [typeOf, hfree]
  dsimp only
  split
  · rename_i given
    rw [hgiven] at given
    cases given
    rfl
  · rename_i hother given
    rw [hgiven] at given
    cases given
    exact (hother inner ring outer rfl).elim
  · rename_i given
    rw [hgiven] at given
    cases given

lemma typeOf_of_several {name : String} {v : Value}
    (hfree : Mapping.field? schema "$ref" = none)
    (hgiven : firstCombinator schema combinators = some (name, v))
    (hother : ∀ inner ring outer, v ≠ .list [.mapping inner ring] outer) :
    scope.typeOf schema = .error (.severalVariants name) := by
  rw [typeOf, hfree]
  dsimp only
  split
  · rename_i given
    rw [hgiven] at given
    cases given
    exact (hother _ _ _ rfl).elim
  · rename_i given
    rw [hgiven] at given
    cases given
    rfl
  · rename_i given
    rw [hgiven] at given
    cases given

/-- Without a reference and a combinator, the type name decides. -/
lemma typeOf_eq_of_plain (hfree : Mapping.field? schema "$ref" = none)
    (hplain : firstCombinator schema combinators = none) :
    scope.typeOf schema = (Mapping.field? schema "type").elim (.error .untypedProperty) fun v =>
      v.text?.elim (.error (.typeNotName v)) scope.typeOfName := by
  rw [typeOf, hfree]
  dsimp only
  split
  · rename_i given
    rw [hplain] at given
    cases given
  · rename_i given
    rw [hplain] at given
    cases given
  · cases Mapping.field? schema "type" with
    | none => rfl
    | some v =>
        dsimp only [Option.elim]
        cases v.text? <;> rfl

lemma typeOf_of_plain (hfree : Mapping.field? schema "$ref" = none)
    (hplain : firstCombinator schema combinators = none) :
    scope.typeOf schema = .ok t ↔
      ∃ name, Mapping.field? schema "type" = some (.text name) ∧ scope.typeOfName name = .ok t := by
  rw [typeOf_eq_of_plain hfree hplain]
  cases Mapping.field? schema "type" with
  | none => simp
  | some v =>
      cases htext : v.text? with
      | none =>
          have hne : ∀ name, v ≠ .text name := by
            rintro name rfl
            simp [Value.text?_eq_some.2] at htext
          simp [hne, htext]
      | some name =>
          obtain rfl := Value.text?_eq_some.1 htext
          simp [htext]

/-- Why a schema has no type: for a fault of its own, or of the single schema that it wraps. -/
inductive Untyped (scope : Scope) : Mapping → ModelFault → Prop where
  | reference {schema : Mapping} {ref : Value} {fault : ModelFault}
      (given : Mapping.field? schema "$ref" = some ref)
      (unresolved : scope.typeOfReference ref = .error fault) : Untyped scope schema fault
  | wrapped {schema inner : Mapping} {name : String} {ring outer : Option Nat} {fault : ModelFault}
      (given : firstCombinator schema combinators = some (name, .list [.mapping inner ring] outer))
      (rest : Untyped scope inner fault) : Untyped scope schema fault
  | several {schema : Mapping} {name : String} {v : Value}
      (given : firstCombinator schema combinators = some (name, v)) :
      Untyped scope schema (.severalVariants name)
  | missing {schema : Mapping} (absent : Mapping.field? schema "type" = none) :
      Untyped scope schema .untypedProperty
  | unnamed {schema : Mapping} {v : Value} (given : Mapping.field? schema "type" = some v) :
      Untyped scope schema (.typeNotName v)
  | unknown {schema : Mapping} {name : String}
      (given : Mapping.field? schema "type" = some (.text name)) :
      Untyped scope schema (.unknownType name)

lemma untyped_of_typeOf_of_plain {fault : ModelFault}
    (hfree : Mapping.field? schema "$ref" = none)
    (hplain : firstCombinator schema combinators = none)
    (h : scope.typeOf schema = .error fault) : scope.Untyped schema fault := by
  rw [typeOf_eq_of_plain hfree hplain] at h
  cases hu : Mapping.field? schema "type" with
  | none =>
      rw [hu] at h
      obtain rfl := Except.error.inj h
      exact .missing hu
  | some u =>
      rw [hu, Option.elim_some] at h
      cases htext : u.text? with
      | none =>
          rw [htext] at h
          obtain rfl := Except.error.inj h
          exact .unnamed hu
      | some name =>
          obtain rfl := Value.text?_eq_some.1 htext
          rw [htext, Option.elim_some] at h
          rcases scope.typeOfName_cases name with ⟨t, ht⟩ | hunknown
          · rw [ht] at h
            cases h
          · rw [hunknown] at h
            obtain rfl := Except.error.inj h
            exact .unknown hu

lemma untyped_of_typeOf {fault : ModelFault} (h : scope.typeOf schema = .error fault) :
    scope.Untyped schema fault := by
  induction schema using typeOf.induct with
  | case1 schema ref href =>
      rw [typeOf_of_reference href] at h
      exact .reference href h
  | case2 schema hfree name inner ring outer hgiven _ ih =>
      rw [typeOf_of_wrapped hfree hgiven] at h
      exact .wrapped hgiven (ih h)
  | case3 schema hfree name u hother hgiven =>
      rw [typeOf_of_several hfree hgiven hother] at h
      obtain rfl := Except.error.inj h
      exact .several hgiven
  | case4 schema hfree hplain hnone => exact untyped_of_typeOf_of_plain hfree hplain h
  | case5 schema hfree hplain u hu name hname => exact untyped_of_typeOf_of_plain hfree hplain h
  | case6 schema hfree hplain u hu hnone => exact untyped_of_typeOf_of_plain hfree hplain h

lemma wrapsEndlessly_of_wrapped {met : List Nat} {inner : Mapping} {name : String}
    {ring outer : Option Nat} (hfree : Mapping.field? schema "$ref" = none)
    (hgiven : firstCombinator schema combinators = some (name, .list [.mapping inner ring] outer)) :
    wrapsEndlessly met schema =
      (ring.any met.contains || wrapsEndlessly (ring.toList ++ met) inner) := by
  rw [wrapsEndlessly, hfree]
  dsimp only
  split
  · rename_i given
    rw [hgiven] at given
    cases given
    rfl
  · rename_i hother
    exact (hother _ _ _ _ hgiven).elim

lemma wrapsEndlessly_of_other {met : List Nat}
    (hother : ∀ name inner ring outer, firstCombinator schema combinators ≠
      some (name, .list [.mapping inner ring] outer)) : wrapsEndlessly met schema = false := by
  rw [wrapsEndlessly]
  split
  · rfl
  · split
    · rename_i given
      exact (hother _ _ _ _ given).elim
    · rfl

lemma NamesKeys.typeOf_eq_ok_of_plain (h : scope.NamesKeys keys) (met : List Nat)
    (hfree : Mapping.field? schema "$ref" = none)
    (hplain : firstCombinator schema combinators = none) :
    wrapsEndlessly met schema = false ∧ scope.typeOf schema = .ok t ↔
      ∃ target, Typed scope.registry keys met schema target ∧
        scope.targetType? target = some t := by
  have hends : wrapsEndlessly met schema = false := wrapsEndlessly_of_other (by simp [hplain])
  simp only [hends, true_and, typeOf_of_plain hfree hplain, h.typeOfName_eq_ok,
    Schema.typed_iff_of_plain hfree (combination?_of_firstCombinator hplain)]
  constructor
  · rintro ⟨name, hname, target, hnamed, ht⟩
    exact ⟨target, ⟨name, hname, hnamed⟩, ht⟩
  · rintro ⟨target, ⟨name, hname, hnamed⟩, ht⟩
    exact ⟨name, hname, target, hnamed, ht⟩

/-- **A property has a type exactly if it ends in a target**, and then it has that of the target. -/
theorem NamesKeys.typeOf_eq_ok (h : scope.NamesKeys keys) (met : List Nat) (schema : Mapping) :
    wrapsEndlessly met schema = false ∧ scope.typeOf schema = .ok t ↔
      ∃ target, Typed scope.registry keys met schema target ∧
        scope.targetType? target = some t := by
  induction schema using typeOf.induct generalizing met with
  | case1 schema ref href =>
      have hends : wrapsEndlessly met schema = false := by rw [wrapsEndlessly, href]
      simp only [hends, true_and, typeOf_of_reference href, h.typeOfReference_eq_ok,
        Schema.typed_iff_of_reference href]
      constructor
      · rintro ⟨key, hkey, hmem, ht⟩
        exact ⟨_, ⟨key, hkey, hmem, rfl⟩, ht⟩
      · rintro ⟨_, ⟨key, hkey, hmem, rfl⟩, ht⟩
        exact ⟨key, hkey, hmem, ht⟩
  | case2 schema hfree name inner ring outer hgiven _ ih =>
      have hring : ring.any met.contains = false ↔ ∀ r ∈ ring, r ∉ met := by
        cases ring <;> simp
      have hcombination := combination?_of_firstCombinator hgiven
      rw [typeOf_of_wrapped hfree hgiven, wrapsEndlessly_of_wrapped hfree hgiven,
        Bool.or_eq_false_iff, and_assoc, ih, hring]
      simp only [Schema.typed_iff_of_wrapped hfree hcombination, and_assoc, exists_and_left]
  | case3 schema hfree name v hother hgiven =>
      have hcombination := combination?_of_firstCombinator hgiven
      simp [typeOf_of_several hfree hgiven hother,
        Schema.not_typed_of_several hfree hcombination hother]
  -- The three cases without a combinator differ in the type name only.
  | case4 schema hfree hplain hnone => exact h.typeOf_eq_ok_of_plain met hfree hplain
  | case5 schema hfree hplain v hv name hname => exact h.typeOf_eq_ok_of_plain met hfree hplain
  | case6 schema hfree hplain v hv hnone => exact h.typeOf_eq_ok_of_plain met hfree hplain

/-! ## Types and components -/

lemma component_of_typeOfKey {key : String} (h : scope.typeOfKey key = some t) :
    ∃ c ∈ scope.components, t = c.type := by
  obtain ⟨c, hc, rfl⟩ := Option.map_eq_some_iff.1 h
  exact ⟨c, List.mem_of_find?_eq_some hc, rfl⟩

lemma component_of_typeOfName {name : String} (h : scope.typeOfName name = .ok t) :
    t.isBuiltIn = true ∨ ∃ c ∈ scope.components, t = c.type := by
  rw [typeOfName] at h
  split at h
  · exact Or.inl (by rw [← Except.ok.inj h])
  · split at h
    · rename_i hfound
      obtain ⟨k, -, hkey⟩ := Option.bind_eq_some_iff.1 hfound
      exact Or.inr (component_of_typeOfKey (Except.ok.inj h ▸ hkey))
    · simp at h

/-- A type is built in, or that of a component. -/
lemma component_of_typeOf (h : scope.typeOf schema = .ok t) :
    t.isBuiltIn = true ∨ ∃ c ∈ scope.components, t = c.type := by
  have hplain : ∀ {schema}, Mapping.field? schema "$ref" = none →
      firstCombinator schema combinators = none → scope.typeOf schema = .ok t →
      t.isBuiltIn = true ∨ ∃ c ∈ scope.components, t = c.type := by
    intro schema hfree hplain h
    obtain ⟨name, -, hname⟩ := (typeOf_of_plain hfree hplain).1 h
    exact component_of_typeOfName hname
  induction schema using typeOf.induct with
  | case1 schema ref href =>
      rw [typeOf_of_reference href, typeOfReference] at h
      split at h
      · simp at h
      · split at h
        · rename_i htype
          exact Or.inr (component_of_typeOfKey (Except.ok.inj h ▸ htype))
        · simp at h
  | case2 schema hfree name inner ring outer hgiven _ ih =>
      exact ih (typeOf_of_wrapped hfree hgiven ▸ h)
  | case3 schema hfree name v hother hgiven =>
      rw [typeOf_of_several hfree hgiven hother] at h
      simp at h
  -- The three cases without a combinator differ in the type name only.
  | case4 schema hfree hnone _ => exact hplain hfree hnone h
  | case5 schema hfree hnone _ _ _ _ => exact hplain hfree hnone h
  | case6 schema hfree hnone _ _ _ => exact hplain hfree hnone h

end Scope

end SchemaClasses
