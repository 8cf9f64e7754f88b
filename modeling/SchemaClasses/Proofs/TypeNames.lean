import SchemaClasses.Proofs.ClosedTypes
import SchemaClasses.Proofs.Wrapping

/-!
# Naming a component and referring to it

A property can refer to a schema component, or give a type name.  A reference is cut off behind the
place where components stand, and what is left is the key, whatever characters it has.  A type name
is looked up three times: among the built-in types, among the keys, and among the names of classes,
where the first component in document order is taken.  Each of the three hides those behind it.

`NamesAgree` says what comes out for every type name: the built-in type, or just what a reference
to one component gives, or a failure.  It rests on one lookup, `exists_typeOfKey`, which finds the
class of every key.  `namesAgree_of_ofDocument` has it for the scope in which the classes of a model
are built.
-/

namespace SchemaClasses

open Lineage (Components)

/-! ## Two ways to give a type -/

namespace Schema

/-- A property that gives its type by a type name, and in no other way. -/
structure HasTypeName (schema : Mapping) (name : String) : Prop where
  free : Mapping.field? schema "$ref" = none
  plain : combination? schema = none
  given : Mapping.field? schema "type" = some (.text name)

/-- A property that refers to the component under a key. -/
def RefersTo (schema : Mapping) (key : String) : Prop :=
  Mapping.field? schema "$ref" = some (.text (Reference.schemaRoot ++ key))

/-- The first of the components whose classes have this name. -/
def FirstToMake (keys : List String) (className key : String) : Prop :=
  Text.pascalCase key = className ∧
    ∃ before after, keys = before ++ key :: after ∧ ∀ k ∈ before, Text.pascalCase k ≠ className

variable {keys : List String} {className key : String}

lemma firstToMake_iff :
    FirstToMake keys className key ↔
      (keys.map Scalar.text).find? (fun k => Text.pascalCase k.display == className) =
        some (.text key) := by
  have hcomp : ((fun k : Scalar => Text.pascalCase k.display == className) ∘ Scalar.text) =
      fun k => Text.pascalCase k == className := rfl
  rw [List.find?_map, hcomp, Option.map_eq_some_iff, FirstToMake]
  simp only [Scalar.text.injEq, exists_eq_right, List.find?_eq_some_iff_append, beq_iff_eq,
    Bool.not_eq_true', beq_eq_false_iff_ne]

lemma FirstToMake.mem (h : FirstToMake keys className key) : key ∈ keys := by
  obtain ⟨-, before, after, rfl, -⟩ := h
  exact List.mem_append_right before List.mem_cons_self

lemma FirstToMake.unique {key' : String} (h : FirstToMake keys className key)
    (h' : FirstToMake keys className key') : key = key' := by
  rw [firstToMake_iff] at h h'
  exact Scalar.text.inj (Option.some.inj (h.symm.trans h'))

lemma exists_firstToMake (hkey : key ∈ keys) :
    ∃ first, FirstToMake keys (Text.pascalCase key) first := by
  have hsome : (keys.find? fun k => Text.pascalCase k == Text.pascalCase key).isSome = true :=
    List.find?_isSome.2 ⟨key, hkey, beq_self_eq_true _⟩
  obtain ⟨first, hfirst⟩ := Option.isSome_iff_exists.1 hsome
  refine ⟨first, firstToMake_iff.2 ?_⟩
  rw [List.find?_map]
  exact Option.map_eq_some_iff.2 ⟨first, hfirst, rfl⟩

end Schema

/-! ## What they come to -/

namespace Scope

open Schema (HasTypeName RefersTo FirstToMake Named)

variable {scope : Scope} {keys : List String} {classes : List ClassDef} {schema : Mapping}
  {name key : String} {className : String} {field : Scalar}

lemma firstCombinator_of_typeName (h : HasTypeName schema name) :
    firstCombinator schema combinators = none := by
  have hmap := map_firstCombinator schema combinators
  change _ = Schema.combination? schema at hmap
  rwa [h.plain, Option.map_eq_none_iff] at hmap

lemma typeOf_of_typeName (h : HasTypeName schema name) :
    scope.typeOf schema = scope.typeOfName name := by
  rw [typeOf_eq_of_plain h.free (firstCombinator_of_typeName h), h.given]
  rfl

/-- A property with a type name has the type of the name. -/
lemma resolveType_of_typeName (h : HasTypeName schema name) :
    scope.resolveType className field schema = inField className field (scope.typeOfName name) := by
  rw [resolveType, wrapsEndlessly_of_other (by simp [firstCombinator_of_typeName h]),
    typeOf_of_typeName h]
  rfl

/-- **Naming a component and referring to it agree.**  Every type name is in one of four cases: it is
built in; it is a key; it is no key but the name of a class; or it stands for nothing. -/
structure NamesAgree (scope : Scope) (keys : List String) (classes : List ClassDef) : Prop where
  /-- A reference to a component has the type of its class. -/
  reference : ∀ key ∈ keys, ∃ c ∈ classes, c.componentKey = key ∧
    ∀ className field ref, RefersTo ref key → scope.resolveType className field ref = .ok c.type
  /-- The registry comes first, even if there is a component of this name. -/
  builtIn : ∀ name ∈ scope.registry.names, ∀ className field schema, HasTypeName schema name →
    scope.resolveType className field schema = .ok { name := name, isBuiltIn := true }
  /-- A key stands for its component, even if the class of another one has this name. -/
  key : ∀ key ∈ keys, key ∉ scope.registry.names →
    ∀ className field schema ref, HasTypeName schema key → RefersTo ref key →
      scope.resolveType className field schema = scope.resolveType className field ref
  /-- The name of a class stands for the first component that makes it.  The component of a key is
  this one if no component before it makes the same name. -/
  className : ∀ key ∈ keys, Text.pascalCase key ∉ scope.registry.names →
    Text.pascalCase key ∉ keys →
    ∃ first ∈ keys, FirstToMake keys (Text.pascalCase key) first ∧
      (∀ before after, keys = before ++ key :: after →
        (∀ k ∈ before, Text.pascalCase k ≠ Text.pascalCase key) → first = key) ∧
      ∀ className field schema ref,
        HasTypeName schema (Text.pascalCase key) → RefersTo ref first →
          scope.resolveType className field schema = scope.resolveType className field ref
  /-- Any other type name is reported with the class and the field. -/
  unknown : ∀ name, name ∉ scope.registry.names → name ∉ keys →
    (∀ key ∈ keys, Text.pascalCase key ≠ name) →
    ∀ (className field : String) schema, HasTypeName schema name →
      scope.resolveType className (.text field) schema =
        .error (.model ⟨.unknownType name, some (.text className), some (.text field)⟩) ∧
      (ModelFault.unknownType name).family = .unresolvedType

variable (hnames : scope.NamesKeys (keys.map .text))

include hnames

lemma NamesKeys.resolveType_of_refersTo {t : TypeRef} (hkey : key ∈ keys)
    (ht : scope.typeOfKey key = some t) (href : RefersTo schema key) :
    scope.resolveType className field schema = .ok t := by
  have htype : scope.typeOf schema = .ok t := by
    rw [typeOf_of_reference href]
    exact hnames.typeOfReference_eq_ok.2 ⟨key, rfl, List.mem_map_of_mem hkey, ht⟩
  have hends : wrapsEndlessly [] schema = false := by
    rw [wrapsEndlessly, show Mapping.field? schema "$ref" = _ from href]
  rw [resolveType, hends, htype]
  rfl

/-- A name that stands for a component has the type of a reference to it. -/
lemma NamesKeys.resolveType_of_named {ref : Mapping}
    (hfound : ∀ key ∈ keys, ∃ t, scope.typeOfKey key = some t)
    (hnamed : Named scope.registry (keys.map .text) name (.component key))
    (hschema : HasTypeName schema name) (href : RefersTo ref key) :
    scope.resolveType className field schema = scope.resolveType className field ref := by
  have hkey : key ∈ keys := by
    obtain ⟨k, hk, heq⟩ := List.mem_map.1 hnamed.target_known
    rwa [← Scalar.text.inj heq]
  obtain ⟨t, ht⟩ := hfound key hkey
  rw [resolveType_of_typeName hschema, hnames.typeOfName_eq_ok.2 ⟨_, hnamed, ht⟩,
    hnames.resolveType_of_refersTo hkey ht href]
  rfl

lemma NamesKeys.resolveType_of_unknown {field : String} (hforeign : name ∉ scope.registry.names)
    (hkeys : name ∉ keys) (hmade : ∀ key ∈ keys, Text.pascalCase key ≠ name)
    (hschema : HasTypeName schema name) :
    scope.resolveType className (.text field) schema =
      .error (.model ⟨.unknownType name, some (.text className), some (.text field)⟩) := by
  have hunknown : scope.typeOfName name = .error (.unknownType name) := by
    refine (scope.typeOfName_cases name).resolve_left ?_
    rintro ⟨t, ht⟩
    obtain ⟨target, hnamed, -⟩ := hnames.typeOfName_eq_ok.1 ht
    cases hnamed with
    | builtIn known => exact hforeign known
    | key _ known =>
        obtain ⟨k, hk, heq⟩ := List.mem_map.1 known
        exact hkeys (Scalar.text.inj heq ▸ hk)
    | className _ _ first =>
        obtain ⟨hname, hfirst⟩ := Schema.firstToMake_iff.2 first
        exact hmade _ (Schema.FirstToMake.mem ⟨hname, hfirst⟩) hname
  rw [resolveType_of_typeName hschema, hunknown]
  simp [inField, Component.failure, Failure.raise, Failure.settled, Failure.shown,
    ModelError.shown, ModelFault.shown]

/-- **Names agree where every key has its class.** -/
theorem NamesKeys.namesAgree
    (hfound : ∀ key ∈ keys, ∃ c ∈ classes, c.componentKey = key ∧
      scope.typeOfKey key = some c.type) : scope.NamesAgree keys classes := by
  have htypes : ∀ key ∈ keys, ∃ t, scope.typeOfKey key = some t := fun key hkey => by
    obtain ⟨c, -, -, ht⟩ := hfound key hkey
    exact ⟨_, ht⟩
  have hmem : ∀ {name}, name ∉ keys → Scalar.text name ∉ keys.map Scalar.text := by
    intro name hname htext
    obtain ⟨k, hk, heq⟩ := List.mem_map.1 htext
    exact hname (Scalar.text.inj heq ▸ hk)
  constructor
  case reference =>
    intro key hkey
    obtain ⟨c, hc, hck, ht⟩ := hfound key hkey
    exact ⟨c, hc, hck, fun _ _ _ href => hnames.resolveType_of_refersTo hkey ht href⟩
  case builtIn =>
    intro name hname className field schema hschema
    rw [resolveType_of_typeName hschema,
      hnames.typeOfName_eq_ok.2 ⟨.builtIn name, .builtIn hname, rfl⟩]
    rfl
  case key =>
    intro key hkey hforeign className field schema ref hschema href
    exact hnames.resolveType_of_named htypes (.key hforeign (List.mem_map_of_mem hkey)) hschema href
  case className =>
    intro key hkey hforeign hunknown
    obtain ⟨first, hfirst⟩ := Schema.exists_firstToMake hkey
    refine ⟨first, hfirst.mem, hfirst, fun before after hsplit hbefore => ?_,
      fun className field schema ref hschema href => ?_⟩
    · exact hfirst.unique ⟨rfl, before, after, hsplit, hbefore⟩
    · exact hnames.resolveType_of_named htypes
        (.className hforeign (hmem hunknown) (Schema.firstToMake_iff.1 hfirst)) hschema href
  case unknown =>
    intro name hforeign hkeys hmade className field schema hschema
    exact ⟨hnames.resolveType_of_unknown hforeign hkeys hmade hschema, rfl⟩

end Scope

/-! ## Models -/

namespace ClassModel

variable {home : Value} {registry : TypeRegistry} {accessibility : Accessibility} {m : ClassModel}

/-- The variables of a class have the types that their properties come to in a scope. -/
def TypedIn (scope : Scope) (entry : Scalar × Mapping) (c : ClassDef) : Prop :=
  entry.1 = .text c.componentKey ∧
    ∀ v ∈ c.instanceVariables, ∃ name property, v.name = .text name ∧
      Schema.property? entry.2 name = some property ∧
        scope.resolveType c.name (.text name) property = .ok v.type

lemma typedIn_of_realizes {scope : Scope} {keys : List Scalar} {entry : Scalar × Mapping}
    {c : Component Scalar} {d : ClassDef} (hdescribes : Component.Describes keys entry c)
    (h : scope.Realizes c d) : TypedIn scope entry d := by
  obtain ⟨ancestors, hrealizes⟩ := h
  have hassembled := hrealizes.assembled
  refine ⟨by rw [hdescribes.key, hassembled.componentKey], fun v hv => ?_⟩
  obtain ⟨⟨k, property⟩, hproperty, hvariable⟩ := forall₂_right hassembled.instanceVariables hv
  obtain ⟨hends, htype, -, hname, -⟩ := Scope.variableOf_eq_ok.1 hvariable
  obtain ⟨name, hk⟩ := hdescribes.textKeys.1 _ hproperty
  obtain rfl : k = .text name := hk
  refine ⟨name, property, hname, ?_, ?_⟩
  · rw [← hdescribes.property, hdescribes.textKeys.get?_of_mem hproperty]
  · rw [Scope.resolveType, hends, htype]
    rfl

/-- **Naming a component and referring to it agree in every model.**  In the scope that gives the
variables of a model their types, a type name comes to what a reference to one of the components
does, and otherwise it is built in or it is reported. -/
theorem namesAgree_of_ofDocument {doc : Document} (hdoc : doc.TextKeyed)
    (h : ofDocument doc home registry accessibility = .ok m) :
    ∃ schemas components keys, doc.schemas = .ok schemas ∧
      Entries.keys schemas = keys.map Scalar.text ∧ Lays home schemas components ∧
      List.Forall₂ (TypedIn (scopeOf registry accessibility schemas components))
        schemas m.classes ∧
      (scopeOf registry accessibility schemas components).NamesAgree keys m.classes := by
  obtain ⟨schemas, hschemas⟩ := exists_schemas h
  have htexts := Document.textKeys_schemas hdoc hschemas
  obtain ⟨components, hlays, hall⟩ := (ofDocument_passes hdoc hschemas).1 h
  have hblueprint := hlays.blueprint htexts fun _ hentry =>
    Document.textKeyed_of_mem_schemas hdoc hschemas hentry
  have hkeys : Entries.keys schemas = (components.map (·.key)).map Scalar.text := by
    rw [hblueprint.keys_eq, List.map_map]
    rfl
  have hnames := namesKeys_scopeOf registry accessibility components htexts
  rw [hkeys] at hnames
  refine ⟨schemas, components, components.map (·.key), hschemas, hkeys, hlays, ?_,
    hnames.namesAgree fun key hkey => ?_⟩
  · refine (forall₂_comp.1 ⟨components, hblueprint.described, hall⟩).imp ?_
    rintro entry d ⟨c, ⟨hdescribes, -⟩, hrealizes⟩
    exact typedIn_of_realizes hdescribes hrealizes
  · obtain ⟨c, hc, rfl⟩ := List.mem_map.1 hkey
    obtain ⟨d, hd, _, hrealizes⟩ := forall₂_left hall hc
    have hassembled := hrealizes.assembled
    refine ⟨d, hd, hassembled.componentKey, ?_⟩
    rw [Scope.typeOfKey, Lineage.find?_of_mem hblueprint.nodup_keys hc, hassembled.type_eq]
    rfl

/-- A kennel whose properties give type names.  One of them is built in although it is a key, one is
the name of a class in another spelling, one is that of two classes, one is a key that looks like a
reference, and one is a key although a class before it has this name. -/
def kennels : Entries Scalar Mapping := [
  (.text "kennel", [(.text "properties", .mapping [
    (.text "label", .mapping [(.text "type", .text "string")]),
    (.text "run", .mapping [(.text "type", .text "InOut")]),
    (.text "guard", .mapping [(.text "type", .text "Dog")]),
    (.text "guest", .mapping [(.text "type", .text "dog")]),
    (.text "stray", .mapping [(.text "type", .text "#/components/schemas/dog")]),
    (.text "mouser", .mapping [(.text "type", .text "Cat")])])]),
  (.text "string", []),
  (.text "in/out", []),
  (.text "dog_", [(.text "x-package", .text "Guards")]),
  (.text "dog", []),
  (.text "#/components/schemas/dog", []),
  (.text "cat", []),
  (.text "Cat", [(.text "x-package", .text "Mousers")])]

lemma exists_model_kennels :
    ∃ m, ofDocument (.ofSchemas kennels) (.text "App") {} .owner = .ok m ∧
      (m.classes.flatMap fun c => c.instanceVariables.map fun v =>
          (v.name.display, v.type.qualifiedName)) =
        [("label", "string"), ("run", "App.InOut"), ("guard", "Guards.Dog"), ("guest", "App.Dog"),
          ("stray", "App.ComponentsSchemasDog"), ("mouser", "Mousers.Cat")] :=
  exists_ok_of_toOption (by decide +kernel)

theorem namesAgree_of_kennels :
    (Document.ofSchemas kennels).TextKeyed ∧
    ∃ m, ofDocument (.ofSchemas kennels) (.text "App") {} .owner = .ok m ∧
      (m.classes.flatMap fun c => c.instanceVariables.map fun v =>
          (v.name.display, v.type.qualifiedName)) =
        [("label", "string"), ("run", "App.InOut"), ("guard", "Guards.Dog"), ("guest", "App.Dog"),
          ("stray", "App.ComponentsSchemasDog"), ("mouser", "Mousers.Cat")] ∧
      ∃ schemas components keys, (Document.ofSchemas kennels).schemas = .ok schemas ∧
        Entries.keys schemas = keys.map Scalar.text ∧ Lays (.text "App") schemas components ∧
        List.Forall₂ (TypedIn (scopeOf {} .owner schemas components)) schemas m.classes ∧
        (scopeOf {} .owner schemas components).NamesAgree keys m.classes := by
  have hkeyed : (Document.ofSchemas kennels).TextKeyed := by decide
  obtain ⟨m, hm, htypes⟩ := exists_model_kennels
  exact ⟨hkeyed, m, hm, htypes, namesAgree_of_ofDocument hkeyed hm⟩

end ClassModel

end SchemaClasses
