import SchemaClasses.Proofs.Inheritance
import SchemaClasses.Proofs.PropertyType

/-!
# The default package is only a name

A component that names no package of its own comes into the default package of the run.  Packages
tell classes apart and are copied into every type that mentions a class, so each step of evaluation
handles them; but the only question a step asks about two packages is whether they are the same.

`renamed old new` puts a new name in place of an old one, in components, types, classes and models.
Every pass commutes with it (`find?_map_renamed`, `climb_map_renamed`, `typeOf_renamed`,
`build_renamed`, up to `ofComponents_map_renamed`).  What remains is the pass that compares packages:
components in the default package stay apart from all others as long as no component names it, under
the old name or the new (`distinct_map_renamed`).  So the model in another default package is the
same model, renamed (`ofDocument_renamed`).
-/

namespace SchemaClasses

open Lineage (Components Line find? climb discriminator?)

/-! ## Renamed packages -/

section Definitions

variable (old new : String)

/-- A package with a new name in place of an old one. -/
def Scalar.renamed : Scalar → Scalar
  | .text s => .text (if s = old then new else s)
  | other => other

def TypeRef.renamed (t : TypeRef) : TypeRef := { t with package := t.package.renamed old new }

def InstanceVariable.renamed (v : InstanceVariable) : InstanceVariable :=
  { v with type := v.type.renamed old new }

def SubclassRef.renamed (s : SubclassRef) : SubclassRef := { s with type := s.type.renamed old new }

/-- A class with its package renamed, in itself, in its superclasses and in all types it mentions. -/
def ClassDef.renamed : ClassDef → ClassDef
  | ⟨name, package, none, fields, subclasses, discriminator, key⟩ =>
    ⟨name, package.renamed old new, none, fields.map (·.renamed old new),
      subclasses.map (·.renamed old new), discriminator, key⟩
  | ⟨name, package, some s, fields, subclasses, discriminator, key⟩ =>
    ⟨name, package.renamed old new, some s.renamed, fields.map (·.renamed old new),
      subclasses.map (·.renamed old new), discriminator, key⟩

def ClassModel.renamed (m : ClassModel) : ClassModel := ⟨m.classes.map (·.renamed old new)⟩

def Component.renamed (c : Component Scalar) : Component Scalar :=
  { c with package := c.package.renamed old new }

def Lineage.Line.renamed (line : Line) : Line :=
  ⟨line.component.renamed old new, line.ancestors.map (·.renamed old new)⟩

def Scope.renamed (scope : Scope) : Scope :=
  { scope with components := scope.components.map (·.renamed old new) }

end Definitions

variable {old new : String}

/-- A class is renamed by renaming all of its parts. -/
lemma ClassDef.renamed_eq (c : ClassDef) : c.renamed old new = {
    c with
    package := c.package.renamed old new
    superClass := c.superClass.map (·.renamed old new)
    instanceVariables := c.instanceVariables.map (·.renamed old new)
    subclasses := c.subclasses.map (·.renamed old new) } := by
  obtain ⟨name, package, superClass, fields, subclasses, discriminator, key⟩ := c
  cases superClass with
  | none => rw [ClassDef.renamed]; rfl
  | some s => rw [ClassDef.renamed]; rfl

/-- Two packages are the same after renaming exactly if they were before, as long as the new name is
not in use. -/
lemma Scalar.renamed_beq_renamed {p q : Scalar} (hp : p = .text old ∨ p ≠ .text new)
    (hq : q = .text old ∨ q ≠ .text new) :
    (p.renamed old new == q.renamed old new) = (p == q) := by
  rw [Bool.eq_iff_iff]
  cases p with
  | text s =>
      cases q with
      | text s' =>
          simp only [renamed, text_beq, Scalar.text.injEq, ne_eq] at hp hq ⊢
          split <;> split <;> grind
      | _ => simp [renamed]
  | _ =>
      cases q with
      | text s' => simp [renamed]
      | _ => rfl

/-! ## Lineages -/

namespace Lineage

variable {components : Components} {c : Component Scalar}

lemma find?_map_renamed (components : Components) (key : String) :
    find? (components.map (·.renamed old new)) key =
      (find? components key).map (·.renamed old new) := by
  rw [find?, List.find?_map]
  rfl

lemma climb_map_renamed (pool : Components) (start : Option String) :
    climb (pool.map (·.renamed old new)) start =
      ((climb pool start).1.map (·.renamed old new), (climb pool start).2) := by
  induction pool, start using climb.induct with
  | case1 pool => simp only [climb, List.map_nil]
  | case2 pool key hnone =>
      have hnone' : find? (pool.map (·.renamed old new)) key = none := by
        rw [find?_map_renamed, hnone, Option.map_none]
      rw [climb_of_find?_none hnone, climb_of_find?_none hnone', List.map_nil]
  | case3 pool key c hfound _ above closing hclimb ih =>
      have hfound' : find? (pool.map (·.renamed old new)) key = some (c.renamed old new) := by
        rw [find?_map_renamed, hfound, Option.map_some]
      have hrest : (pool.map (·.renamed old new)).eraseP (·.key == key) =
          (pool.eraseP (·.key == key)).map (·.renamed old new) := List.eraseP_map
      rw [climb_of_find?_some hfound, climb_of_find?_some hfound', hrest, List.map_cons]
      exact congrArg (fun r => (c.renamed old new :: r.1, r.2)) ih

/-- A component has the same lineage under the new name, or the same fault. -/
lemma of_map_renamed (components : Components) (c : Component Scalar) :
    of (components.map (·.renamed old new)) (c.renamed old new) =
      (of components c).map (·.renamed old new) := by
  have hkey : (c.renamed old new).key = c.key := rfl
  rw [of, of, hkey, climb_map_renamed]
  cases climb components (some c.key) with
  | mk chain closing =>
      cases closing with
      | none => simp only [Except.map, Line.renamed, List.map_drop]
      | some key =>
          have hclosing : (find? (components.map (·.renamed old new)) key).map (·.className) =
              (find? components key).map (·.className) := by
            rw [find?_map_renamed, Option.map_map]
            rfl
          have hchain : (chain.map (·.renamed old new)).map (·.className) =
              chain.map (·.className) := by
            rw [List.map_map]
            rfl
          simp only [hclosing, hchain]
          rfl

lemma discriminator?_map_renamed (chain : Components) :
    discriminator? (chain.map (·.renamed old new)) = discriminator? chain := by
  induction chain with
  | nil => rfl
  | cons c ancestors ih =>
      rw [List.map_cons, discriminator?, discriminator?, ih]
      rfl

lemma checkUnambiguous_map_renamed (chain : Components) :
    checkUnambiguous (chain.map (·.renamed old new)) = checkUnambiguous chain := by
  induction chain with
  | nil => rfl
  | cons c ancestors ih =>
      have hcompeting : competing (c.renamed old new) (ancestors.map (·.renamed old new)) =
          competing c ancestors := by
        rw [competing, competing, discriminator?_map_renamed]
        rfl
      rw [List.map_cons, checkUnambiguous, checkUnambiguous, ih, hcompeting]
      rfl

lemma checkBase_renamed (line : Line) : checkBase (line.renamed old new) = checkBase line := by
  obtain ⟨c, ancestors⟩ := line
  cases ancestors with
  | nil => rfl
  | cons base rest =>
      have hbase : discriminator? (base.renamed old new :: rest.map (·.renamed old new)) =
          discriminator? (base :: rest) := discriminator?_map_renamed (base :: rest)
      simp only [checkBase, Line.renamed, List.map_cons, hbase]
      rfl

end Lineage

/-! ## Classes -/

namespace Scope

variable {scope : Scope}

lemma typeOfKey_renamed (scope : Scope) (key : String) :
    (scope.renamed old new).typeOfKey key = (scope.typeOfKey key).map (·.renamed old new) := by
  rw [typeOfKey, typeOfKey, Option.map_map]
  show (find? (scope.components.map (·.renamed old new)) key).map Component.type = _
  rw [Lineage.find?_map_renamed, Option.map_map]
  rfl

/-- A built-in type is in no package, so it is left alone. -/
lemma typeOfName_renamed (hold : old ≠ "") (name : String) :
    (scope.renamed old new).typeOfName name =
      (scope.typeOfName name).map (·.renamed old new) := by
  have hbuiltIn : ({ name := name, isBuiltIn := true } : TypeRef).renamed old new =
      { name := name, isBuiltIn := true } := by
    simp [TypeRef.renamed, Scalar.renamed, Ne.symm hold]
  have hregistry : (scope.renamed old new).registry = scope.registry := rfl
  have hnames : (scope.renamed old new).classNames = scope.classNames := rfl
  rw [typeOfName, typeOfName, hregistry, hnames]
  cases scope.registry.isBuiltIn name with
  | true => simp [Except.map, hbuiltIn]
  | false =>
      cases Reference.findByName scope.classNames name with
      | none => simp [Except.map]
      | some key =>
          simp only [Bool.false_eq_true, if_false, Option.bind_some, typeOfKey_renamed]
          cases scope.typeOfKey key.display with
          | none => rfl
          | some t => rfl

lemma typeOfReference_renamed (scope : Scope) (ref : Value) :
    (scope.renamed old new).typeOfReference ref =
      (scope.typeOfReference ref).map (·.renamed old new) := by
  have hnames : (scope.renamed old new).classNames = scope.classNames := rfl
  rw [typeOfReference, typeOfReference, hnames]
  cases Reference.resolve (scope.classNames.map (·.1)) ref with
  | error fault => rfl
  | ok key =>
      simp only [typeOfKey_renamed]
      cases scope.typeOfKey key with
      | none => rfl
      | some t => rfl

/-- Without a reference and a combinator, the type name decides. -/
lemma typeOf_renamed_of_plain (hold : old ≠ "") {schema : Mapping}
    (hfree : Mapping.field? schema "$ref" = none)
    (hplain : firstCombinator schema combinators = none) :
    (scope.renamed old new).typeOf schema = (scope.typeOf schema).map (·.renamed old new) := by
  rw [typeOf_eq_of_plain hfree hplain, typeOf_eq_of_plain hfree hplain]
  cases Mapping.field? schema "type" with
  | none => rfl
  | some v =>
      cases htext : v.text? with
      | none => simp [htext, Except.map]
      | some name => simpa [htext] using typeOfName_renamed hold name

/-- **A property has the same type under the new name**, however its schema spells it. -/
lemma typeOf_renamed (hold : old ≠ "") (schema : Mapping) :
    (scope.renamed old new).typeOf schema = (scope.typeOf schema).map (·.renamed old new) := by
  induction schema using typeOf.induct with
  | case1 schema ref href =>
      rw [typeOf_of_reference href, typeOf_of_reference href, typeOfReference_renamed]
  | case2 schema hfree name inner ring outer hgiven _ ih =>
      rw [typeOf_of_wrapped hfree hgiven, typeOf_of_wrapped hfree hgiven, ih]
  | case3 schema hfree name v hother hgiven =>
      rw [typeOf_of_several hfree hgiven hother, typeOf_of_several hfree hgiven hother]
      rfl
  | case4 schema hfree hplain hnone => exact typeOf_renamed_of_plain hold hfree hplain
  | case5 schema hfree hplain v hv name hname => exact typeOf_renamed_of_plain hold hfree hplain
  | case6 schema hfree hplain v hv hnone => exact typeOf_renamed_of_plain hold hfree hplain

lemma variableOf_renamed (hold : old ≠ "") (className : String) (discriminator : Option Scalar)
    (property : Scalar × Mapping) :
    (scope.renamed old new).variableOf className discriminator property =
      (scope.variableOf className discriminator property).map (·.renamed old new) := by
  obtain ⟨name, schema⟩ := property
  have haccessibility : (scope.renamed old new).accessibilityOf schema =
      scope.accessibilityOf schema := rfl
  rw [variableOf, variableOf]
  simp only [typeOf_renamed hold, haccessibility]
  cases wrapsEndlessly [] schema with
  | true => rfl
  | false =>
      cases scope.typeOf schema with
      | error fault => rfl
      | ok t =>
          cases scope.accessibilityOf schema with
          | error fault => rfl
          | ok a => rfl

lemma linkSubclasses_renamed (className : String) (discriminator : Option Scalar)
    (linked : List SubclassRef) (children : Components) :
    linkSubclasses className discriminator (linked.map (·.renamed old new))
        (children.map (·.renamed old new)) =
      (linkSubclasses className discriminator linked children).map
        (List.map (·.renamed old new)) := by
  induction children generalizing linked with
  | nil => rfl
  | cons child rest ih =>
      have hvalue : selectingValue (child.renamed old new) discriminator =
          selectingValue child discriminator := rfl
      rw [List.map_cons, linkSubclasses, linkSubclasses, hvalue]
      cases selectingValue child discriminator with
      | error e => rfl
      | ok value =>
          have hfirst : (linked.map (·.renamed old new)).find? (·.value == value) =
              (linked.find? (·.value == value)).map (·.renamed old new) := by
            rw [List.find?_map]
            rfl
          have happend (ref : SubclassRef) : linked.map (·.renamed old new) ++
              [ref.renamed old new] = (linked ++ [ref]).map (·.renamed old new) := by simp
          have hrest := ih (linked ++ [⟨value, child.type⟩])
          rw [← happend] at hrest
          simp only [bind, Except.bind, hfirst]
          cases linked.find? (·.value == value) with
          | some first => rfl
          | none => exact hrest

lemma subclassesOf_renamed (c : Component Scalar) (discriminator : Option Scalar) :
    (scope.renamed old new).subclassesOf (c.renamed old new) discriminator =
      (scope.subclassesOf c discriminator).map (List.map (·.renamed old new)) := by
  have hchildren : (scope.renamed old new).components.filter
        (·.base == some (c.renamed old new).key) =
      (scope.components.filter (·.base == some c.key)).map (·.renamed old new) := by
    rw [renamed, List.filter_map]
    rfl
  rw [subclassesOf, subclassesOf, hchildren]
  exact linkSubclasses_renamed c.className discriminator [] _

lemma assemble_renamed (hold : old ≠ "") (c : Component Scalar) (ancestors : Components)
    (superClass : Option ClassDef) :
    (scope.renamed old new).assemble (c.renamed old new) (ancestors.map (·.renamed old new))
        (superClass.map (·.renamed old new)) =
      (scope.assemble c ancestors superClass).map (·.renamed old new) := by
  have hdiscriminator : discriminator? (c.renamed old new ::
      ancestors.map (·.renamed old new)) = discriminator? (c :: ancestors) := by
    rw [← List.map_cons]
    exact Lineage.discriminator?_map_renamed _
  have hclassName : (c.renamed old new).className = c.className := rfl
  have hproperties : (c.renamed old new).properties = c.properties := rfl
  rw [assemble, assemble, hdiscriminator, subclassesOf_renamed, hclassName, hproperties,
    funext (variableOf_renamed hold c.className (discriminator? (c :: ancestors))), traverse_of_map]
  cases traverse (scope.variableOf c.className (discriminator? (c :: ancestors))) c.properties with
  | error e => rfl
  | ok fields =>
      cases scope.subclassesOf c (discriminator? (c :: ancestors)) with
      | error e => rfl
      | ok subclasses =>
          change Except.ok _ = Except.ok (ClassDef.renamed old new _)
          rw [ClassDef.renamed_eq]
          rfl

/-- **A class is built under the new name as under the old one**, superclass and all. -/
lemma build_renamed (hold : old ≠ "") (c : Component Scalar) (ancestors : Components) :
    (scope.renamed old new).build (c.renamed old new) (ancestors.map (·.renamed old new)) =
      (scope.build c ancestors).map (·.renamed old new) := by
  induction ancestors generalizing c with
  | nil => exact assemble_renamed hold c [] none
  | cons base rest ih =>
      rw [List.map_cons, build, build, ih]
      cases scope.build base rest with
      | error e => rfl
      | ok superClass => exact assemble_renamed hold c (base :: rest) (some superClass)

end Scope

/-! ## Models -/

namespace ClassModel

variable {registry : TypeRegistry} {accessibility : Accessibility} {doc : Document}
  {schemas : Entries Scalar Mapping} {components : Components}

/-- **Renamed components have the renamed model**, or the same fault. -/
lemma ofComponents_map_renamed (hold : old ≠ "") (classNames : List (Scalar × String))
    (components : Components) :
    ofComponents registry accessibility classNames (components.map (·.renamed old new)) =
      (ofComponents registry accessibility classNames components).map (·.renamed old new) := by
  have hunambiguous (line : Line) : Lineage.checkUnambiguous
        ((line.renamed old new).component :: (line.renamed old new).ancestors) =
      Lineage.checkUnambiguous (line.component :: line.ancestors) :=
    Lineage.checkUnambiguous_map_renamed (line.component :: line.ancestors)
  have hbuild (line : Line) : Scope.build
        ⟨registry, components.map (·.renamed old new), classNames, accessibility⟩
        (line.renamed old new).component (line.renamed old new).ancestors =
      (Scope.build ⟨registry, components, classNames, accessibility⟩ line.component
        line.ancestors).map (·.renamed old new) :=
    @Scope.build_renamed old new ⟨registry, components, classNames, accessibility⟩ hold
      line.component line.ancestors
  simp only [ofComponents, traverse_map, Lineage.of_map_renamed, traverse_of_map, map_bind,
    hunambiguous, Lineage.checkBase_renamed, hbuild, bind_map]
  rfl

end ClassModel

/-! ## The default package -/

lemma Scalar.renamed_of_ne {p : Scalar} (h : p ≠ .text old) : p.renamed old new = p := by
  cases p with
  | text s => rw [renamed, if_neg (mt (congrArg Scalar.text) h)]
  | _ => rfl

/-- A component gives its package itself, or is in the default package, whatever that is. -/
lemma Schema.package_given_or (schema : Mapping) :
    (∃ v, Mapping.field? schema "x-package" = some v ∧ ∀ home, package home schema = v) ∨
      ∀ home, package home schema = home := by
  by_cases htruthy : (Mapping.field schema "x-package").truthy = true
  · refine Or.inl ⟨Mapping.field schema "x-package", ?_, fun home => if_pos htruthy⟩
    cases hfield : Mapping.field? schema "x-package" with
    | none => simp [Mapping.field, hfield, Value.truthy, Scalar.truthy] at htruthy
    | some v => rw [Mapping.field_of_field? hfield]
  · exact Or.inr fun home => if_neg htruthy

variable {schemas : Entries Scalar Mapping}

/-- A component that gives neither name as its package. -/
def Schema.Avoids (old new : String) (schema : Mapping) : Prop :=
  Mapping.field? schema "x-package" ≠ some (.text old) ∧
    Mapping.field? schema "x-package" ≠ some (.text new)

namespace Component

variable {keys : List Scalar} {entry : Scalar × Mapping} {c : Component Scalar}

/-- A component made under one default package is made under another, and renamed. -/
lemma MadeFrom.renamed (havoids : Schema.Avoids old new entry.2)
    (h : MadeFrom (.text old) keys entry c) :
    MadeFrom (.text new) keys entry (c.renamed old new) := by
  obtain ⟨key, schema⟩ := entry
  obtain ⟨d, hd, hpackage, hc⟩ := h
  obtain ⟨k, composition, gathered, rfl, hne, hcomposition, hgathered, hdeclared, rfl⟩ :=
    describe_eq_ok.1 hd
  refine ⟨_, describe_eq_ok.2 ⟨k, composition, gathered, rfl, hne, hcomposition, hgathered,
    hdeclared, rfl⟩, ?_, by rw [hc]; rfl⟩
  change Schema.package (.text old) schema = .scalar c.package at hpackage
  change Schema.package (.text new) schema = .scalar (c.package.renamed old new)
  rcases Schema.package_given_or schema with ⟨v, hgiven, hv⟩ | hhome
  · rw [hv] at hpackage ⊢
    rw [hpackage] at hgiven
    have hother : c.package ≠ .text old := fun hsame => havoids.1 (by rw [hgiven, hsame])
    rw [hpackage, Scalar.renamed_of_ne hother]
  · rw [hhome, Value.scalar.injEq] at hpackage
    rw [hhome, ← hpackage, Scalar.renamed, if_pos rfl]

/-- No component is in the new package before the renaming, unless it is the old one. -/
lemma MadeFrom.package_ne (havoids : Schema.Avoids old new entry.2)
    (h : MadeFrom (.text old) keys entry c) :
    c.package = .text old ∨ c.package ≠ .text new := by
  obtain ⟨key, schema⟩ := entry
  obtain ⟨d, hd, hpackage, -⟩ := h
  obtain ⟨k, composition, gathered, -, -, -, -, -, rfl⟩ := describe_eq_ok.1 hd
  change Schema.package (.text old) schema = .scalar c.package at hpackage
  rcases Schema.package_given_or schema with ⟨v, hgiven, hv⟩ | hhome
  · rw [hv] at hpackage
    exact Or.inr fun hsame => havoids.2 (by rw [hgiven, hpackage, hsame])
  · rw [hhome, Value.scalar.injEq] at hpackage
    exact Or.inl hpackage.symm

lemma distinct_map_renamed {components : Components}
    (hpackages : ∀ c ∈ components, c.package = .text old ∨ c.package ≠ .text new)
    (h : Distinct components) : Distinct (components.map (·.renamed old new)) := by
  rw [Distinct, List.pairwise_map]
  refine h.imp_of_mem fun {c d} hc hd hdiffer => ?_
  rw [sameClass] at hdiffer ⊢
  rw [← hdiffer, ← Scalar.renamed_beq_renamed (hpackages c hc) (hpackages d hd)]
  rfl

end Component

namespace ClassModel

variable {doc : Document} {registry : TypeRegistry} {accessibility : Accessibility}
  {components : Components} {m : ClassModel}

lemma Lays.renamed (havoids : ∀ entry ∈ schemas, Schema.Avoids old new entry.2)
    (h : Lays (.text old) schemas components) :
    Lays (.text new) schemas (components.map (·.renamed old new)) := by
  obtain ⟨hmade, hdistinct⟩ := lays_iff.1 h
  have hboth := (List.forall₂_and_left _ _).2 ⟨havoids, hmade⟩
  refine lays_iff.2 ⟨?_, Component.distinct_map_renamed (fun c hc => ?_) hdistinct⟩
  · rw [List.forall₂_map_right_iff]
    exact hboth.imp fun entry c hc => hc.2.renamed hc.1
  · obtain ⟨entry, -, hentry, hc⟩ := forall₂_right hboth hc
    exact hc.package_ne hentry

lemma ofDocument_renamed_of_ok (hold : old ≠ "")
    (havoids : ∀ schemas, doc.schemas = .ok schemas →
      ∀ entry ∈ schemas, Schema.Avoids old new entry.2)
    (h : ofDocument doc (.text old) registry accessibility = .ok m) :
    ofDocument doc (.text new) registry accessibility = .ok (m.renamed old new) := by
  rw [ofDocument] at h ⊢
  simp only [bind_eq_ok] at h ⊢
  obtain ⟨schemas, hschemas, classNames, hnames, described, hdescribed, components, hsettled, h⟩ := h
  obtain ⟨described', hdescribed', hsettled'⟩ :=
    Lays.renamed (havoids schemas hschemas) ⟨described, hdescribed, hsettled⟩
  refine ⟨schemas, hschemas, classNames, hnames, described', hdescribed', _, hsettled', ?_⟩
  rw [ofComponents_map_renamed hold, h]
  rfl

/-- **The default package is only a name.**  If no component gives the one or the other as its own
package, then a document has a model in the one exactly if it has one in the other, and this is the
same model with the package renamed, wherever it stands. -/
theorem ofDocument_renamed (hold : old ≠ "") (hnew : new ≠ "")
    (havoids : ∀ schemas, doc.schemas = .ok schemas → ∀ entry ∈ schemas,
      ∀ v, Mapping.field? entry.2 "x-package" = some v → v ≠ .text old ∧ v ≠ .text new) :
    ((∃ m, ofDocument doc (.text old) registry accessibility = .ok m) ↔
      ∃ m, ofDocument doc (.text new) registry accessibility = .ok m) ∧
    ∀ m, ofDocument doc (.text old) registry accessibility = .ok m →
      ofDocument doc (.text new) registry accessibility = .ok (m.renamed old new) := by
  have hforth : ∀ schemas, doc.schemas = .ok schemas →
      ∀ entry ∈ schemas, Schema.Avoids old new entry.2 := fun schemas hschemas entry hentry =>
    ⟨fun h => (havoids schemas hschemas entry hentry _ h).1 rfl,
      fun h => (havoids schemas hschemas entry hentry _ h).2 rfl⟩
  have hback : ∀ schemas, doc.schemas = .ok schemas →
      ∀ entry ∈ schemas, Schema.Avoids new old entry.2 := fun schemas hschemas entry hentry =>
    (hforth schemas hschemas entry hentry).symm
  refine ⟨⟨?_, ?_⟩, fun m h => ofDocument_renamed_of_ok hold hforth h⟩
  · rintro ⟨m, h⟩
    exact ⟨_, ofDocument_renamed_of_ok hold hforth h⟩
  · rintro ⟨m, h⟩
    exact ⟨_, ofDocument_renamed_of_ok hnew hback h⟩

/-- The puppy and the dog move to another package, while the animal stays in its zoo. -/
theorem ofDocument_puppies_renamed :
    "App" ≠ "" ∧ "Store" ≠ "" ∧
    (∀ schemas, (Document.ofSchemas puppies).schemas = .ok schemas → ∀ entry ∈ schemas,
      ∀ v, Mapping.field? entry.2 "x-package" = some v → v ≠ .text "App" ∧ v ≠ .text "Store") ∧
    ∃ m, ofDocument (.ofSchemas puppies) (.text "App") {} .owner = .ok m ∧
      m.classes.map (·.name) = ["Puppy", "Dog", "Animal"] ∧
      ofDocument (.ofSchemas puppies) (.text "Store") {} .owner = .ok (m.renamed "App" "Store") := by
  have havoids : ∀ schemas, (Document.ofSchemas puppies).schemas = .ok schemas →
      ∀ entry ∈ schemas, ∀ v, Mapping.field? entry.2 "x-package" = some v →
        v ≠ .text "App" ∧ v ≠ .text "Store" := by
    intro schemas hschemas entry hentry v hv
    rw [Document.schemas_ofSchemas, Except.ok.injEq] at hschemas
    subst hschemas
    simp only [puppies, List.mem_cons, List.not_mem_nil, or_false] at hentry
    obtain rfl | rfl | rfl := hentry
    · simp [Mapping.field?, Entries.get?] at hv
    · simp [Mapping.field?, Entries.get?] at hv
    · obtain rfl : Value.text "Zoo" = v := Option.some.inj hv
      simp
  obtain ⟨m, hm, hnames⟩ := exists_model_puppies
  exact ⟨by simp, by simp, havoids, m, hm, hnames,
    (ofDocument_renamed (by simp) (by simp) havoids).2 m hm⟩

end ClassModel

end SchemaClasses
