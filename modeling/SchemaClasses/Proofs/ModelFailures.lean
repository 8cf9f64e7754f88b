import SchemaClasses.Proofs.Causes
import SchemaClasses.Proofs.Evaluation
import SchemaClasses.Proofs.PropertyType

/-!
# Why a document has no model

A value that is no model fails at one of the passes of `ClassModel.ofDocument`, or before them where
the document is read.  This file goes through the passes once more, and asks of each what it can
fail with:

* lineages, bases and subclasses are at fault with the name of their class,
* variables are at fault with the name of their class and their own name, and what is shown of them
  is inside their schema,
* packages are settled unless one of them is a collection, and this is the one failure that does not
  say where it was found.

`Blueprint.within` brings what one pass knows about components to the next: their properties are
inside the document still, whichever fragment they come from.  All this is about documents without
rings, where schemas that wrap each other come to an end.
-/

namespace SchemaClasses

open Lineage (Components discriminator? TextDiscriminators)
open Value (failsOnly_failure covers_text)

variable {v : Value}

/-- No mapping inside the value has a ring number. -/
def Value.Ringless (v : Value) : Prop := ∀ m ring, v.Part (.mapping m ring) → ring = none

lemma Value.Regular.ringless (h : v.Regular) : v.Ringless :=
  fun _ _ hpart => (hpart.regular h).ring_eq_none

/-! ## Components inside a document -/

lemma Schema.holds_of_property? {schema p : Mapping} {name : String} (h : v.Holds schema)
    (hp : property? schema name = some p) : v.Holds p := by
  obtain ⟨fragment, hfragment, hdeclared⟩ := List.exists_of_findSome?_eq_some hp
  have hheld := Component.holds_of_mem_fragments h (List.mem_reverse.1 hfragment)
  rw [propertyIn?] at hdeclared
  split at hdeclared
  · rename_i entries ring hproperties
    obtain ⟨w, hw, hmapping⟩ := Option.bind_eq_some_iff.1 hdeclared
    obtain ⟨pring, rfl⟩ := Value.mapping?_eq_some.1 hmapping
    exact ((hheld.field? hproperties).holds.field? hw).holds
  · cases hdeclared

/-- The component has text names, and the schemas of its properties are inside the value. -/
structure Component.Within (v : Value) (c : Component Scalar) : Prop where
  properties : ∀ e ∈ c.properties, (∃ s, e.1 = .text s) ∧ v.Holds e.2
  discriminators : ∀ n ∈ c.discriminators, ∃ s, n = .text s

lemma Blueprint.within {home : Value} {schemas : Entries Scalar Mapping} {components : Components}
    (h : Blueprint home schemas components) (hheld : ∀ entry ∈ schemas, v.Holds entry.2) :
    ∀ c ∈ components, c.Within v := by
  intro c hc
  obtain ⟨entry, hentry, hdescribes, -⟩ := forall₂_right h.described hc
  refine ⟨fun e he => ?_, h.textDiscriminators c hc⟩
  obtain ⟨name, p⟩ := e
  obtain ⟨s, rfl⟩ : ∃ s, name = .text s := hdescribes.textKeys.1 _ he
  have hp : Schema.property? entry.2 s = some p := by
    rw [← hdescribes.property]
    exact hdescribes.textKeys.get?_of_mem he
  exact ⟨⟨s, rfl⟩, Schema.holds_of_property? (hheld entry hentry) hp⟩

/-! ## Packages -/

/-- Packages are settled unless one of them is a list or a mapping, or a class is made twice. -/
lemma Component.failsOnly_settlePackages (settled : Components) {cs : List (Component Value)}
    (h : ∀ c ∈ cs, v.Covers c.package) :
    FailsOnly (fun f => v.Causes f ∨ ∃ c ∈ cs, c.package.scalar? = none ∧
      f = .misplaced c.package) (settlePackages settled cs) := by
  induction cs generalizing settled with
  | nil => exact .ok settled
  | cons c rest ih =>
      obtain ⟨hc, hrest⟩ := List.forall_mem_cons.1 h
      rw [settlePackages]
      split
      · rename_i hnone
        exact .throw (Or.inr ⟨c, List.mem_cons_self, hnone, rfl⟩)
      · rename_i package hpackage
        have hcovered : v.Covers (.scalar package) := by
          cases hvalue : c.package with
          | scalar s =>
              rw [hvalue] at hpackage hc
              rwa [← Option.some.inj hpackage]
          | list items ring => simp [hvalue, Value.scalar?] at hpackage
          | mapping m ring => simp [hvalue, Value.scalar?] at hpackage
        split
        · rename_i first _
          have hduplicate : ∀ w ∈ (ModelFault.duplicate first.key c.key package).shown,
              v.Covers w := List.forall_mem_singleton.2 hcovered
          exact (failsOnly_failure hduplicate (by simp)).mono fun _ => Or.inl
        · refine (ih _ hrest).mono fun f hf => hf.imp_right ?_
          rintro ⟨d, hd, hnone, rfl⟩
          exact ⟨d, List.mem_cons_of_mem _ hd, hnone, rfl⟩

/-! ## Lineages -/

namespace Lineage

lemma failsOnly_of (components : Components) (c : Component Scalar) :
    FailsOnly v.Causes (of components c) := by
  rw [of]
  split
  · exact .ok _
  · exact failsOnly_failure (List.forall_mem_nil _) (by simp)

lemma failsOnly_checkUnambiguous {chain : Components} (h : TextDiscriminators chain) :
    FailsOnly v.Causes (checkUnambiguous chain) := by
  induction chain with
  | nil => exact .ok ()
  | cons c rest ih =>
      rw [checkUnambiguous]
      refine .bind (ih fun d hd => h d (List.mem_cons_of_mem _ hd)) fun _ => ?_
      dsimp only
      split
      · obtain ⟨texts, htexts⟩ := exists_texts (exists_text_of_mem_competing h)
        rw [htexts, textNames_map_text]
        exact .bind (.ok texts) fun _ => failsOnly_failure (List.forall_mem_nil _) (by simp)
      · exact .ok _

lemma failsOnly_checkBase (line : Line) : FailsOnly v.Causes (checkBase line) := by
  rw [checkBase]
  split
  · exact .ok ()
  · split
    · exact .ok ()
    · exact failsOnly_failure (List.forall_mem_nil _) (by simp)

end Lineage

/-! ## Variables -/

namespace Scope

variable {scope : Scope} {schema : Mapping}

lemma part_of_firstCombinator {names : List String} {name : String} {w : Value}
    (h : v.Holds schema) (hw : firstCombinator schema names = some (name, w)) : v.Part w := by
  induction names with
  | nil => cases hw
  | cons n rest ih =>
      rw [firstCombinator] at hw
      split at hw
      · rename_i u hu
        split at hw
        · exact ih hw
        · obtain ⟨-, rfl⟩ := Prod.mk.inj (Option.some.inj hw)
          exact h.field? hu
      · exact ih hw

lemma holds_of_wrapped {name : String} {inner : Mapping} {ring outer : Option Nat}
    (h : v.Holds schema)
    (hgiven : firstCombinator schema combinators = some (name, .list [.mapping inner ring] outer)) :
    v.Part (.mapping inner ring) :=
  (part_of_firstCombinator h hgiven).item List.mem_cons_self

/-- Without rings, schemas that wrap each other come to an end. -/
lemma wrapsEndlessly_of_ringless (hrings : v.Ringless) (met : List Nat) (h : v.Holds schema) :
    wrapsEndlessly met schema = false := by
  induction met, schema using wrapsEndlessly.induct with
  | case1 met schema ref href => rw [wrapsEndlessly, href]
  | case2 met schema hfree name inner ring outer hgiven _ ih =>
      have hinner := holds_of_wrapped h hgiven
      obtain rfl := hrings inner ring hinner
      rw [wrapsEndlessly_of_wrapped hfree hgiven, ih hinner.holds]
      rfl
  | case3 met schema hfree hother => exact wrapsEndlessly_of_other fun _ _ _ _ => hother _ _ _ _

lemma covers_of_typeOfReference (h : v.Holds schema) {ref w : Value} {fault : ModelFault}
    (href : Mapping.field? schema "$ref" = some ref)
    (hfault : scope.typeOfReference ref = .error fault) (hw : w ∈ fault.shown) : v.Covers w := by
  rw [typeOfReference] at hfault
  split at hfault
  · rename_i hresolve
    obtain rfl := Except.error.inj hfault
    rw [Reference.shown_of_resolve hresolve hw]
    exact (h.field? href).covers
  · split at hfault
    · cases hfault
    · obtain rfl := Except.error.inj hfault
      cases hw

/-- What is shown of a property without a type is inside its schema. -/
lemma covers_of_typeOf (h : v.Holds schema) {w : Value} {fault : ModelFault}
    (hfault : scope.typeOf schema = .error fault) (hw : w ∈ fault.shown) : v.Covers w := by
  have huntyped := untyped_of_typeOf hfault
  clear hfault
  induction huntyped with
  | reference given unresolved => exact covers_of_typeOfReference h given unresolved hw
  | wrapped given _ ih => exact ih (holds_of_wrapped h given).holds hw
  | several given => cases hw
  | missing absent => cases hw
  | unnamed given =>
      rw [List.mem_singleton.1 hw]
      exact (h.field? given).covers
  | unknown given => cases hw

lemma covers_of_accessibilityOf (h : v.Holds schema) {w : Value} {fault : ModelFault}
    (hfault : scope.accessibilityOf schema = .error fault) (hw : w ∈ fault.shown) :
    v.Covers w := by
  rw [accessibilityOf] at hfault
  split at hfault
  · cases hfault
  · rename_i u hu
    split at hfault
    · cases hfault
    · obtain rfl := Except.error.inj hfault
      rw [List.mem_singleton.1 hw]
      exact (h.field? hu).covers

lemma failsOnly_inField {α : Type} (className name : String) {x : Except ModelFault α}
    (h : ∀ fault, x = .error fault → ∀ w ∈ fault.shown, v.Covers w) :
    FailsOnly v.Causes (inField className (.text name) x) := by
  cases x with
  | ok a => exact .ok a
  | error fault => exact failsOnly_failure (h fault rfl) (by simp)

lemma failsOnly_variableOf (hrings : v.Ringless) (className : String)
    (discriminator : Option Scalar) {property : Scalar × Mapping}
    (hname : ∃ s, property.1 = .text s) (h : v.Holds property.2) :
    FailsOnly v.Causes (scope.variableOf className discriminator property) := by
  obtain ⟨name, schema⟩ := property
  obtain ⟨s, rfl⟩ := hname
  rw [variableOf]
  dsimp only
  rw [if_neg (by rw [wrapsEndlessly_of_ringless hrings [] h]; exact Bool.false_ne_true)]
  exact .bind (failsOnly_inField className s fun _ hfault _ => covers_of_typeOf h hfault) fun _ =>
    .bind (failsOnly_inField className s fun _ hfault _ => covers_of_accessibilityOf h hfault)
      fun _ => .ok _

/-! ## Subclasses -/

lemma failsOnly_selectingValue {child : Component Scalar} (h : child.Within v)
    (discriminator : Option Scalar) : FailsOnly v.Causes (selectingValue child discriminator) := by
  have hschema : ∀ name w,
      Mapping.field? ((Entries.get? child.properties (discriminator.getD .null)).getD []) name =
        some w → v.Part w := by
    intro name w hw
    cases hget : Entries.get? child.properties (discriminator.getD .null) with
    | none =>
        rw [hget] at hw
        cases hw
    | some p =>
        rw [hget, Option.getD_some] at hw
        rw [Entries.get?, Option.map_eq_some_iff] at hget
        obtain ⟨e, he, rfl⟩ := hget
        exact (h.properties e (List.mem_of_find?_eq_some he)).2.field? hw
  rw [selectingValue]
  split
  · rename_i w hconst
    exact Value.failsOnly_shown (hschema _ _ hconst).covers
  · split
    · rename_i w ring henum
      exact Value.failsOnly_shown ((hschema _ _ henum).item List.mem_cons_self).covers
    · exact .ok _

lemma failsOnly_linkSubclasses (className : String) {discriminator : Option Scalar}
    (hdiscriminator : ∀ n ∈ discriminator, ∃ s, n = .text s) (linked : List SubclassRef)
    {children : Components} (h : ∀ child ∈ children, child.Within v) :
    FailsOnly v.Causes (linkSubclasses className discriminator linked children) := by
  induction children generalizing linked with
  | nil => exact .ok linked
  | cons child rest ih =>
      obtain ⟨hchild, hrest⟩ := List.forall_mem_cons.1 h
      rw [linkSubclasses]
      refine .bind (failsOnly_selectingValue hchild discriminator) fun value => ?_
      split
      · exact failsOnly_failure (List.forall_mem_nil _) hdiscriminator
      · exact ih _ hrest

/-! ## Classes -/

lemma text_of_discriminator? {chain : Components} (h : ∀ c ∈ chain, c.Within v) :
    ∀ n ∈ discriminator? chain, ∃ s, n = .text s := by
  intro n hn
  obtain ⟨c, hc, hmem⟩ := Lineage.mem_of_discriminator? hn
  exact (h c hc).discriminators n hmem

lemma failsOnly_assemble (hrings : v.Ringless) (hscope : ∀ c ∈ scope.components, c.Within v)
    {c : Component Scalar} {ancestors : Components} (h : ∀ d ∈ c :: ancestors, d.Within v)
    (superClass : Option ClassDef) :
    FailsOnly v.Causes (scope.assemble c ancestors superClass) := by
  have hc := h c List.mem_cons_self
  refine .bind (.traverse_of_mem fun property hproperty => ?_) fun _ =>
    .bind (failsOnly_linkSubclasses _ (text_of_discriminator? h) _ fun child hchild => ?_)
      fun _ => .ok _
  · obtain ⟨hname, hheld⟩ := hc.properties property hproperty
    exact failsOnly_variableOf hrings _ _ hname hheld
  · exact hscope child (List.mem_filter.1 hchild).1

lemma failsOnly_build (hrings : v.Ringless) (hscope : ∀ c ∈ scope.components, c.Within v)
    {c : Component Scalar} {ancestors : Components} (h : ∀ d ∈ c :: ancestors, d.Within v) :
    FailsOnly v.Causes (scope.build c ancestors) := by
  induction ancestors generalizing c with
  | nil => exact failsOnly_assemble hrings hscope h none
  | cons base rest ih =>
      rw [build]
      split
      · rename_i f hf
        exact .throw (ih (fun d hd => h d (List.mem_cons_of_mem _ hd)) f hf)
      · exact failsOnly_assemble hrings hscope h _

end Scope

/-! ## Models -/

namespace ClassModel

variable {home : Value} {schemas : Entries Scalar Mapping} {components : Components}
  {registry : TypeRegistry} {accessibility : Accessibility}

lemma failsOnly_ofComponents (hrings : v.Ringless) (hblueprint : Blueprint home schemas components)
    (hheld : ∀ entry ∈ schemas, v.Holds entry.2) (classNames : List (Scalar × String)) :
    FailsOnly v.Causes (ofComponents registry accessibility classNames components) := by
  have hwithin := hblueprint.within hheld
  refine .bind_of_ok (.traverse (Lineage.failsOnly_of components)) fun lines hlines => ?_
  have hline : ∀ line ∈ lines, ∀ d ∈ line.component :: line.ancestors, d.Within v := by
    intro line hmem d hd
    obtain ⟨c, hc, hof⟩ := forall₂_right (traverse_eq_ok_iff.1 hlines) hmem
    obtain ⟨rfl, hchain⟩ := (Lineage.of_eq_ok hblueprint.nodup_keys hc).1 hof
    exact hwithin d (Lineage.mem_of_find? (hchain.from_mem hd).1)
  refine .bind (.traverse_of_mem fun line hmem => ?_) fun _ =>
    .bind (.traverse Lineage.failsOnly_checkBase) fun _ =>
      .bind (.traverse_of_mem fun line hmem => ?_) fun _ => .ok _
  · exact Lineage.failsOnly_checkUnambiguous fun d hd => (hline line hmem d hd).discriminators
  · exact Scope.failsOnly_build hrings hwithin (hline line hmem)

/-- A component gives a list or a mapping that is not empty as its package. -/
def GivesCollection (doc : Document) (package : Value) : Prop :=
  ∃ schemas entry, doc.schemas = .ok schemas ∧ entry ∈ schemas ∧
    Mapping.field? entry.2 "x-package" = some package ∧ package.truthy = true ∧
    package.scalar? = none

/-- The package of a component that gives none is that of the run. -/
lemma field?_of_package {schema : Mapping} {package : String} {w : Value}
    (h : Schema.package (.text package) schema = w) (hw : w.scalar? = none) :
    Mapping.field? schema "x-package" = some w ∧ w.truthy = true := by
  rw [Schema.package] at h
  split at h
  · rename_i htruthy
    rw [h] at htruthy
    refine ⟨?_, htruthy⟩
    cases hfield : Mapping.field? schema "x-package" with
    | none =>
        rw [Mapping.field, hfield] at h
        rw [← h] at hw
        cases hw
    | some u => rw [← h, Mapping.field_of_field? hfield]
  · rw [← h] at hw
    cases hw

/-- A package is inside the document, or it is that of the run. -/
lemma covers_package {schema : Mapping} (h : v.Holds schema) (package : String) :
    v.Covers (Schema.package (.text package) schema) := by
  rw [Schema.package]
  split
  · rename_i htruthy
    cases hfield : Mapping.field? schema "x-package" with
    | none =>
        rw [Mapping.field, hfield] at htruthy
        cases htruthy
    | some u =>
        rw [Mapping.field_of_field? hfield]
        exact (h.field? hfield).covers
  · exact covers_text v package

/-- The packages of described components are settled unless one of their schemas gives a
collection. -/
lemma failsOnly_packages {described : List (Component Value)} {keys : List Scalar}
    (hkeyed : ∀ entry ∈ schemas, Value.textKeyedEntries entry.2 = true)
    (hheld : ∀ entry ∈ schemas, v.Holds entry.2) {package : String}
    (hdescribed : traverse (Component.describe (.text package) keys) schemas = .ok described) :
    FailsOnly (fun f => v.Causes f ∨ ∃ entry ∈ schemas, ∃ p,
        Mapping.field? entry.2 "x-package" = some p ∧ p.truthy = true ∧ p.scalar? = none ∧
        f = .misplaced p)
      (Component.settlePackages [] described) := by
  have hpackage : ∀ c ∈ described, ∃ entry ∈ schemas,
      Schema.package (.text package) entry.2 = c.package := by
    intro c hc
    obtain ⟨entry, hentry, hdescribe⟩ := forall₂_right (traverse_eq_ok_iff.1 hdescribed) hc
    obtain ⟨-, hc⟩ := Component.describes_of_describe (hkeyed entry hentry) hdescribe
    exact ⟨entry, hentry, hc.symm⟩
  refine (Component.failsOnly_settlePackages [] fun c hc => ?_).mono fun f hf => hf.imp_right ?_
  · obtain ⟨entry, hentry, hc⟩ := hpackage c hc
    rw [← hc]
    exact covers_package (hheld entry hentry) package
  · rintro ⟨c, hc, hnone, rfl⟩
    obtain ⟨entry, hentry, hc⟩ := hpackage c hc
    obtain ⟨hfield, htruthy⟩ := field?_of_package hc hnone
    exact ⟨entry, hentry, c.package, hfield, htruthy, hnone, rfl⟩

/-- Why a document that is read has no model: a fault in its sections or in a component, a value
without a text, or a package that is a collection. -/
lemma failsOnly_ofDocument {doc : Document} (hkeyed : v.textKeyed = true) (hrings : v.Ringless)
    (hdoc : v.Holds doc.entries) (package : String) :
    FailsOnly (fun f => v.Causes f ∨ ∃ p, GivesCollection doc p ∧ f = .misplaced p)
      (ofDocument doc (.text package) registry accessibility) := by
  have hdocKeyed : doc.TextKeyed := hdoc.keyed hkeyed
  refine .bind_of_ok ((Document.failsOnly_schemas hdoc hkeyed).mono fun _ => Or.inl)
    fun schemas hschemas => ?_
  have htexts := Document.textKeys_schemas hdocKeyed hschemas
  have hheld : ∀ entry ∈ schemas, v.Holds entry.2 := fun _ hentry =>
    Document.holds_of_mem_schemas hdoc hschemas hentry
  have hentries : ∀ entry ∈ schemas, Value.textKeyedEntries entry.2 = true := fun _ hentry =>
    Document.textKeyed_of_mem_schemas hdocKeyed hschemas hentry
  rw [traverse_named htexts]
  refine .bind (.ok _) fun classNames => .bind_of_ok ?_ fun described hdescribed => ?_
  · exact .traverse_of_mem fun entry hentry => (Component.failsOnly_describe hkeyed _ _
      (htexts.1 entry hentry) (hheld entry hentry)).mono fun _ => Or.inl
  refine .bind_of_ok ?_ fun components hsettled => ?_
  · refine (failsOnly_packages hentries hheld hdescribed).mono fun f hf => hf.imp_right ?_
    rintro ⟨entry, hentry, p, hfield, htruthy, hnone, rfl⟩
    exact ⟨p, ⟨schemas, entry, hschemas, hentry, hfield, htruthy, hnone⟩, rfl⟩
  · have hlays : Lays (.text package) schemas components := ⟨described, hdescribed, hsettled⟩
    exact (failsOnly_ofComponents hrings (hlays.blueprint htexts hentries) hheld _).mono
      fun _ => Or.inl

lemma failsOnly_or_misplaced (hkeyed : v.textKeyed = true) (hrings : v.Ringless)
    (package : String) :
    FailsOnly (fun f => v.Causes f ∨ ∃ doc p, Document.ofValue v = .ok doc ∧
        GivesCollection doc p ∧ f = .misplaced p)
      (Document.ofValue v >>= fun doc =>
        ofDocument doc (.text package) registry accessibility) := by
  cases v with
  | mapping m ring =>
      refine (failsOnly_ofDocument hkeyed hrings ⟨ring, .self⟩ package).mono fun f hf =>
        hf.imp_right ?_
      rintro ⟨p, hp, rfl⟩
      exact ⟨⟨m⟩, p, rfl, hp, rfl⟩
  | scalar s => exact .throw (Or.inl (.document _))
  | list items ring => exact .throw (Or.inl (.document _))

/-- A document whose only component has a list as its type. -/
def listTyped : Value :=
  .mapping [(.text "components", .mapping [(.text "schemas",
    .mapping [(.text "A", .mapping [(.text "type", .list [])])])])]

/-- A document whose only component has a list as its package. -/
def listPackaged : Value :=
  .mapping [(.text "components", .mapping [(.text "schemas",
    .mapping [(.text "A", .mapping [(.text "x-package", .list [.text "x"])])])])]

end ClassModel

end SchemaClasses
