import SchemaClasses.Proofs.Alike
import SchemaClasses.Proofs.Description

/-!
# Schemas that differ in one discriminator

A fragment of a component may name a discriminator, or mark one of its properties as such.  Two
fragments differ in the discriminator `p` at most if they give the same properties, up to the mark
on `p`, and name the same discriminators, except for `p` (`FragmentAlike`).  What is gathered from
them is then the same, apart from the place of `p` among the discriminators.  So their lists of
discriminators agree once `p` is taken out of both, order included.

A description fails over a discriminator that is no property, and it reports the first of them.
Where `p` is a property it is none of these, so the descriptions fail alike as well
(`alike_describe`).  And if both components declare `p` in one form or another, their descriptions
are alike in the sense of `Component.Alike`.  Documents whose components are described alike have
the same model, or they fail alike (`alike_ofDocument`).
-/

namespace SchemaClasses

lemma Mapping.hasField_eq_isSome (m : Mapping) (name : String) :
    Mapping.hasField m name = (Mapping.field? m name).isSome :=
  Entries.contains_eq_isSome m (.text name)

/-! ## Lists without one name -/

/-- The names without one of them. -/
def without (p : String) (names : List Scalar) : List Scalar :=
  names.filter fun n => !(n == .text p)

section Without

variable {p : String}

lemma without_append (names names' : List Scalar) :
    without p (names ++ names') = without p names ++ without p names' :=
  List.filter_append names names'

lemma mem_without {n : Scalar} {names : List Scalar} (hn : n ≠ .text p) :
    n ∈ without p names ↔ n ∈ names := by
  rw [without, List.mem_filter, Bool.not_eq_true', Bool.eq_false_iff, ne_eq, Scalar.beq_text,
    and_iff_left hn]

/-- Add a name to a list, unless it has it. -/
def addNew (names : List Scalar) (n : Scalar) : List Scalar :=
  if names.any (· == n) then names else names ++ [n]

lemma without_insert_self {s : OrderedSet Scalar} {n : Scalar} (hn : (n == .text p) = true) :
    without p (s.insert n).items = without p s.items := by
  rw [OrderedSet.items_insert]
  split
  · rfl
  · rw [without_append]
    simp [without, hn]

lemma without_insert_of_ne {s : OrderedSet Scalar} {n : Scalar} (hn : ¬ (n == .text p) = true) :
    without p (s.insert n).items = addNew (without p s.items) n := by
  have hknown : (without p s.items).any (· == n) = s.contains n := by
    rw [OrderedSet.contains_eq_any, without, List.any_filter]
    congr 1
    funext m
    rw [Bool.and_eq_right_iff_imp, Bool.not_eq_true', Bool.eq_false_iff]
    exact fun hmn hm => hn (BEq.trans (BEq.symm hmn) hm)
  rw [addNew, hknown, OrderedSet.items_insert]
  split
  · rfl
  · rw [without_append]
    simp [without, hn]

/-- Adding names to a set adds the same names to what it is without one of them. -/
lemma without_insertAll (s : OrderedSet Scalar) (names : List Scalar) :
    without p (s.insertAll names).items = (without p names).foldl addNew (without p s.items) := by
  induction names generalizing s with
  | nil => rfl
  | cons n rest ih =>
      have hstep : s.insertAll (n :: rest) = (s.insert n).insertAll rest := rfl
      rw [hstep, ih]
      by_cases hn : (n == .text p) = true
      · have hskip : without p (n :: rest) = without p rest := by simp [without, hn]
        rw [hskip, without_insert_self hn]
      · have hkeep : without p (n :: rest) = n :: without p rest := by simp [without, hn]
        rw [hkeep, List.foldl_cons, without_insert_of_ne hn]

end Without

/-! ## Fragments -/

/-- Two properties of a fragment that are the same, or that are called `p` and differ in the mark
at most. -/
inductive SameEntry (p : String) : Scalar × Value → Scalar × Value → Prop where
  | same (e : Scalar × Value) : SameEntry p e e
  | marked {m m' : Mapping} (ring ring' : Option Nat) (h : Mapping.SameBut discriminatorMark m m') :
      SameEntry p (.text p, .mapping m ring) (.text p, .mapping m' ring')

/-- What two fragments give as their properties is the same, up to the mark on `p`. -/
inductive GivenAlike (p : String) : Value → Value → Prop where
  | same (v : Value) : GivenAlike p v v
  | marked {entries entries' : Mapping} (ring ring' : Option Nat)
      (h : List.Forall₂ (SameEntry p) entries entries') :
      GivenAlike p (.mapping entries ring) (.mapping entries' ring')

namespace Component

/-- **Two fragments differ in the discriminator `p` at most.** -/
structure FragmentAlike (p : String) (fragment fragment' : Mapping) : Prop where
  type : Mapping.field? fragment "type" = Mapping.field? fragment' "type"
  properties : GivenAlike p (givenProperties fragment) (givenProperties fragment')
  named : ∀ className, EndAlike (· = ·)
    (fun named named' : Option String =>
      without p (named.toList.map .text) = without p (named'.toList.map .text))
    (namedDiscriminator className fragment) (namedDiscriminator className fragment')

/-- What is gathered from such fragments. -/
structure Gathered.Alike (p : String) (g g' : Gathered) : Prop where
  properties : List.Forall₂ SameProperty g.properties g'.properties
  discriminators : without p g.discriminators.items = without p g'.discriminators.items

variable {p : String} {fragment fragment' : Mapping} {entries entries' : List (Scalar × Value)}
  {properties properties' : Entries Scalar Mapping}

lemma namedDiscriminator_congr
    (h : Mapping.field? fragment "discriminator" = Mapping.field? fragment' "discriminator")
    (className : String) :
    namedDiscriminator className fragment = namedDiscriminator className fragment' := by
  rw [namedDiscriminator, namedDiscriminator, Mapping.field, Mapping.field, h]

/-- Fragments that agree on what is read of them are alike. -/
lemma fragmentAlike_of_fields
    (h : ∀ name ∈ ["type", "properties", "discriminator"],
      Mapping.field? fragment name = Mapping.field? fragment' name) :
    FragmentAlike p fragment fragment' := by
  have hgiven : givenProperties fragment = givenProperties fragment' := by
    rw [givenProperties, givenProperties, h "properties" (by decide)]
  have hnamed := namedDiscriminator_congr (h "discriminator" (by decide))
  exact ⟨h "type" (by decide), hgiven ▸ .same _,
    fun className => alike_of_eq (fun _ => rfl) (hnamed className) fun _ _ => rfl⟩

lemma insert_of_sameProperty (h : List.Forall₂ SameProperty properties properties') (name : Scalar)
    {m m' : Mapping} (hm : Mapping.SameBut discriminatorMark m m') :
    List.Forall₂ SameProperty (Entries.insert properties name m)
      (Entries.insert properties' name m') := by
  induction h with
  | nil => exact .cons ⟨rfl, hm⟩ .nil
  | @cons e e' _ _ he hrest ih =>
      obtain ⟨key, schema⟩ := e
      obtain ⟨key', schema'⟩ := e'
      obtain ⟨rfl, hschema⟩ : key = key' ∧ _ := he
      rw [Entries.insert, Entries.insert]
      split
      · exact .cons ⟨rfl, hm⟩ hrest
      · exact .cons ⟨rfl, hschema⟩ ih

lemma alike_gatherProperties (className : String) (h : List.Forall₂ (SameEntry p) entries entries')
    (hg : List.Forall₂ SameProperty properties properties') :
    EndAlike (· = ·) (List.Forall₂ SameProperty) (gatherProperties className properties entries)
      (gatherProperties className properties' entries') := by
  induction h generalizing properties properties' with
  | nil =>
      rw [gatherProperties, gatherProperties]
      exact .ok hg
  | @cons e _ _ _ he _ ih =>
      cases he with
      | same =>
          obtain ⟨name, v⟩ := e
          cases v with
          | mapping m ring =>
              rw [gatherProperties, gatherProperties]
              exact ih (insert_of_sameProperty hg name fun _ _ => rfl)
          | scalar s => exact .error rfl
          | list items ring => exact .error rfl
      | marked ring ring' hm =>
          rw [gatherProperties, gatherProperties]
          exact ih (insert_of_sameProperty hg (.text p) hm)

/-- The properties that two such fragments mark are the same, except for `p`. -/
lemma without_marked (h : List.Forall₂ (SameEntry p) entries entries') :
    without p ((entries.filter fun e => marksDiscriminator e.2).map (·.1)) =
      without p ((entries'.filter fun e => marksDiscriminator e.2).map (·.1)) := by
  have hcons : ∀ (e : Scalar × Value) rest,
      without p (((e :: rest).filter fun e => marksDiscriminator e.2).map (·.1)) =
        without p (if marksDiscriminator e.2 then [e.1] else []) ++
          without p ((rest.filter fun e => marksDiscriminator e.2).map (·.1)) := by
    intro e rest
    rw [← without_append, List.filter_cons]
    split <;> rfl
  have hp : ∀ b : Bool, without p (if b then [Scalar.text p] else []) = [] := by
    intro b
    cases b <;> simp [without]
  induction h with
  | nil => rfl
  | cons he _ ih =>
      rw [hcons, hcons, ih]
      cases he with
      | same => rfl
      | marked ring ring' hm => rw [hp, hp]

/-- Reading the one fragment adds what reading the other does, except for `p`. -/
lemma alike_gather (className : String) (h : FragmentAlike p fragment fragment') {g g' : Gathered}
    (hg : g.Alike p g') :
    EndAlike (· = ·) (Gathered.Alike p) (gather className g fragment)
      (gather className g' fragment') := by
  have hread : ∀ entries entries' : Mapping, List.Forall₂ (SameEntry p) entries entries' →
      EndAlike (· = ·) (Gathered.Alike p) (do
        let properties ← gatherProperties className g.properties entries
        let named ← namedDiscriminator className fragment
        let marked := (entries.filter fun entry => marksDiscriminator entry.2).map (·.1)
        return ⟨properties,
          (g.discriminators.insertAll (named.toList.map Scalar.text)).insertAll marked⟩) (do
        let properties ← gatherProperties className g'.properties entries'
        let named ← namedDiscriminator className fragment'
        let marked := (entries'.filter fun entry => marksDiscriminator entry.2).map (·.1)
        return ⟨properties,
          (g'.discriminators.insertAll (named.toList.map Scalar.text)).insertAll marked⟩) := by
    intro entries entries' hentries
    refine (alike_gatherProperties className hentries hg.properties).bind
      fun properties properties' _ _ hsame => ?_
    refine (h.named className).bind fun named named' _ _ hnamed => .ok ⟨hsame, ?_⟩
    simp only [without_insertAll, without_marked hentries, hnamed, hg.discriminators]
  have hgiven := h.properties
  rw [givenProperties, givenProperties] at hgiven
  rw [gather, gather, h.type]
  generalize (Mapping.field? fragment "properties").getD (.mapping []) = given at hgiven ⊢
  generalize (Mapping.field? fragment' "properties").getD (.mapping []) = given' at hgiven ⊢
  by_cases hobject : ((Mapping.field? fragment' "type").getD (.text "object")).isText "object"
  · rw [hobject]
    cases hgiven with
    | same =>
        cases given with
        | mapping entries ring =>
            exact hread entries entries (List.forall₂_same.2 fun e _ => .same e)
        | scalar s => exact .error rfl
        | list items ring => exact .error rfl
    | marked ring ring' hentries => exact hread _ _ hentries
  · rw [Bool.not_eq_true] at hobject
    rw [hobject]
    exact .error rfl

lemma alike_gatherAll (className : String) {fragments fragments' : List Mapping}
    (h : List.Forall₂ (FragmentAlike p) fragments fragments') {g g' : Gathered}
    (hg : g.Alike p g') :
    EndAlike (· = ·) (Gathered.Alike p) (gatherAll className g fragments)
      (gatherAll className g' fragments') := by
  induction h generalizing g g' with
  | nil =>
      rw [gatherAll, gatherAll]
      exact .ok hg
  | cons hfragment _ ih =>
      rw [gatherAll, gatherAll]
      rcases (alike_gather className hfragment hg).ok_or_error with
        ⟨g₁, g₁', hread, hread', hg₁⟩ | ⟨e, e', hread, hread', failure⟩
      · rw [hread, hread']
        exact ih hg₁
      · rw [hread, hread']
        exact .error failure

/-! ## Compositions -/

/-- Two parts of a composition are the same, or two fragments that differ in `p` at most. -/
inductive PartAlike (p : String) : Value → Value → Prop where
  | same (part : Value) : PartAlike p part part
  | fragment {m m' : Mapping} (ring ring' : Option Nat) (free : Mapping.field? m "$ref" = none)
      (free' : Mapping.field? m' "$ref" = none) (h : FragmentAlike p m m') :
      PartAlike p (.mapping m ring) (.mapping m' ring')

/-- What two components give as their parts is the same, or two lists of such parts. -/
inductive PartsAlike (p : String) : Option Value → Option Value → Prop where
  | same (v : Option Value) : PartsAlike p v v
  | lists {items items' : List Value} (ring ring' : Option Nat)
      (h : List.Forall₂ (PartAlike p) items items') :
      PartsAlike p (some (.list items ring)) (some (.list items' ring'))

/-- **Two components differ in the discriminator `p` at most.** -/
structure SchemaAlike (p : String) (schema schema' : Mapping) : Prop where
  fragment : FragmentAlike p schema schema'
  package : Mapping.field? schema "x-package" = Mapping.field? schema' "x-package"
  parts : PartsAlike p (Mapping.field? schema "allOf") (Mapping.field? schema' "allOf")

/-- What is read of such compositions. -/
structure Composition.Alike (p : String) (composition composition' : Composition) : Prop where
  base : composition.base = composition'.base
  fragments : List.Forall₂ (FragmentAlike p) composition.fragments composition'.fragments

lemma fragmentAlike_refl (fragment : Mapping) : FragmentAlike p fragment fragment :=
  fragmentAlike_of_fields fun _ _ => rfl

lemma compositionAlike_refl (composition : Composition) : composition.Alike p composition :=
  ⟨rfl, List.forall₂_same.2 fun _ _ => fragmentAlike_refl _⟩

lemma partReferences_of_alike {items items' : List Value}
    (h : List.Forall₂ (PartAlike p) items items') :
    partReferences items = partReferences items' := by
  induction h with
  | nil => rfl
  | cons hpart _ ih =>
      rw [partReferences, partReferences] at ih ⊢
      cases hpart with
      | same => rw [List.filterMap_cons, List.filterMap_cons, ih]
      | fragment ring ring' free free' _ =>
          rw [List.filterMap_cons, List.filterMap_cons]
          dsimp only
          rw [free, free', ih]

lemma alike_partMappings (className : String) {items items' : List Value}
    (h : List.Forall₂ (PartAlike p) items items') :
    EndAlike (· = ·) (List.Forall₂ fun m m' =>
        Mapping.hasField m "$ref" = Mapping.hasField m' "$ref" ∧ FragmentAlike p m m')
      (partMappings className items) (partMappings className items') := by
  refine EndAlike.traverse h fun part part' hpart => ?_
  cases hpart with
  | same =>
      cases part with
      | mapping m ring => exact .ok ⟨rfl, fragmentAlike_refl m⟩
      | scalar s => exact .error rfl
      | list items ring => exact .error rfl
  | @fragment m m' ring ring' free free' h =>
      refine .ok ⟨?_, h⟩
      rw [Mapping.hasField_eq_isSome, Mapping.hasField_eq_isSome, free, free']

lemma alike_compositionOf (className : String) (keys : List Scalar) {schema schema' : Mapping}
    (h : PartsAlike p (Mapping.field? schema "allOf") (Mapping.field? schema' "allOf")) :
    EndAlike (· = ·) (Composition.Alike p) (compositionOf className keys schema)
      (compositionOf className keys schema') := by
  rw [compositionOf, compositionOf]
  generalize Mapping.field? schema "allOf" = given at h ⊢
  generalize Mapping.field? schema' "allOf" = given' at h ⊢
  cases h with
  | same => exact alike_of_eq (fun _ => rfl) rfl fun c _ => compositionAlike_refl c
  | lists ring ring' h =>
      cases h with
      | nil => exact .error rfl
      | cons hpart hrest =>
          have hparts := List.Forall₂.cons hpart hrest
          dsimp only
          rw [partReferences_of_alike hparts]
          refine EndAlike.bind_same (fun _ => rfl) fun base => ?_
          refine (alike_partMappings className hparts).bind fun ms ms' _ _ hms => .ok ⟨rfl, ?_⟩
          have hkept := filter_of_forall₂ (p := fun m => !Mapping.hasField m "$ref")
            (q := fun m => !Mapping.hasField m "$ref") hms fun m m' hm => by rw [hm.1]
          exact hkept.imp fun _ _ hm => hm.2

/-! ## Descriptions -/

/-- Two components that say the same, except for `p` among their discriminators. -/
structure AlikeBut (p : String) (c c' : Component Value) : Prop where
  key : c.key = c'.key
  className : c.className = c'.className
  package : c.package = c'.package
  base : c.base = c'.base
  properties : List.Forall₂ SameProperty c.properties c'.properties
  discriminators : without p c.discriminators = without p c'.discriminators

lemma contains_of_sameProperty (h : List.Forall₂ SameProperty properties properties')
    (name : Scalar) : Entries.contains properties name = Entries.contains properties' name := by
  induction h with
  | nil => rfl
  | cons he _ ih =>
      rw [Entries.contains, Entries.contains] at ih ⊢
      rw [List.any_cons, List.any_cons, ih, he.1]

/-- A name that is no property is not `p`, so it is met among the other discriminators. -/
lemma find?_without {names : List Scalar} {undeclared : Scalar → Bool}
    (hp : undeclared (.text p) = false) :
    (without p names).find? undeclared = names.find? undeclared := by
  rw [without, List.find?_filter]
  congr 1
  funext n
  by_cases hn : n = .text p
  · simp [hn, hp]
  · have hother : (n == .text p) = false := by rwa [← Bool.not_eq_true, Scalar.beq_text]
    simp [hother]

lemma contains_of_property? {schema property : Mapping} {className : String} {g : Gathered}
    (hkeyed : Value.textKeyedEntries schema = true)
    (hproperty : Schema.property? schema p = some property)
    (h : gatherAll className {} (Schema.fragments schema) = .ok g) :
    Entries.contains g.properties (.text p) = true := by
  obtain ⟨-, hfound, -⟩ := gathered_component hkeyed h
  rw [Entries.contains_eq_isSome, hfound, hproperty, Option.isSome_some]

/-- The first discriminator that is no property is the same, if `p` is a property. -/
lemma find?_undeclared_of_alike {g g' : Gathered} (h : g.Alike p g')
    (hp : Entries.contains g.properties (.text p) = true) :
    (g.discriminators.items.find? fun name => !Entries.contains g.properties name) =
      g'.discriminators.items.find? fun name => !Entries.contains g'.properties name := by
  have hnames : (fun name => !Entries.contains g.properties name) =
      fun name => !Entries.contains g'.properties name :=
    funext fun name => by rw [contains_of_sameProperty h.properties]
  have hdeclared : (fun name => !Entries.contains g.properties name) (.text p) = false := by
    simp only [hp, Bool.not_true]
  rw [← find?_without hdeclared, h.discriminators, find?_without hdeclared, hnames]

/-- **Components that differ in the discriminator `p` at most are described alike**, if `p` is a
property. -/
lemma alike_describe (home : Value) (keys : List Scalar) (key : Scalar)
    {schema schema' property : Mapping} (h : SchemaAlike p schema schema')
    (hkeyed : Value.textKeyedEntries schema = true)
    (hproperty : Schema.property? schema p = some property) :
    EndAlike (· = ·) (AlikeBut p) (describe home keys (key, schema))
      (describe home keys (key, schema')) := by
  rw [describe, describe]
  refine EndAlike.bind_same (fun _ => rfl) fun className => ?_
  by_cases hempty : className = ""
  · rw [if_pos hempty, if_pos hempty]
    exact .error rfl
  rw [if_neg hempty, if_neg hempty]
  refine (alike_compositionOf className keys h.parts).bind
    fun composition composition' hread _ hcomposition => ?_
  refine (alike_gatherAll className (.cons h.fragment hcomposition.fragments)
    ⟨.nil, rfl⟩).bind fun g g' hg _ hgathered => ?_
  -- What is reported first is not `p`, which is a property, so its place does not matter.
  obtain ⟨-, hfragments, -⟩ := compositionOf_eq_ok.1 hread
  have hp := contains_of_property? hkeyed hproperty (hfragments ▸ hg)
  rw [find?_undeclared_of_alike hgathered hp]
  cases g'.discriminators.items.find? fun name => !Entries.contains g'.properties name with
  | some name => exact .error rfl
  | none =>
      exact .ok {
        key := rfl
        className := rfl
        package := by rw [Mapping.field, Mapping.field, h.package]
        base := hcomposition.base
        properties := hgathered.properties
        discriminators := hgathered.discriminators }

lemma AlikeBut.trans {c₁ c₂ c₃ : Component Value} (h : AlikeBut p c₁ c₂) (h' : AlikeBut p c₂ c₃) :
    AlikeBut p c₁ c₃ where
  key := h.key.trans h'.key
  className := h.className.trans h'.className
  package := h.package.trans h'.package
  base := h.base.trans h'.base
  properties := (forall₂_comp.1 ⟨_, h.properties, h'.properties⟩).imp fun _ _ ⟨_, he, he'⟩ =>
    ⟨he.1.trans he'.1, fun name hname => (he.2 name hname).trans (he'.2 name hname)⟩
  discriminators := h.discriminators.trans h'.discriminators

/-- If both declare `p`, they declare the same discriminators. -/
lemma AlikeBut.alike {c c' : Component Value} (h : AlikeBut p c c')
    (htexts : ∀ n ∈ c.discriminators, ∃ name, n = .text name)
    (hp : .text p ∈ c.discriminators) (hp' : .text p ∈ c'.discriminators) : c.Alike c' where
  key := h.key
  className := h.className
  package := h.package
  base := h.base
  properties := h.properties
  discriminators := by
    intro n
    by_cases hn : n = .text p
    · rw [hn, iff_true_left hp]
      exact hp'
    · rw [← mem_without hn, h.discriminators, mem_without hn]
  texts := htexts

/-! ## Packages -/

/-- **Packages are settled alike.** -/
lemma alike_settlePackages {described described' : List (Component Value)}
    (h : List.Forall₂ Alike described described') {settled settled' : List (Component Scalar)}
    (hsettled : List.Forall₂ Alike settled settled') :
    EndAlike (· = ·) (List.Forall₂ Alike) (settlePackages settled described)
      (settlePackages settled' described') := by
  induction h generalizing settled settled' with
  | nil =>
      rw [settlePackages, settlePackages]
      exact .ok hsettled
  | @cons c c' _ _ hc _ ih =>
      rw [settlePackages, settlePackages, ← hc.package, ← hc.className, ← hc.key]
      cases hpackage : c.package.scalar? with
      | none => exact .error rfl
      | some package =>
          have hsettle : (c.withPackage package).Alike (c'.withPackage package) :=
            { hc with package := rfl }
          rcases find?_of_forall₂ (p := fun d => d.package == package && d.className == c.className)
            (q := fun d => d.package == package && d.className == c.className) hsettled
            fun a b hab => by rw [hab.package, hab.className] with
            ⟨hnone, hnone'⟩ | ⟨d, d', hd, hd', hfirst⟩
          · dsimp only
            rw [hnone, hnone']
            exact ih (List.rel_append hsettled (.cons hsettle .nil))
          · dsimp only
            rw [hd, hd']
            dsimp only
            rw [hfirst.key]
            exact .error rfl

end Component

/-! ## Documents -/

/-- Two schema components of one key, described alike in every surrounding. -/
def DescribedAlike (entry entry' : Scalar × Mapping) : Prop :=
  entry.1 = entry'.1 ∧ ∀ home keys, EndAlike (· = ·) Component.Alike
    (Component.describe home keys entry) (Component.describe home keys entry')

/-- **Documents whose components are described alike have the same model**, or fail alike. -/
theorem ClassModel.alike_ofDocument {doc doc' : Document}
    (h : EndAlike (· = ·) (List.Forall₂ DescribedAlike) doc.schemas doc'.schemas)
    (home : Value) (registry : TypeRegistry) (accessibility : Accessibility) :
    EndAlike Failure.Alike (· = ·) (ofDocument doc home registry accessibility)
      (ofDocument doc' home registry accessibility) := by
  rw [ofDocument, ofDocument]
  refine h.alike.bind fun schemas schemas' _ _ hschemas => ?_
  have hkeys : Entries.keys schemas = Entries.keys schemas' :=
    map_eq_of_forall₂ hschemas fun _ _ he => he.1
  have hnames : traverse named schemas = traverse named schemas' :=
    traverse_eq_of_forall₂ hschemas fun _ _ he => by rw [named, named, he.1]
  rw [hnames, hkeys]
  refine EndAlike.bind_same .same fun names => ?_
  refine (EndAlike.traverse hschemas fun _ _ he => he.2 home _).alike.bind
    fun described described' _ _ hdescribed => ?_
  exact (Component.alike_settlePackages hdescribed .nil).alike.bind
    fun components components' _ _ hcomponents =>
      alike_ofComponents hcomponents registry accessibility names

end SchemaClasses
