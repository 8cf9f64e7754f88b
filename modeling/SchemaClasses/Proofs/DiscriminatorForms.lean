import SchemaClasses.Proofs.AlikeSchemas

/-!
# The forms of a discriminator

A fragment names its discriminator directly (`discriminator: p`) or inside a mapping
(`discriminator: {propertyName: p}`), or one of the declarations of the property carries a mark
(`x-discriminator: true`).  The name and the marked declaration may stand in different fragments
of the component, and a later fragment may declare the property again without a mark.

`Redeclares p` changes one form into another, as edits of one entry of a fragment each.  It keeps
the model, and where there is none it keeps the failure (`ofDocument_of_redeclares`).
-/

namespace SchemaClasses

/-! ## Writing and erasing a field -/

namespace Mapping

open Value (textKeyedEntries)

variable {m : Mapping}

lemma textKeyed_insert (hm : textKeyedEntries m = true) (name : String) {v : Value}
    (hv : v.textKeyed = true) : textKeyedEntries (Entries.insert m (.text name) v) = true :=
  textKeyed_of_textKeys (Entries.textKeys_insert (textKeys_of_textKeyed hm) name v)
    (Entries.forall_insert (p := (·.textKeyed = true)) (fun _ he => textKeyed_of_mem hm he) _ hv)

lemma textKeyed_erase (hm : textKeyedEntries m = true) (key : Scalar) :
    textKeyedEntries (Entries.erase m key) = true := by
  obtain ⟨htexts, hnodup⟩ := textKeys_of_textKeyed hm
  refine textKeyed_of_textKeys ⟨fun e he => htexts e (List.mem_filter.1 he).1, ?_⟩
    fun e he => textKeyed_of_mem hm (List.mem_filter.1 he).1
  exact hnodup.sublist (List.filter_sublist.map _)

end Mapping

namespace Schema

/-! ## Edits of a fragment -/

/-- A fragment names `p` directly, and then inside a mapping. -/
structure NamesInside (p : String) (fragment fragment' : Mapping) : Prop where
  given : Mapping.field? fragment "discriminator" = some (.text p)
  edited : fragment' = Entries.insert fragment (.text "discriminator")
    (.mapping [(.text "propertyName", .text p)])

/-- A fragment names `p` directly, and then not at all. -/
structure DropsName (p : String) (fragment fragment' : Mapping) : Prop where
  given : Mapping.field? fragment "discriminator" = some (.text p)
  edited : fragment' = Entries.erase fragment (.text "discriminator")

/-- A fragment declares the property `p`, and then marks it as the discriminator. -/
inductive MarksProperty (p : String) (fragment fragment' : Mapping) : Prop where
  | mark (entries property : Mapping) (ring pring : Option Nat)
      (given : Mapping.field? fragment "properties" = some (.mapping entries ring))
      (declared : Mapping.field? entries p = some (.mapping property pring))
      (edited : fragment' = Entries.insert fragment (.text "properties")
        (.mapping (Entries.insert entries (.text p)
          (.mapping (Entries.insert property (.text discriminatorMark) (.scalar (.bool true)))
            pring)) ring))

/-- One fragment of a component is edited: the component itself, or one of its parts.  A part that
is a reference is no fragment, whatever else it says. -/
inductive EditsFragment (edit : Mapping → Mapping → Prop) : Mapping → Mapping → Prop where
  | itself {schema schema' : Mapping} (h : edit schema schema') : EditsFragment edit schema schema'
  | part {schema part part' : Mapping} {before after : List Value} {ring pring : Option Nat}
      (given : Mapping.field? schema "allOf" =
        some (.list (before ++ .mapping part pring :: after) ring))
      (free : Mapping.field? part "$ref" = none) (h : edit part part') :
      EditsFragment edit schema (Entries.insert schema (.text "allOf")
        (.list (before ++ .mapping part' pring :: after) ring))

/-- **A component declares its discriminator `p` in another form.**  It names it inside a mapping
instead, or it names it no more and marks one of the declarations of the property. -/
inductive Redeclares (p : String) (schema schema' : Mapping) : Prop where
  | inside (h : EditsFragment (NamesInside p) schema schema')
  | marked (between : Mapping) (dropped : EditsFragment (DropsName p) schema between)
      (mark : EditsFragment (MarksProperty p) between schema')

/-! ## What an edit keeps -/

/-- Edits of a fragment that change the discriminator `p` at most. -/
structure Concerns (p : String) (edit : Mapping → Mapping → Prop) : Prop where
  alike : ∀ {fragment fragment'}, edit fragment fragment' →
    Component.FragmentAlike p fragment fragment'
  kept : ∀ {fragment fragment'}, edit fragment fragment' → ∀ name,
    name ≠ "discriminator" → name ≠ "properties" →
      Mapping.field? fragment name = Mapping.field? fragment' name
  textKeyed : ∀ {fragment fragment'}, edit fragment fragment' →
    Value.textKeyedEntries fragment = true → Value.textKeyedEntries fragment' = true

variable {p : String}

/-- Nothing but its discriminator is edited. -/
lemma fragmentAlike_of_discriminator {fragment fragment' : Mapping}
    (hkept : ∀ name, name ≠ "discriminator" →
      Mapping.field? fragment name = Mapping.field? fragment' name)
    (hnamed : ∀ className, EndAlike (· = ·)
      (fun named named' : Option String =>
        without p (named.toList.map .text) = without p (named'.toList.map .text))
      (Component.namedDiscriminator className fragment)
      (Component.namedDiscriminator className fragment')) :
    Component.FragmentAlike p fragment fragment' where
  type := hkept "type" (by decide)
  properties := by
    rw [Component.givenProperties, Component.givenProperties, hkept "properties" (by decide)]
    exact .same _
  named := hnamed

lemma namedDiscriminator_of_directly {fragment : Mapping} (hp : p ≠ "")
    (hgiven : Mapping.field? fragment "discriminator" = some (.text p)) (className : String) :
    Component.namedDiscriminator className fragment = .ok (some p) :=
  Component.namedDiscriminator_eq_some.2 ⟨hp, .directly hgiven⟩

lemma NamesInside.names {fragment fragment' : Mapping} (h : NamesInside p fragment fragment') :
    Names fragment' p := by
  obtain ⟨-, rfl⟩ := h
  exact .inside [(.text "propertyName", .text p)] none (Mapping.field?_insert_self _ _ _) rfl

lemma concerns_namesInside (hp : p ≠ "") : Concerns p (NamesInside p) where
  alike := by
    intro fragment fragment' h
    have hnames := h.names
    obtain ⟨hgiven, rfl⟩ := h
    refine fragmentAlike_of_discriminator (fun name hname => ?_) fun className => ?_
    · rw [Mapping.field?_insert_of_ne hname]
    · rw [namedDiscriminator_of_directly hp hgiven,
        Component.namedDiscriminator_eq_some.2 ⟨hp, hnames⟩]
      exact .ok rfl
  kept := by
    rintro fragment _ ⟨-, rfl⟩ name hname -
    rw [Mapping.field?_insert_of_ne hname]
  textKeyed := by
    rintro fragment _ ⟨-, rfl⟩ hkeyed
    refine Mapping.textKeyed_insert hkeyed _ ?_
    simp [Value.textKeyedEntries, Entries.contains, Scalar.text?]

lemma concerns_dropsName (hp : p ≠ "") : Concerns p (DropsName p) where
  alike := by
    rintro fragment _ ⟨hgiven, rfl⟩
    refine fragmentAlike_of_discriminator (fun name hname => ?_) fun className => ?_
    · rw [Mapping.field?_erase_of_ne hname]
    · have hnone : Component.namedDiscriminator className
          (Entries.erase fragment (.text "discriminator")) = .ok none := by
        rw [Component.namedDiscriminator_eq_none, Mapping.field?_erase_self]
        simp
      rw [namedDiscriminator_of_directly hp hgiven, hnone]
      exact .ok (by simp [without])
  kept := by
    rintro fragment _ ⟨-, rfl⟩ name hname -
    rw [Mapping.field?_erase_of_ne hname]
  textKeyed := by
    rintro fragment _ ⟨-, rfl⟩ hkeyed
    exact Mapping.textKeyed_erase hkeyed _

/-- A property is marked in place. -/
lemma sameEntry_insert {entries m m' : Mapping} {ring : Option Nat}
    (h : Mapping.field? entries p = some (.mapping m ring))
    (hsame : Mapping.SameBut discriminatorMark m m') :
    List.Forall₂ (SameEntry p) entries (Entries.insert entries (.text p) (.mapping m' ring)) := by
  induction entries with
  | nil => cases h
  | cons e rest ih =>
      obtain ⟨k, v⟩ := e
      have hrest : List.Forall₂ (SameEntry p) rest rest := List.forall₂_same.2 fun e _ => .same e
      rw [Mapping.field?, Entries.get?_cons] at h
      rw [Entries.insert]
      split at h
      · rename_i hk
        obtain rfl : v = .mapping m ring := Option.some.inj h
        rw [if_pos hk, Scalar.beq_text.1 hk]
        exact .cons (.marked ring ring hsame) hrest
      · rename_i hk
        rw [if_neg hk]
        exact .cons (.same _) (ih h)

lemma concerns_marksProperty : Concerns p (MarksProperty p) where
  alike := by
    rintro fragment _ ⟨_, _, _, _, hgiven, hdeclared, rfl⟩
    refine ⟨?_, ?_, fun className => ?_⟩
    · rw [Mapping.field?_insert_of_ne (by decide)]
    · rw [Component.givenProperties, Component.givenProperties, Mapping.field?_insert_self, hgiven]
      refine .marked _ _ (sameEntry_insert hdeclared fun name hname => ?_)
      rw [Mapping.field?_insert_of_ne hname]
    · refine alike_of_eq (fun _ => rfl) (Component.namedDiscriminator_congr ?_ className)
        fun _ _ => rfl
      rw [Mapping.field?_insert_of_ne (by decide)]
  kept := by
    rintro fragment _ ⟨_, _, _, _, -, -, rfl⟩ name - hname
    rw [Mapping.field?_insert_of_ne hname]
  textKeyed := by
    rintro fragment _ ⟨_, _, _, _, hgiven, hdeclared, rfl⟩ hkeyed
    have hentries := Mapping.textKeyed_of_field? hkeyed hgiven
    rw [Value.textKeyed_mapping] at hentries
    have hproperty := Mapping.textKeyed_of_field? hentries hdeclared
    rw [Value.textKeyed_mapping] at hproperty
    refine Mapping.textKeyed_insert hkeyed _ ?_
    rw [Value.textKeyed_mapping]
    refine Mapping.textKeyed_insert hentries _ ?_
    rw [Value.textKeyed_mapping]
    exact Mapping.textKeyed_insert hproperty _ (Value.textKeyed_scalar _)

/-! ## Edits of a component -/

variable {edit : Mapping → Mapping → Prop} {schema schema' : Mapping}

lemma mem_fragments_of_mem {part : Mapping} {items : List Value} {ring pring : Option Nat}
    (hparts : Mapping.field? schema "allOf" = some (.list items ring))
    (hpart : .mapping part pring ∈ items) (hfree : Mapping.field? part "$ref" = none) :
    part ∈ fragments schema := by
  rw [fragments, parts, hparts]
  refine List.mem_cons_of_mem _ (List.mem_filter.2 ⟨List.mem_filterMap.2 ⟨_, hpart, rfl⟩, ?_⟩)
  rw [Mapping.hasField_eq_isSome, hfree]
  rfl

namespace EditsFragment

lemma exists_edited (hedit : Concerns p edit) (h : EditsFragment edit schema schema') :
    ∃ fragment ∈ fragments schema, ∃ fragment' ∈ fragments schema', edit fragment fragment' := by
  cases h with
  | itself h => exact ⟨_, List.mem_cons_self, _, List.mem_cons_self, h⟩
  | part hgiven hfree h =>
      have hfree' := (hedit.kept h "$ref" (by decide) (by decide)).symm.trans hfree
      exact ⟨_, mem_fragments_of_mem hgiven List.mem_append_cons_self hfree, _,
        mem_fragments_of_mem (Mapping.field?_insert_self _ _ _) List.mem_append_cons_self hfree', h⟩

lemma schemaAlike (hedit : Concerns p edit) (h : EditsFragment edit schema schema') :
    Component.SchemaAlike p schema schema' := by
  cases h with
  | itself h =>
      refine ⟨hedit.alike h, hedit.kept h _ (by decide) (by decide), ?_⟩
      rw [hedit.kept h "allOf" (by decide) (by decide)]
      exact .same _
  | part hgiven hfree h =>
      have hfree' := (hedit.kept h "$ref" (by decide) (by decide)).symm.trans hfree
      have hsame : ∀ items, List.Forall₂ (Component.PartAlike p) items items := fun items =>
        List.forall₂_same.2 fun part _ => .same part
      refine ⟨Component.fragmentAlike_of_fields fun name hname => ?_, ?_, ?_⟩
      · refine (Mapping.field?_insert_of_ne ?_ _).symm
        rintro rfl
        simp at hname
      · rw [Mapping.field?_insert_of_ne (by decide)]
      · rw [Mapping.field?_insert_self, hgiven]
        exact .lists _ _ (List.rel_append (hsame _)
          (.cons (.fragment _ _ hfree hfree' (hedit.alike h)) (hsame _)))

lemma textKeyed (hedit : Concerns p edit) (h : EditsFragment edit schema schema')
    (hkeyed : Value.textKeyedEntries schema = true) : Value.textKeyedEntries schema' = true := by
  cases h with
  | itself h => exact hedit.textKeyed h hkeyed
  | part hgiven hfree h =>
      have hparts := Mapping.textKeyed_of_field? hkeyed hgiven
      rw [Value.textKeyed_list, Value.textKeyedItems_iff] at hparts
      refine Mapping.textKeyed_insert hkeyed _ ?_
      rw [Value.textKeyed_list, Value.textKeyedItems_iff]
      intro v hv
      rcases List.mem_append.1 hv with hv | hv
      · exact hparts v (List.mem_append_left _ hv)
      · rcases List.mem_cons.1 hv with rfl | hv
        · have hpart := hparts _ List.mem_append_cons_self
          rw [Value.textKeyed_mapping] at hpart ⊢
          exact hedit.textKeyed h hpart
        · exact hparts v (List.mem_append_right _ (List.mem_cons_of_mem _ hv))

end EditsFragment

/-! ## What the forms declare -/

lemma propertyIn?_of_field? {fragment entries property : Mapping} {ring pring : Option Nat}
    (hgiven : Mapping.field? fragment "properties" = some (.mapping entries ring))
    (hdeclared : Mapping.field? entries p = some (.mapping property pring)) :
    propertyIn? fragment p = some property := by
  rw [propertyIn?, hgiven]
  dsimp only
  rw [hdeclared]
  rfl

lemma MarksProperty.exists_propertyIn? {fragment fragment' : Mapping}
    (h : MarksProperty p fragment fragment') :
    ∃ property, propertyIn? fragment p = some property := by
  obtain ⟨_, _, _, _, hgiven, hdeclared, -⟩ := h
  exact ⟨_, propertyIn?_of_field? hgiven hdeclared⟩

lemma MarksProperty.marks {fragment fragment' : Mapping} (h : MarksProperty p fragment fragment') :
    Marks fragment' p := by
  obtain ⟨_, _, _, _, -, -, rfl⟩ := h
  exact ⟨_, propertyIn?_of_field? (Mapping.field?_insert_self _ _ _)
    (Mapping.field?_insert_self _ _ _), Mapping.field?_insert_self _ _ _⟩

lemma exists_property?_of_mem {fragment property : Mapping} (hmem : fragment ∈ fragments schema)
    (h : propertyIn? fragment p = some property) : ∃ m, property? schema p = some m := by
  rw [← Option.isSome_iff_exists, property?, List.isSome_findSome?, List.any_eq_true]
  exact ⟨fragment, List.mem_reverse.2 hmem, by rw [h]; rfl⟩

lemma Redeclares.declares (hp : p ≠ "") (h : Redeclares p schema schema') :
    Declares schema p ∧ Declares schema' p := by
  cases h with
  | inside h =>
      obtain ⟨fragment, hmem, fragment', hmem', hedit⟩ := h.exists_edited (concerns_namesInside hp)
      exact ⟨⟨fragment, hmem, Or.inl (.directly hedit.given)⟩, fragment', hmem', Or.inl hedit.names⟩
  | marked between dropped mark =>
      obtain ⟨fragment, hmem, _, -, hdrop⟩ := dropped.exists_edited (concerns_dropsName hp)
      obtain ⟨_, -, fragment', hmem', hmark⟩ := mark.exists_edited concerns_marksProperty
      exact ⟨⟨fragment, hmem, Or.inl (.directly hdrop.given)⟩, fragment', hmem',
        Or.inr hmark.marks⟩

lemma Redeclares.textKeyed (hp : p ≠ "") (h : Redeclares p schema schema')
    (hkeyed : Value.textKeyedEntries schema = true) : Value.textKeyedEntries schema' = true := by
  cases h with
  | inside h => exact h.textKeyed (concerns_namesInside hp) hkeyed
  | marked between dropped mark =>
      exact mark.textKeyed concerns_marksProperty
        (dropped.textKeyed (concerns_dropsName hp) hkeyed)

end Schema

/-! ## Descriptions -/

namespace Component

open Schema (Redeclares)

variable {p : String} {schema schema' property : Mapping}

/-- The two components say the same, except for `p` among the discriminators. -/
lemma alikeBut_of_redeclares (hp : p ≠ "") (hkeyed : Value.textKeyedEntries schema = true)
    (hproperty : Schema.property? schema p = some property) (h : Redeclares p schema schema')
    (home : Value) (keys : List Scalar) (key : Scalar) :
    EndAlike (· = ·) (AlikeBut p) (describe home keys (key, schema))
      (describe home keys (key, schema')) := by
  cases h with
  | inside h =>
      exact alike_describe home keys key (h.schemaAlike (Schema.concerns_namesInside hp)) hkeyed
        hproperty
  | marked between dropped mark =>
      -- Between the two edits `p` is still a property, because one of its declarations is marked.
      have hkeyed' := dropped.textKeyed (Schema.concerns_dropsName hp) hkeyed
      obtain ⟨fragment, hmem, _, -, hmark⟩ := mark.exists_edited Schema.concerns_marksProperty
      obtain ⟨_, hfragment⟩ := hmark.exists_propertyIn?
      obtain ⟨_, hproperty'⟩ := Schema.exists_property?_of_mem hmem hfragment
      have hdropped := alike_describe home keys key
        (dropped.schemaAlike (Schema.concerns_dropsName hp)) hkeyed hproperty
      have hmarked := alike_describe home keys key
        (mark.schemaAlike Schema.concerns_marksProperty) hkeyed' hproperty'
      exact (hdropped.trans hmarked).mono (fun _ _ ⟨_, he, he'⟩ => he.trans he')
        fun _ _ _ _ ⟨_, hc, hc'⟩ => hc.trans hc'

/-- **A component that redeclares its discriminator is described alike.** -/
lemma alike_of_redeclares (hp : p ≠ "") (hkeyed : Value.textKeyedEntries schema = true)
    (hproperty : Schema.property? schema p = some property) (h : Redeclares p schema schema')
    (home : Value) (keys : List Scalar) (key : Scalar) :
    EndAlike (· = ·) Alike (describe home keys (key, schema))
      (describe home keys (key, schema')) := by
  refine (alikeBut_of_redeclares hp hkeyed hproperty h home keys key).mono (fun _ _ he => he)
    fun c c' hc hc' hbut => ?_
  obtain ⟨hdescribes, -⟩ := describes_of_describe hkeyed hc
  obtain ⟨hdescribes', -⟩ := describes_of_describe (h.textKeyed hp hkeyed) hc'
  obtain ⟨hdeclares, hdeclares'⟩ := h.declares hp
  exact hbut.alike hdescribes.exists_text ((hdescribes.discriminator _).2 ⟨p, rfl, hdeclares⟩)
    ((hdescribes'.discriminator _).2 ⟨p, rfl, hdeclares'⟩)

end Component

/-! ## The same model -/

/-- An entry that is left as it is, is described alike. -/
lemma alike_schemaEntry {e : Scalar × Value} (hkeyed : e.2.textKeyed = true) :
    EndAlike (· = ·) DescribedAlike (Document.schemaEntry e) (Document.schemaEntry e) := by
  refine alike_of_eq (fun _ => rfl) rfl fun entry hentry => ⟨rfl, fun home keys => ?_⟩
  refine alike_of_eq (fun _ => rfl) rfl fun c hc => ?_
  obtain ⟨ring, rfl⟩ := Document.schemaEntry_eq_ok.1 hentry
  rw [Value.textKeyed_mapping] at hkeyed
  exact Component.alike_refl (Component.describes_of_describe hkeyed hc).1.exists_text

namespace ClassModel

/-- **The forms of a discriminator are equivalent.**  If a component names a discriminator, which is
one of its properties, and then declares it in another form, the document has the same model as
before.  If it has none, the evaluation fails as before, up to the order in which it reports the
several discriminators of one class. -/
theorem ofDocument_of_redeclares {doc doc' : Document}
    {before after schema schema' property : Mapping} {key : Scalar} {ring ring' : Option Nat}
    {p : String} (hdoc : doc.TextKeyed)
    (hschemas : doc.section? ["components", "schemas"] =
      .ok (before ++ (key, .mapping schema ring) :: after))
    (hschemas' : doc'.section? ["components", "schemas"] =
      .ok (before ++ (key, .mapping schema' ring') :: after))
    (hp : p ≠ "") (hproperty : Schema.property? schema p = some property)
    (h : Schema.Redeclares p schema schema') (home : Value) (registry : TypeRegistry)
    (accessibility : Accessibility) :
    EndAlike Failure.Alike (· = ·) (ofDocument doc home registry accessibility)
      (ofDocument doc' home registry accessibility) := by
  have hkeyed := hdoc.section? hschemas
  have hkept : ∀ e ∈ before ++ (key, .mapping schema ring) :: after, EndAlike (· = ·)
      DescribedAlike (Document.schemaEntry e) (Document.schemaEntry e) := fun e he =>
    alike_schemaEntry (Mapping.textKeyed_of_mem hkeyed he)
  have hschema := Mapping.textKeyed_of_mem hkeyed List.mem_append_cons_self
  rw [Value.textKeyed_mapping] at hschema
  have hedited : EndAlike (· = ·) DescribedAlike (Document.schemaEntry (key, .mapping schema ring))
      (Document.schemaEntry (key, .mapping schema' ring')) :=
    .ok ⟨rfl, fun home keys => Component.alike_of_redeclares hp hschema hproperty h home keys key⟩
  refine alike_ofDocument ?_ home registry accessibility
  rw [Document.schemas, Document.schemas, hschemas, hschemas']
  refine EndAlike.traverse (R := fun e e' => EndAlike (· = ·) DescribedAlike
    (Document.schemaEntry e) (Document.schemaEntry e')) ?_ fun _ _ he => he
  exact List.rel_append (List.forall₂_same.2 fun e he => hkept e (List.mem_append_left _ he))
    (.cons hedited (List.forall₂_same.2 fun e he =>
      hkept e (List.mem_append_right _ (List.mem_cons_of_mem _ he))))

/-- A part that declares a kind.  It may name its discriminator, and it may mark the kind. -/
def kindPart (named mark : Mapping) : Mapping :=
  named ++ [(.text "properties", .mapping [
    (.text "kind", .mapping ((.text "type", .text "string") :: mark))])]

/-- An animal with this part, and with another one that declares the kind again. -/
def stray (part : Mapping) : Mapping :=
  [(.text "allOf", .list [.mapping part, .mapping (kindPart [] [])])]

def cat : Mapping :=
  [(.text "allOf", .list [.mapping [(.text "$ref", .text "#/components/schemas/animal")]])]

def strays (part : Mapping) : Entries Scalar Mapping :=
  [(.text "cat", cat), (.text "animal", stray part)]

def namedKind : Mapping := kindPart [(.text "discriminator", .text "kind")] []

def markedKind : Mapping := kindPart [] [(.text discriminatorMark, .scalar (.bool true))]

lemma redeclares_stray : Schema.Redeclares "kind" (stray namedKind) (stray markedKind) := by
  have hparts : ∀ part, Mapping.field? (stray part) "allOf" =
      some (.list ([] ++ .mapping part :: [.mapping (kindPart [] [])])) := fun _ => rfl
  have hdrop : Schema.DropsName "kind" namedKind (kindPart [] []) := ⟨rfl, rfl⟩
  have hmark : Schema.MarksProperty "kind" (kindPart [] []) markedKind :=
    ⟨_, _, _, _, rfl, rfl, rfl⟩
  exact .marked (stray (kindPart [] [])) (.part (hparts _) rfl hdrop) (.part (hparts _) rfl hmark)

theorem ofDocument_of_strays :
    (Document.ofSchemas (strays namedKind)).TextKeyed ∧
    Schema.Redeclares "kind" (stray namedKind) (stray markedKind) ∧
    EndAlike Failure.Alike (· = ·)
      (ofDocument (.ofSchemas (strays namedKind)) (.text "App") {} .owner)
      (ofDocument (.ofSchemas (strays markedKind)) (.text "App") {} .owner) ∧
    ∃ m, ofDocument (.ofSchemas (strays markedKind)) (.text "App") {} .owner = .ok m ∧
      m.classes.map (fun c => (c.name, c.discriminatorName.map Scalar.display)) =
        [("Cat", some "kind"), ("Animal", some "kind")] := by
  have hkeyed : (Document.ofSchemas (strays namedKind)).TextKeyed := by decide
  have hschemas : ∀ part, (Document.ofSchemas (strays part)).section? ["components", "schemas"] =
      .ok ([(.text "cat", .mapping cat)] ++ (.text "animal", .mapping (stray part)) :: []) :=
    fun _ => rfl
  refine ⟨hkeyed, redeclares_stray, ?_, exists_ok_of_toOption (by decide +kernel)⟩
  exact ofDocument_of_redeclares hkeyed (hschemas _) (hschemas _) (by decide) rfl
    redeclares_stray (.text "App") {} .owner

end ClassModel

end SchemaClasses
