import SchemaClasses.Proofs.ClassFiles
import SchemaClasses.Proofs.Neighbours

/-!
# Adding a component

A component that is added to a document, at any place, touches only the files it must.  The file of
a class shows its chain of bases, the types of its variables and its subclasses; none of these sees
a component that has a key and a class name of its own, unless the component extends the class.

`artifacts_of_inserted` compares the files of two runs.  A type name could go over to the new
component only if that were found first, which the two conditions on its key and on its class name
exclude (`Named.insert`); that its class name is new is what the check of the paths ensures.
-/

namespace SchemaClasses

open Lineage (Components find?)
open Schema (Target Named)

/-! ## The components of both documents -/

/-- A type name stands for what it did, if a component comes in that it cannot mean. -/
lemma Schema.Named.insert {registry : TypeRegistry} {before after : List Scalar}
    {key name : String} {target : Target}
    (hkey : ∀ k ∈ before ++ after, Text.pascalCase k.display ≠ key)
    (hname : ∀ k ∈ before ++ after, Text.pascalCase k.display ≠ Text.pascalCase key)
    (h : Named registry (before ++ after) name target) :
    Named registry (before ++ .text key :: after) name target := by
  cases h with
  | builtIn known => exact .builtIn known
  | key foreign known =>
      exact .key foreign (((List.sublist_cons_self _ after).append_left before).subset known)
  | className foreign unknown first =>
      have hmem := List.mem_of_find?_eq_some first
      have hfound := List.find?_some first
      rw [beq_iff_eq] at hfound
      refine .className foreign (fun hmem' => ?_) ?_
      · rcases List.mem_append.1 hmem' with hbefore | hafter
        · exact unknown (List.mem_append_left _ hbefore)
        · rcases List.mem_cons.1 hafter with hnew | hafter
          · exact hkey _ hmem (hfound.trans (Scalar.text.inj hnew))
          · exact unknown (List.mem_append_right _ hafter)
      · have hnew : (Text.pascalCase (Scalar.text key).display == name) = false := by
          rw [beq_eq_false_iff_ne, ← hfound]
          exact (hname _ hmem).symm
        rw [List.find?_append] at first ⊢
        rw [List.find?_cons, hnew]
        exact first

lemma Entries.TextKeys.insert {before after : Entries Scalar Mapping} {key : String}
    {schema : Mapping} (h : Entries.TextKeys (before ++ after))
    (hkey : Scalar.text key ∉ Entries.keys (before ++ after)) :
    Entries.TextKeys (before ++ (.text key, schema) :: after) := by
  have hperm : ((.text key, schema) :: (before ++ after)).Perm
      (before ++ (.text key, schema) :: after) := List.perm_middle.symm
  refine ⟨fun entry hentry => ?_, ?_⟩
  · rcases List.mem_cons.1 (hperm.mem_iff.2 hentry) with rfl | hentry
    · exact ⟨key, rfl⟩
    · exact h.1 entry hentry
  · rw [← (hperm.map _).nodup_iff, List.map_cons, List.nodup_cons]
    exact ⟨hkey, h.2⟩

lemma Document.schemas_of_insert {doc doc' : Document} {before after : Mapping}
    {entry : Scalar × Value} {schemas schemas' : Entries Scalar Mapping}
    (hentries : doc.section? ["components", "schemas"] = .ok (before ++ after))
    (hentries' : doc'.section? ["components", "schemas"] = .ok (before ++ entry :: after))
    (h : doc.schemas = .ok schemas) (h' : doc'.schemas = .ok schemas') :
    ∃ first schema last ring, entry.2 = .mapping schema ring ∧ schemas = first ++ last ∧
      schemas' = first ++ (entry.1, schema) :: last := by
  rw [Document.schemas, hentries] at h
  rw [Document.schemas, hentries'] at h'
  have hunique : Relator.RightUnique fun (e : Scalar × Value) e' => schemaEntry e = .ok e' :=
    fun e a b ha hb => Except.ok.inj (ha.symm.trans hb)
  obtain ⟨first, ⟨key, schema⟩, last, rfl, rfl, hentry⟩ :=
    exists_insert_of_forall₂ hunique (traverse_eq_ok_iff.1 h) (traverse_eq_ok_iff.1 h')
  obtain ⟨ring, rfl⟩ := schemaEntry_eq_ok.1 hentry
  exact ⟨first, schema, last, ring, rfl, rfl, rfl⟩

namespace ClassModel

variable {home : Value} {first last : Entries Scalar Mapping} {entry : Scalar × Mapping}
  {components components' : Components}

/-- The components of the larger document are those of the other, and one more in its place. -/
lemma Lays.of_insert (h : Lays home (first ++ last) components)
    (h' : Lays home (first ++ entry :: last) components') :
    ∃ before new after, components = before ++ after ∧ components' = before ++ new :: after ∧
      Component.MadeFrom home (Entries.keys (first ++ entry :: last)) entry new := by
  have hsub : Entries.keys (first ++ last) ⊆ Entries.keys (first ++ entry :: last) :=
    (((List.sublist_cons_self entry last).append_left first).map _).subset
  refine exists_insert_of_forall₂ (fun e a b ha hb => ha.unique hb)
    ((lays_iff.1 h).1.imp fun _ _ hc => hc.mono hsub) (lays_iff.1 h').1

/-- Type names stand for what they did, if the class of the new component has a name of its own. -/
lemma Lays.named_of_insert {registry : TypeRegistry} {key : String}
    (h : Lays home (first ++ last) components) (hkey : entry.1 = .text key)
    (hfree : ∀ k ∈ Entries.keys (first ++ last), Text.pascalCase k.display ≠ key)
    (hname : ∀ c ∈ components, c.className ≠ Text.pascalCase key) (name : String)
    (target : Target) (hnamed : Named registry (Entries.keys (first ++ last)) name target) :
    Named registry (Entries.keys (first ++ entry :: last)) name target := by
  have hkeys : Entries.keys (first ++ last) = Entries.keys first ++ Entries.keys last :=
    List.map_append
  have hkeys' : Entries.keys (first ++ entry :: last) =
      Entries.keys first ++ .text key :: Entries.keys last := by
    rw [← hkey]
    exact List.map_append
  have hothers : ∀ k ∈ Entries.keys (first ++ last),
      Text.pascalCase k.display ≠ Text.pascalCase key := by
    intro k hk
    rw [h.keys_eq] at hk
    obtain ⟨c, hc, rfl⟩ := List.mem_map.1 hk
    exact h.className_eq hc ▸ hname c hc
  rw [hkeys] at hfree hothers hnamed
  rw [hkeys']
  exact hnamed.insert hfree hothers

lemma className_ne_of_forall₂ {scope : Scope} {before after : Components}
    {new : Component Scalar} {classes : List ClassDef}
    (hall : List.Forall₂ scope.Realizes (before ++ new :: after) classes)
    (hdistinct : classes.Pairwise fun c d => c.name ≠ d.name) :
    ∀ c ∈ before ++ after, c.className ≠ new.className := by
  have hnames : (before ++ new :: after).Pairwise fun c d => c.className ≠ d.className := by
    refine (pairwise_iff_of_forall₂ hall ?_).2 hdistinct
    rintro c d c' d' ⟨_, hd⟩ ⟨_, hd'⟩
    rw [hd.assembled.name, hd'.assembled.name]
  obtain ⟨hnew, -⟩ := List.pairwise_cons.1 (List.perm_middle.pairwise hnames Ne.symm)
  exact fun c hc => (hnew c hc).symm

end ClassModel

/-! ## The files of both runs -/

namespace Scope

variable {scope scope' : Scope} {keys keys' : List Scalar} {c : Component Scalar}
  {d d' : ClassDef}

/-- **A class is written as before** if type names mean what they did and no child is added. -/
lemma Wider.classText_eq (hwider : scope.Wider keys scope' keys')
    (hnamed : ∀ name target, Named scope.registry keys name target →
      Named scope.registry keys' name target)
    (hchildren : scope'.components.filter (·.base == some c.key) =
      scope.components.filter (·.base == some c.key))
    (hd : scope.Realizes c d) (hd' : scope'.Realizes c d') (language : Language)
    (settings : Settings) :
    language.classText settings d' = language.classText settings d := by
  obtain ⟨ancestors, hd, hd'⟩ := hwider.realizesAlong hd hd'
  have hassembled := hd.assembled
  have hassembled' := hd'.assembled
  have hsuper := congrArg (Option.map Prod.snd) (hd'.superClass_eq.trans hd.superClass_eq.symm)
  rw [Option.map_map, Option.map_map] at hsuper
  have hvariables := traverse_eq_ok_iff.2 (hassembled.instanceVariables.imp fun property v hv =>
    hwider.variableOf_of_named hv fun name target _ => hnamed name target)
  rw [traverse_eq_ok_iff.2 hassembled'.instanceVariables, Except.ok.injEq] at hvariables
  have hsubclasses := hassembled.subclasses
  rw [subclassesOf, ← hchildren, ← subclassesOf, hassembled'.subclasses, Except.ok.injEq]
    at hsubclasses
  exact Language.classText_congr (hassembled'.name.trans hassembled.name.symm)
    (hassembled'.package.trans hassembled.package.symm) hsuper hvariables hsubclasses
    (hassembled'.discriminatorName.trans hassembled.discriminatorName.symm)

end Scope

namespace ClassModel

variable {doc doc' : Document} {before after : Mapping} {key : String} {v : Value} {home : Value}
  {registry : TypeRegistry} {accessibility : Accessibility} {m m' : ClassModel}

/-- The classes of the larger document are those of the other, and one more in its place.  All of
them are written as before but the one that the new component extends. -/
lemma classes_of_inserted (hdoc : doc.TextKeyed)
    (hentries : doc.section? ["components", "schemas"] = .ok (before ++ after))
    (hentries' : doc'.section? ["components", "schemas"] = .ok (before ++ (.text key, v) :: after))
    (hkey : Scalar.text key ∉ Entries.keys (before ++ after))
    (hname : ∀ k ∈ Entries.keys (before ++ after), Text.pascalCase k.display ≠ key)
    (hm : ofDocument doc home registry accessibility = .ok m)
    (hm' : ofDocument doc' home registry accessibility = .ok m')
    (hdistinct : m'.classes.Pairwise fun c d => c.name ≠ d.name) :
    ∃ schema ring classes new classes', v = .mapping schema ring ∧
      m'.classes = classes ++ new :: classes' ∧
      List.Forall₂ (fun d d' => d'.name = d.name ∧
        ((∃ base, Schema.Extends schema base ∧ d.name = Text.pascalCase base) ∨
          ∀ language settings,
            Language.classText language settings d' = Language.classText language settings d))
        m.classes (classes ++ classes') := by
  obtain ⟨schemas, hschemas⟩ := exists_schemas hm
  obtain ⟨schemas', hschemas'⟩ := exists_schemas hm'
  have htexts := Document.textKeys_schemas hdoc hschemas
  rw [← Document.keys_schemas hentries hschemas] at hkey hname
  obtain ⟨first, schema, last, ring, rfl, rfl, rfl⟩ :=
    Document.schemas_of_insert hentries hentries' hschemas hschemas'
  have htexts' : Entries.TextKeys (first ++ (.text key, schema) :: last) := htexts.insert hkey
  obtain ⟨components, hlays, hall⟩ := (ofDocument_of_textKeys htexts hschemas).1 hm
  obtain ⟨components', hlays', hall'⟩ := (ofDocument_of_textKeys htexts' hschemas').1 hm'
  obtain ⟨cs, n, cs', rfl, rfl, hn⟩ := hlays.of_insert hlays'
  have hwider := wider_scopeOf registry accessibility htexts htexts' hlays'
    (((List.sublist_cons_self _ last).append_left first).map _).subset
    ((List.sublist_cons_self n cs').append_left cs).subset
  obtain ⟨hnew, hcalled, hextends⟩ := hn.names
  have hnamed : ∀ name target, Named registry (Entries.keys (first ++ last)) name target →
      Named registry (Entries.keys (first ++ (.text key, schema) :: last)) name target := by
    refine hlays.named_of_insert rfl hname fun c hc => ?_
    rw [Scalar.text.inj hnew, ← hcalled]
    exact className_ne_of_forall₂ hall' hdistinct c hc
  obtain ⟨classes, rest, hclasses, hfirst, hrest⟩ := exists_append_of_forall₂ hall'
  cases hrest with
  | @cons _ new _ classes' _ hlast =>
      refine ⟨schema, ring, classes, new, classes', rfl, hclasses, ?_⟩
      have hpairs := forall₂_comp.1 ⟨_, hall.flip, (List.forall₂_and_left _ _).2
        ⟨fun _ hc => hc, List.rel_append hfirst hlast⟩⟩
      refine hpairs.imp ?_
      rintro d d' ⟨c, hd, hc, hd'⟩
      refine ⟨?_, ?_⟩
      · obtain ⟨_, hd⟩ := hd
        obtain ⟨_, hd'⟩ := hd'
        exact hd'.assembled.name.trans hd.assembled.name.symm
      · by_cases hbase : n.base = some c.key
        · obtain ⟨_, hd⟩ := hd
          refine Or.inl ⟨c.key, (hextends c.key).1 hbase, ?_⟩
          rw [hd.assembled.name, hlays.className_eq hc]
        · refine Or.inr fun language settings => ?_
          refine hwider.classText_eq hnamed ?_ hd hd' language settings
          rw [List.filter_append, List.filter_append, List.filter_cons_of_neg (by simpa using hbase)]

end ClassModel

namespace Generation

/-- What two lists give in common, element by element, but for some lost ones. -/
lemma exists_kept {α β : Type} {f : α → Option β} {lost : α → Prop} {as as' : List α}
    (h : List.Forall₂ (fun a a' => lost a ∨ f a' = f a) as as') :
    ∃ kept : List β, kept.Sublist (as.filterMap f) ∧ kept.Sublist (as'.filterMap f) ∧
      ∀ a ∈ as, ∀ b, f a = some b → b ∈ kept ∨ lost a := by
  induction h with
  | nil => exact ⟨[], .slnil, .slnil, by simp⟩
  | @cons a a' as as' ha _ ih =>
      obtain ⟨kept, hkept, hkept', hall⟩ := ih
      rcases ha with hlost | hsame
      · refine ⟨kept, hkept.trans ((List.sublist_cons_self a as).filterMap f),
          hkept'.trans ((List.sublist_cons_self a' as').filterMap f), ?_⟩
        exact List.forall_mem_cons.2 ⟨fun _ _ => Or.inr hlost, hall⟩
      · cases hfa : f a with
        | none =>
            rw [hfa] at hsame
            rw [List.filterMap_cons_none hfa, List.filterMap_cons_none hsame]
            refine ⟨kept, hkept, hkept', List.forall_mem_cons.2 ⟨fun b hb => ?_, hall⟩⟩
            rw [hfa] at hb
            cases hb
        | some b =>
            rw [hfa] at hsame
            rw [List.filterMap_cons_some hfa, List.filterMap_cons_some hsame]
            refine ⟨b :: kept, hkept.cons_cons b, hkept'.cons_cons b,
              List.forall_mem_cons.2 ⟨fun b' hb' => ?_, fun c hc b' hb' => ?_⟩⟩
            · rw [hfa] at hb'
              exact Or.inl (Option.some.inj hb' ▸ List.mem_cons_self)
            · exact (hall c hc b' hb').imp_left (List.mem_cons_of_mem b)

variable {doc doc' : Document} {before after : Mapping} {key : String} {v : Value}
  {registry : TypeRegistry} {language : Language} {settings : Settings} {g g' : Generated Failure}

/-- **Adding a component touches only the files it must.**  The files of the classes are as before
and in the same order, in both runs before the project files; only the class that the new component
extends may have another file. -/
theorem artifacts_of_inserted (hdoc : doc.TextKeyed)
    (hentries : doc.section? ["components", "schemas"] = .ok (before ++ after))
    (hentries' : doc'.section? ["components", "schemas"] = .ok (before ++ (.text key, v) :: after))
    (hkey : Scalar.text key ∉ Entries.keys (before ++ after))
    (hname : ∀ k ∈ Entries.keys (before ++ after), Text.pascalCase k.display ≠ key)
    (h : ofDocument doc registry language settings = .ok g)
    (h' : ofDocument doc' registry language settings = .ok g') :
    ∃ (schema : Mapping) (ring : Option Nat) (files files' others others' kept : List Artifact),
      v = .mapping schema ring ∧ g.artifacts = files ++ others ∧ g'.artifacts = files' ++ others' ∧
      others.map (·.path) = language.projectFiles ∧ others'.map (·.path) = language.projectFiles ∧
      kept.Sublist files ∧ kept.Sublist files' ∧
      ∀ a ∈ files, a ∈ kept ∨ ∃ base, Schema.Extends schema base ∧
        a.path = language.sourceDirectory ++ "/" ++ language.fileName (Text.pascalCase base) := by
  obtain ⟨m, others, hm, -, hothers, hartifacts⟩ := ofDocument_eq_ok h
  obtain ⟨m', others', hm', hdistinct, hothers', hartifacts'⟩ := ofDocument_eq_ok h'
  obtain ⟨schema, ring, classes, new, classes', rfl, hclasses, hpairs⟩ :=
    ClassModel.classes_of_inserted hdoc hentries hentries' hkey hname hm hm' hdistinct
  have hsame : List.Forall₂ (fun d d' =>
      (∃ base, Schema.Extends schema base ∧ d.name = Text.pascalCase base) ∨
        artifact? (pathIn language) (writer language settings) d' =
          artifact? (pathIn language) (writer language settings) d)
      m.classes (classes ++ classes') :=
    hpairs.imp fun d d' ⟨hname, htext⟩ =>
      htext.imp_right fun htext => artifact?_congr hname (htext language settings)
  obtain ⟨kept, hkept, hkept', hall⟩ := exists_kept hsame
  refine ⟨schema, ring, _, _, others, others', kept, rfl, hartifacts, hartifacts', hothers,
    hothers', hkept, ?_, fun a ha => ?_⟩
  · rw [hclasses]
    exact hkept'.trans (((List.sublist_cons_self new classes').append_left classes).filterMap _)
  · obtain ⟨d, hd, hfile⟩ := List.mem_filterMap.1 ha
    refine (hall d hd a hfile).imp_right ?_
    rintro ⟨base, hextends, hname⟩
    exact ⟨base, hextends, by rw [path_of_artifact? hfile, pathIn_eq, hname]⟩

/-! ## A dog among cats -/

def cats : Entries Scalar Mapping := [
  (.text "animal", [
    (.text "discriminator", .text "kind"),
    (.text "properties", .mapping [(.text "kind", .mapping [(.text "type", .text "string")])])]),
  (.text "cat", [(.text "allOf", .list [
    .mapping [(.text "$ref", .text "#/components/schemas/animal")]])])]

/-- The pet of an owner has the class name of a component for its type. -/
def owners : Entries Scalar Mapping := [
  (.text "owner", [
    (.text "properties", .mapping [(.text "pet", .mapping [(.text "type", .text "Cat")])])])]

def dog : Mapping := [(.text "allOf", .list [
  .mapping [(.text "$ref", .text "#/components/schemas/animal")]])]

theorem artifacts_of_inserted_dog :
    (Document.ofSchemas (cats ++ owners)).TextKeyed ∧
    Scalar.text "dog" ∉ Entries.keys (cats ++ owners) ∧
    (∀ k ∈ Entries.keys (cats ++ owners), Text.pascalCase k.display ≠ "dog") ∧
    ∃ g g', ofDocument (.ofSchemas (cats ++ owners)) {} .php {} = .ok g ∧
      ofDocument (.ofSchemas (cats ++ (.text "dog", dog) :: owners)) {} .php {} = .ok g' ∧
      g.artifacts.map (·.path) = ["src/Animal.class.php", "src/Cat.class.php",
        "src/Owner.class.php", "README.md", "composer.json"] ∧
      g'.artifacts.map (·.path) = ["src/Animal.class.php", "src/Cat.class.php",
        "src/Dog.class.php", "src/Owner.class.php", "README.md", "composer.json"] ∧
      ∃ files files' others others' kept : List Artifact,
        g.artifacts = files ++ others ∧ g'.artifacts = files' ++ others' ∧
        others.map (·.path) = ["README.md", "composer.json"] ∧
        others'.map (·.path) = ["README.md", "composer.json"] ∧
        kept.Sublist files ∧ kept.Sublist files' ∧
        ∀ a ∈ files, a ∈ kept ∨ ∃ base, Schema.Extends dog base ∧
          a.path = "src/" ++ Language.php.fileName (Text.pascalCase base) := by
  have hkeyed : (Document.ofSchemas (cats ++ owners)).TextKeyed := by decide
  have hkey : Scalar.text "dog" ∉ Entries.keys (cats ++ owners) := by
    simp [cats, owners, Entries.keys]
  have hname : ∀ k ∈ Entries.keys (cats ++ owners), Text.pascalCase k.display ≠ "dog" := by
    decide +kernel
  have hpaths : ∃ g, ofDocument (.ofSchemas (cats ++ owners)) {} .php {} = .ok g ∧
      g.artifacts.map (·.path) = ["src/Animal.class.php", "src/Cat.class.php",
        "src/Owner.class.php", "README.md", "composer.json"] :=
    exists_ok_of_toOption (by decide +kernel)
  have hpaths' : ∃ g, ofDocument (.ofSchemas (cats ++ (.text "dog", dog) :: owners)) {} .php {} =
      .ok g ∧ g.artifacts.map (·.path) = ["src/Animal.class.php", "src/Cat.class.php",
        "src/Dog.class.php", "src/Owner.class.php", "README.md", "composer.json"] :=
    exists_ok_of_toOption (by decide +kernel)
  obtain ⟨g, hg, hpaths⟩ := hpaths
  obtain ⟨g', hg', hpaths'⟩ := hpaths'
  let values := List.map fun entry : Scalar × Mapping => (entry.1, Value.mapping entry.2)
  have hentries : (Document.ofSchemas (cats ++ owners)).section? ["components", "schemas"] =
      .ok (values cats ++ values owners) := rfl
  have hentries' : (Document.ofSchemas (cats ++ (.text "dog", dog) :: owners)).section?
      ["components", "schemas"] =
      .ok (values cats ++ (.text "dog", .mapping dog) :: values owners) := rfl
  obtain ⟨schema, ring, files, files', others, others', kept, hdog, hkept⟩ :=
    artifacts_of_inserted hkeyed hentries hentries' hkey hname hg hg'
  obtain ⟨rfl, -⟩ := Value.mapping.inj hdog
  exact ⟨hkeyed, hkey, hname, g, g', hg, hg', hpaths, hpaths', files, files', others, others',
    kept, hkept⟩

end Generation

end SchemaClasses
