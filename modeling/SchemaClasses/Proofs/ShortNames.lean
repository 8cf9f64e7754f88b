import SchemaClasses.Proofs.ClassFiles
import SchemaClasses.Proofs.Imports

/-!
# Short names in PHP

A PHP file writes classes by the last segment of their full names, and an import makes such a short
name stand for a full one.  A file is clear if no short name stands for two: no two imports end
alike, and none ends like the class that the file declares.

Classes of one run have different names, whatever packages they are in, as each has a file of its
own.  So what a class mentions cannot be confused.  But a class with subclasses also imports the
annotation, which no component stands for, and nothing keeps components from its name: `Shadows`
says when it meets another class, and `unambiguous_iff` that nothing else can go wrong.
-/

namespace SchemaClasses

/-! ## Last segments -/

namespace Php

open SchemaClasses.Language (php)

/-- The last segment of a full name. -/
def shortName (name : String) : String :=
  String.ofList ((Text.splitAt '\\' name.toList).getLast?.getD [])

lemma shortName_spelling {t : TypeRef} (h : '\\' ∉ t.name.toList) :
    shortName (php.spelling t) = t.name := by
  have hchars : (php.spelling t).toList = (php.space t).toList ++ '\\' :: t.name.toList := by
    simp [Language.spelling, Language.separator]
  rw [shortName, hchars, Text.splitAt_append_cons, Text.splitAt_of_not_mem h,
    List.getLast?_append, List.getLast?_singleton]
  exact String.ofList_toList

lemma shortName_annotationClass : shortName annotationClass = "Discriminator" := by decide

/-! ## What a class writes -/

variable {c : ClassDef}

/-- **A class writes short names for full ones**: its own, those of the types it mentions, and that
of the annotation if it has subclasses. -/
inductive Writes (c : ClassDef) : String → String → Prop where
  | type {t : TypeRef} (named : t = c.type ∨ c.Mentions t) : Writes c t.name (php.spelling t)
  | annotated (selects : c.subclasses ≠ []) : Writes c "Discriminator" annotationClass

/-- A class whose annotation has the name of another class that its file declares or imports. -/
def Shadows (c : ClassDef) : Prop :=
  c.subclasses ≠ [] ∧ (c.name = "Discriminator" ∨
    ∃ t, c.Mentions t ∧ t.name = "Discriminator" ∧ php.spelling t ≠ annotationClass)

/-- No two imports end alike, and none ends like the class itself. -/
def Unambiguous (c : ClassDef) : Prop :=
  ((importedNames c).map shortName).Nodup ∧ c.name ∉ (importedNames c).map shortName

/-- A class tells the types that it names apart by their names, which are single segments. -/
structure TellsApart (c : ClassDef) : Prop where
  segment : ∀ t, t = c.type ∨ c.Mentions t → '\\' ∉ t.name.toList
  distinct : ∀ t t', t = c.type ∨ c.Mentions t → t' = c.type ∨ c.Mentions t' →
    t.name = t'.name → t = t'
  other : ¬ c.Mentions c.type

/-- An imported name is written by its last segment. -/
lemma TellsApart.writes_of_mem (h : TellsApart c) (hc : ∃ p, c.package = .text p) {name : String}
    (hname : name ∈ importedNames c) : Writes c (shortName name) name := by
  rcases mem_importedNames_iff.1 hname with ⟨t, ht, rfl⟩ | ⟨hselects, rfl⟩
  · have hmentions := (ClassDef.mem_mentionedTypes_iff hc).1 ht
    rw [shortName_spelling (h.segment t (Or.inr hmentions))]
    exact .type (Or.inr hmentions)
  · rw [shortName_annotationClass]
    exact .annotated hselects

/-- What a class writes is its own name or imported. -/
lemma TellsApart.mem_of_writes (h : TellsApart c) (hc : ∃ p, c.package = .text p)
    {short full : String} (hwrites : Writes c short full) :
    full ∈ php.spelling c.type :: importedNames c ∧ shortName full = short := by
  cases hwrites with
  | @type t named =>
      refine ⟨?_, shortName_spelling (h.segment t named)⟩
      rcases named with rfl | hmentions
      · exact List.mem_cons_self
      · exact List.mem_cons_of_mem _ (mem_importedNames_iff.2
          (Or.inl ⟨t, (ClassDef.mem_mentionedTypes_iff hc).2 hmentions, rfl⟩))
  | annotated selects =>
      exact ⟨List.mem_cons_of_mem _ (mem_importedNames_iff.2 (Or.inr ⟨selects, rfl⟩)),
        shortName_annotationClass⟩

/-- Without a shadow, a short name is written for one full name only. -/
lemma TellsApart.eq_of_writes (h : TellsApart c) (hclear : ¬ Shadows c) {short full full' : String}
    (hwrites : Writes c short full) (hwrites' : Writes c short full') : full = full' := by
  have hannotated : ∀ t, t = c.type ∨ c.Mentions t → t.name = "Discriminator" →
      c.subclasses ≠ [] → php.spelling t = annotationClass := by
    intro t hnamed hname hselects
    by_contra hne
    rcases hnamed with rfl | hmentions
    · exact hclear ⟨hselects, Or.inl hname⟩
    · exact hclear ⟨hselects, Or.inr ⟨t, hmentions, hname, hne⟩⟩
  generalize hshort : short = s at hwrites'
  cases hwrites with
  | type named =>
      cases hwrites' with
      | type named' => rw [h.distinct _ _ named named' hshort]
      | annotated selects => exact hannotated _ named hshort selects
  | annotated selects =>
      cases hwrites' with
      | type named' => exact (hannotated _ named' hshort.symm selects).symm
      | annotated _ => rfl

/-- **The short names of a class are unambiguous exactly if its annotation shadows no class.** -/
theorem TellsApart.unambiguous_iff (h : TellsApart c) (hc : ∃ p, c.package = .text p) :
    Unambiguous c ↔ ¬ Shadows c := by
  constructor
  · rintro ⟨hdistinct, hown⟩ ⟨hselects, hclash⟩
    have hannotated : annotationClass ∈ importedNames c :=
      mem_importedNames_iff.2 (Or.inr ⟨hselects, rfl⟩)
    rcases hclash with hname | ⟨t, hmentions, hname, hne⟩
    · refine hown (List.mem_map.2 ⟨_, hannotated, ?_⟩)
      rw [shortName_annotationClass, hname]
    · refine hne (List.inj_on_of_nodup_map hdistinct ?_ hannotated ?_)
      · exact mem_importedNames_iff.2
          (Or.inl ⟨t, (ClassDef.mem_mentionedTypes_iff hc).2 hmentions, rfl⟩)
      · rw [shortName_spelling (h.segment t (Or.inr hmentions)), hname, shortName_annotationClass]
  · intro hclear
    refine ⟨(nodup_eraseDups _).map_on fun name hname name' hname' hsame => ?_, fun hmem => ?_⟩
    · have hwrites := h.writes_of_mem hc hname
      rw [hsame] at hwrites
      exact h.eq_of_writes hclear hwrites (h.writes_of_mem hc hname')
    · obtain ⟨name, hname, hshort⟩ := List.mem_map.1 hmem
      rcases mem_importedNames_iff.1 hname with ⟨t, ht, rfl⟩ | ⟨hselects, rfl⟩
      · have hmentions := (ClassDef.mem_mentionedTypes_iff hc).1 ht
        rw [shortName_spelling (h.segment t (Or.inr hmentions))] at hshort
        have hsame := h.distinct t c.type (Or.inr hmentions) (Or.inl rfl) hshort
        exact h.other (hsame ▸ hmentions)
      · rw [shortName_annotationClass] at hshort
        exact hclear ⟨hselects, Or.inl hshort.symm⟩

end Php

/-! ## Classes that have been written -/

/-- Every item of a list has an equal one in its ordered set. -/
lemma OrderedSet.exists_beq_of_mem {α : Type} [BEq α] [ReflBEq α] {as : List α} {a : α}
    (ha : a ∈ as) : ∃ b ∈ (ofList as).items, (b == a) = true := by
  induction as using List.reverseRecOn with
  | nil => cases ha
  | append_singleton as x ih =>
      rw [ofList_concat, items_insert]
      rcases List.mem_append.1 ha with ha | ha
      · obtain ⟨b, hb, hba⟩ := ih ha
        refine ⟨b, ?_, hba⟩
        split
        · exact hb
        · exact List.mem_append_left _ hb
      · obtain rfl := List.mem_singleton.1 ha
        split
        · rename_i hcontains
          rw [contains_eq_any] at hcontains
          exact List.any_eq_true.1 hcontains
        · exact ⟨a, by simp, beq_self_eq_true a⟩

instance : ReflBEq TypeRef where
  rfl {t} := by
    have hbeq : (t == t) = (t.name == t.name && (t.package == t.package &&
        t.isBuiltIn == t.isBuiltIn)) := rfl
    simp [hbeq]

lemma TypeRef.package_of_beq {t t' : TypeRef} (h : (t == t') = true) :
    (t.package == t'.package) = true := by
  have hbeq : (t == t') = (t.name == t'.name && (t.package == t'.package &&
      t.isBuiltIn == t'.isBuiltIn)) := rfl
  rw [hbeq, Bool.and_eq_true, Bool.and_eq_true] at h
  exact h.2.1

namespace Language

variable {language : Language} {settings : Settings} {c : ClassDef} {text : String}

lemma text_of_typeNamespace {t : TypeRef} {space : String}
    (h : language.typeNamespace t = .ok space) : ∃ p, t.package = .text p := by
  rw [typeNamespace] at h
  cases hpackage : t.package with
  | text p => exact ⟨p, rfl⟩
  | _ => simp [hpackage, packageNamespace] at h

/-- A class that has been written is in a package that is a text, and so is what it mentions. -/
lemma texts_of_classText (h : php.classText settings c = .ok text) :
    (∃ p, c.package = .text p) ∧ ∀ t ∈ c.mentionedTypes, ∃ p, t.package = .text p := by
  simp only [classText, map_eq_ok, ClassFile.fragments, bind_eq_ok] at h
  obtain ⟨file, ⟨line, hline, block, hblock, -⟩, -⟩ := h
  obtain ⟨space, hspace, -⟩ := map_eq_ok.1 hline
  refine ⟨text_of_typeNamespace hspace, fun t ht => ?_⟩
  rw [uses, Php.uses, bind_eq_ok] at hblock
  obtain ⟨names, hnames, -⟩ := hblock
  obtain ⟨b, hb, hbt⟩ := OrderedSet.exists_beq_of_mem ht
  obtain ⟨name, -, hname⟩ := forall₂_left (traverse_eq_ok_iff.1 hnames) hb
  obtain ⟨space, hspace, -⟩ := map_eq_ok.1 hname
  obtain ⟨p, hp⟩ := text_of_typeNamespace hspace
  have hsame := TypeRef.package_of_beq hbt
  rw [hp, Scalar.text_beq] at hsame
  exact ⟨p, hsame⟩

end Language

/-! ## Runs -/

namespace ClassModel

variable {doc : Document} {home : Value} {registry : TypeRegistry}
  {accessibility : Accessibility} {m : ClassModel} {c : ClassDef}

/-- No class extends itself. -/
lemma superClass_type_ne (hdoc : doc.TextKeyed)
    (h : ofDocument doc home registry accessibility = .ok m) (hc : c ∈ m.classes) {s : ClassDef}
    (hs : c.superClass = some s) : s.type ≠ c.type := by
  obtain ⟨schemas, components, -, hblueprint, hall⟩ := blueprint_of_ofDocument hdoc h
  obtain ⟨e, -, hrealizes⟩ := forall₂_right hall hc
  have hdistinct := pairwise_ancestors hblueprint.distinct hall hrealizes
  rw [ClassDef.ancestors_of_some hs, List.pairwise_cons] at hdistinct
  have hdiffer := hdistinct.1 s List.mem_cons_self
  intro hsame
  rw [ClassDef.type, ClassDef.type, TypeRef.mk.injEq] at hsame
  simp [ClassDef.sameKey, hsame.1, hsame.2.1] at hdiffer

/-- Classes of different names tell apart what they mention. -/
lemma tellsApart_of_mem (hdoc : doc.TextKeyed)
    (h : ofDocument doc home registry accessibility = .ok m)
    (hnames : m.classes.Pairwise fun c d => c.name ≠ d.name) (hc : c ∈ m.classes) :
    Php.TellsApart c := by
  have hnodup : (m.classes.map (·.name)).Nodup := List.pairwise_map.2 hnames
  have hclass : ∀ t, t = c.type ∨ c.Mentions t → ∃ d ∈ m.classes, t = d.type := by
    rintro t (rfl | hmentions)
    · exact ⟨c, hc, rfl⟩
    · exact exists_class_of_refers h hc (Or.inl hmentions)
  refine ⟨fun t ht => ?_, fun t t' ht ht' hname => ?_, fun hmentions => ?_⟩
  · obtain ⟨d, hd, rfl⟩ := hclass t ht
    exact (not_mem_name h hd).1
  · obtain ⟨d, hd, rfl⟩ := hclass t ht
    obtain ⟨d', hd', rfl⟩ := hclass t' ht'
    rw [List.inj_on_of_nodup_map hnodup hd hd' hname]
  · cases hmentions with
    | superClass extended type => exact superClass_type_ne hdoc h hc extended type.symm
    | field _ _ _ other => exact other rfl

/-- **The short names in a PHP file are unambiguous exactly if its annotation shadows no class.**
This is so in every file that a run writes; and without a shadow, each short name in the file stands
for the one full name that it is written for. -/
theorem shortNames_of_ofDocument {settings : Settings} {g : Generated Failure}
    (hdoc : doc.TextKeyed) (h : Generation.ofDocument doc registry .php settings = .ok g) :
    ∃ m, Generation.modelOf doc registry settings = .ok m ∧
      ∀ c ∈ m.classes, ∀ text, Language.php.classText settings c = .ok text →
        Php.uses c = .ok (Lines.stack ((Php.importedNames c).map Php.useLine)) ∧
        (Php.Unambiguous c ↔ ¬ Php.Shadows c) ∧
        (¬ Php.Shadows c → ∀ short full, Php.Writes c short full →
          ∀ name ∈ Language.php.spelling c.type :: Php.importedNames c,
            Php.shortName name = short ↔ name = full) := by
  obtain ⟨m, files, hm, hnames, -, -⟩ := Generation.ofDocument_eq_ok h
  refine ⟨m, hm, fun c hc text htext => ?_⟩
  obtain ⟨hpackage, hmentioned⟩ := Language.texts_of_classText htext
  have happart := tellsApart_of_mem hdoc hm hnames hc
  refine ⟨Php.uses_eq hmentioned, happart.unambiguous_iff hpackage,
    fun hclear short full hwrites name hname => ⟨fun hshort => ?_, ?_⟩⟩
  · have hname' : Php.Writes c (Php.shortName name) name := by
      rcases List.mem_cons.1 hname with rfl | himported
      · rw [Php.shortName_spelling (happart.segment c.type (Or.inl rfl))]
        exact .type (Or.inl rfl)
      · exact happart.writes_of_mem hpackage himported
    exact happart.eq_of_writes hclear (hshort ▸ hname') hwrites
  · rintro rfl
    exact (happart.mem_of_writes hpackage hwrites).2

lemma exists_model_of_zoo : ∃ m, Generation.modelOf (.ofSchemas zoo) {} {} = .ok m ∧
    (m.classes.map fun c => (Php.importedNames c, (Language.php.classText {} c).isOk)) = [
      (["Zoo\\Core\\Keeper", "JMS\\Serializer\\Annotation\\Discriminator"], true),
      (["Zoo\\Core\\Animal"], true),
      (["Zoo\\Core\\Animal", "Zoo\\Core\\Keeper", "App\\Models\\Kennel"], true),
      ([], true)] :=
  exists_ok_of_toOption (by decide +kernel)

theorem shortNames_of_zoo :
    (Document.ofSchemas zoo).TextKeyed ∧
    ∃ g m, Generation.ofDocument (.ofSchemas zoo) {} .php {} = .ok g ∧
      Generation.modelOf (.ofSchemas zoo) {} {} = .ok m ∧
      (m.classes.map fun c => (Php.importedNames c, (Language.php.classText {} c).isOk)) = [
        (["Zoo\\Core\\Keeper", "JMS\\Serializer\\Annotation\\Discriminator"], true),
        (["Zoo\\Core\\Animal"], true),
        (["Zoo\\Core\\Animal", "Zoo\\Core\\Keeper", "App\\Models\\Kennel"], true),
        ([], true)] ∧
      ∀ c ∈ m.classes, ∀ text, Language.php.classText {} c = .ok text →
        Php.uses c = .ok (Lines.stack ((Php.importedNames c).map Php.useLine)) ∧
        (Php.Unambiguous c ↔ ¬ Php.Shadows c) ∧
        (¬ Php.Shadows c → ∀ short full, Php.Writes c short full →
          ∀ name ∈ Language.php.spelling c.type :: Php.importedNames c,
            Php.shortName name = short ↔ name = full) := by
  have hkeyed : (Document.ofSchemas zoo).TextKeyed := by decide
  obtain ⟨g, hg, -⟩ : ∃ g, Generation.ofDocument (.ofSchemas zoo) {} .php {} = .ok g ∧
      g.success = true := exists_ok_of_toOption (by decide +kernel)
  obtain ⟨m, hm, himports⟩ := exists_model_of_zoo
  obtain ⟨m', hm', hall⟩ := shortNames_of_ofDocument hkeyed hg
  obtain rfl := Except.ok.inj (hm'.symm.trans hm)
  exact ⟨hkeyed, g, m', hg, hm, himports, hall⟩

/-- A shape has subclasses, and a marker whose class is called like the annotation. -/
def shapes : Entries Scalar Mapping := [
  (.text "discriminator", []),
  (.text "shape", [
    (.text "discriminator", .text "kind"),
    (.text "properties", .mapping [
      (.text "kind", .mapping [(.text "type", .text "string")]),
      (.text "marker", .mapping [(.text "type", .text "Discriminator")])])]),
  (.text "circle", [(.text "allOf", .list [
    .mapping [(.text "$ref", .text "#/components/schemas/shape")]])])]

/-- **A run may write a file that imports two classes under one short name.** -/
theorem shortNames_of_shapes :
    (Document.ofSchemas shapes).TextKeyed ∧
    ∃ g m c text, Generation.ofDocument (.ofSchemas shapes) {} .php {} = .ok g ∧
      Generation.modelOf (.ofSchemas shapes) {} {} = .ok m ∧ c ∈ m.classes ∧
      Language.php.classText {} c = .ok text ∧
      Php.uses c = .ok
        "use App\\Models\\Discriminator;\nuse JMS\\Serializer\\Annotation\\Discriminator;" ∧
      (Php.importedNames c).map Php.shortName = ["Discriminator", "Discriminator"] ∧
      ¬ Php.Unambiguous c := by
  obtain ⟨g, hg, -⟩ : ∃ g, Generation.ofDocument (.ofSchemas shapes) {} .php {} = .ok g ∧
      g.success = true := exists_ok_of_toOption (by decide +kernel)
  obtain ⟨m, hm, hshape⟩ : ∃ m, Generation.modelOf (.ofSchemas shapes) {} {} = .ok m ∧
      ((m.classes.find? (·.name == "Shape")).map fun c => ((Language.php.classText {} c).isOk,
        (Php.uses c).toOption, (Php.importedNames c).map Php.shortName)) =
        some (true, some
          "use App\\Models\\Discriminator;\nuse JMS\\Serializer\\Annotation\\Discriminator;",
          ["Discriminator", "Discriminator"]) := exists_ok_of_toOption (by decide +kernel)
  obtain ⟨c, hfind, hfacts⟩ := Option.map_eq_some_iff.1 hshape
  simp only [Prod.mk.injEq] at hfacts
  obtain ⟨hwritten, huses, hshort⟩ := hfacts
  obtain ⟨text, htext⟩ : ∃ text, Language.php.classText {} c = .ok text := by
    cases htext : Language.php.classText {} c with
    | ok text => exact ⟨text, rfl⟩
    | error e => simp [htext, Except.isOk, Except.toBool] at hwritten
  refine ⟨by decide, g, m, c, text, hg, hm, List.mem_of_find?_eq_some hfind, htext,
    toOption_eq_some.1 huses, hshort, fun hclear => ?_⟩
  have hdistinct := hclear.1
  rw [hshort] at hdistinct
  exact absurd hdistinct (by decide)

end ClassModel

end SchemaClasses
