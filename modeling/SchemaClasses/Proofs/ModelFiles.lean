import SchemaClasses.Proofs.ClassText
import SchemaClasses.Proofs.ClosedTypes
import SchemaClasses.Proofs.Isolation
import SchemaClasses.Proofs.Subclasses

/-!
# When the files of a model can be written

The languages ask for many things that a class model may lack.  A model that was made from a
document lacks hardly any of them: if the packages are texts, all its classes are spelled
(`ClassModel.spelled_of_ofDocument`).  The package of a type that a class mentions is that of a class
of the model, if there is one; the names of variables are keys of the document; a class that others
extend has a discriminator, whose name is a key as well.

What is left can go wrong in two ways only.  Two classes have the same name and so the same path
(`Generation.placeable_iff`), or a variable is of a built-in type that the language has no name for
(`Generation.writable_iff`).  In particular no class is ever left out of a result by itself
(`Generation.run_of_ofDocument`).
-/

namespace SchemaClasses

/-! ## Packages that a class mentions -/

namespace Scope

variable {scope : Scope} {c : Component Scalar} {d : ClassDef} {classes : List ClassDef}
  {ancestors : Lineage.Components} {keys : List Scalar}

/-- The type of a variable is in no package or in that of a class. -/
lemma Assembled.package_of_variable (h : scope.Assembled c ancestors d)
    (hnames : scope.NamesKeys keys)
    (hall : List.Forall₂ scope.Realizes scope.components classes) {v : InstanceVariable}
    (hv : v ∈ d.instanceVariables) :
    v.type.package = .text "" ∨ ∃ e ∈ classes, v.type.package = e.package := by
  obtain ⟨property, -, hvariable⟩ := forall₂_right h.instanceVariables hv
  obtain ⟨hends, htype, -⟩ := variableOf_eq_ok.1 hvariable
  obtain ⟨target, htyped, ht⟩ := (hnames.typeOf_eq_ok [] property.2).1 ⟨hends, htype⟩
  rcases closed_of_targetType? hall htyped.target_known ht with ⟨name, -, heq⟩ | ⟨e, he, heq⟩
  · exact Or.inl (by rw [heq])
  · exact Or.inr ⟨e, he, by rw [heq]; rfl⟩

/-- So is the type of a subclass that a class links to. -/
lemma Assembled.package_of_subclass (h : scope.Assembled c ancestors d)
    (hall : List.Forall₂ scope.Realizes scope.components classes) {s : SubclassRef}
    (hs : s ∈ d.subclasses) : ∃ e ∈ classes, s.type.package = e.package := by
  obtain ⟨hlinks, -⟩ := subclassesOf_eq_ok.1 h.subclasses
  obtain ⟨child, hchild, -, htype⟩ := forall₂_right hlinks hs
  obtain ⟨e, he, heq⟩ := exists_type_eq hall (List.mem_filter.1 hchild).1
  exact ⟨e, he, by rw [htype, heq]; rfl⟩

end Scope

/-! ## Classes of a document -/

namespace ClassModel

variable {doc : Document} {home : String} {registry : TypeRegistry}
  {accessibility : Accessibility} {schemas : Entries Scalar Mapping} {m : ClassModel}

lemma exists_text_package (home : String) {schema : Mapping}
    (h : ∀ v, Mapping.field? schema "x-package" = some v → ∃ s, v = .text s) :
    ∃ p, Schema.package (.text home) schema = .text p := by
  rw [Schema.package]
  split
  · rename_i htruthy
    cases hfield : Mapping.field? schema "x-package" with
    | none =>
        rw [Mapping.field, hfield] at htruthy
        cases htruthy
    | some v =>
        obtain ⟨s, rfl⟩ := h v hfield
        exact ⟨s, Mapping.field_of_field? hfield⟩
  · exact ⟨home, rfl⟩

lemma package_of_ofDocument (hdoc : doc.TextKeyed) (hschemas : doc.schemas = .ok schemas)
    (hpackages : ∀ entry ∈ schemas, ∀ v, Mapping.field? entry.2 "x-package" = some v →
      ∃ s, v = .text s)
    (hm : ofDocument doc (.text home) registry accessibility = .ok m) :
    ∀ d ∈ m.classes, ∃ p, d.package = .text p := by
  obtain ⟨schemas', components, hschemas', hblueprint, hall⟩ := blueprint_of_ofDocument hdoc hm
  obtain rfl := Except.ok.inj (hschemas'.symm.trans hschemas)
  intro d hd
  obtain ⟨c, hc, ancestors, hrealizes⟩ := forall₂_right hall hd
  obtain ⟨entry, hentry, -, hpackage⟩ := forall₂_right hblueprint.described hc
  obtain ⟨p, hp⟩ := exists_text_package home (hpackages entry hentry)
  rw [hpackage] at hp
  exact ⟨p, by rw [hrealizes.assembled.package, Value.scalar.inj hp]⟩

/-- **Every class of a document is spelled**, if the packages are texts. -/
theorem spelled_of_ofDocument (hdoc : doc.TextKeyed) (hschemas : doc.schemas = .ok schemas)
    (hpackages : ∀ entry ∈ schemas, ∀ v, Mapping.field? entry.2 "x-package" = some v →
      ∃ s, v = .text s)
    (hm : ofDocument doc (.text home) registry accessibility = .ok m) :
    ∀ d ∈ m.classes, d.Spelled := by
  have hpackage := package_of_ofDocument hdoc hschemas hpackages hm
  obtain ⟨schemas', components, -, hblueprint, hall⟩ := blueprint_of_ofDocument hdoc hm
  intro d hd
  obtain ⟨c, hc, ancestors, hrealizes⟩ := forall₂_right hall hd
  obtain ⟨entry, -, hdescribes, -⟩ := forall₂_right hblueprint.described hc
  have hnames := namesKeys_scopeOf registry accessibility components hblueprint.textKeys
  refine ⟨hpackage d hd, fun s hs => hpackage s (Scope.mem_of_superClass hall hd hs),
    fun v hv => ?_, fun v hv => ?_, fun s hs => ?_, ?_⟩
  · exact (hrealizes.assembled.isDiscriminator_iff hdescribes.textKeys
      (List.mem_filter.1 hv).1).1
  · rcases hrealizes.assembled.package_of_variable hnames hall (List.mem_filter.1 hv).1 with
      hnone | ⟨e, he, hsame⟩
    · exact ⟨"", hnone⟩
    · rw [hsame]
      exact hpackage e he
  · obtain ⟨e, he, hsame⟩ := hrealizes.assembled.package_of_subclass hall hs
    rw [hsame]
    exact hpackage e he
  · -- A class that lists a subclass selects it by the discriminator.
    cases hlinks : d.subclasses with
    | nil => exact Or.inl rfl
    | cons s rest =>
        obtain ⟨x, -, hselects⟩ := forall₂_right (Scope.selects_subclassesOf hblueprint hall hd)
          (hlinks ▸ List.mem_cons_self)
        obtain ⟨name, -, hname, -⟩ := hselects.value
        exact Or.inr ⟨name, hname⟩

end ClassModel

namespace Generation

variable {language : Language} {settings : Settings} {directory : String} {c : ClassDef}
  {classes : List ClassDef}

/-! ## Spelled classes -/

/-- **Spelled classes are in the way of each other exactly if two have the same name.** -/
lemma placeable_iff (language : Language) (directory : String)
    (hspelled : ∀ c ∈ classes, c.Spelled) :
    Placeable (classPath language directory) classes ↔ (classes.map (·.name)).Nodup := by
  have hshown : ∀ c ∈ classes, ∃ name, c.type.shownName = .ok name := by
    intro c hc
    obtain ⟨p, hp⟩ := (hspelled c hc).package
    exact ⟨c.type.qualifiedName, by rw [ClassDef.type, hp]; rfl⟩
  have hpath : ∀ c d : ClassDef,
      classPath language directory c ≠ classPath language directory d ↔ c.name ≠ d.name :=
    fun c d => not_congr ⟨name_of_classPath, fun h => by rw [classPath, classPath, h]⟩
  rw [Placeable, and_iff_right hshown, List.Nodup, List.pairwise_map]
  simp only [hpath]

lemma exists_classText (settings : Settings) (h : c.Spelled)
    (hall : ∀ v ∈ c.ownVariables, ¬ language.Lacks v) :
    ∃ content, language.classText settings c = .ok content := by
  have htypes := traverse_isOk_iff.2 fun v hv => Language.exists_variableType (hall v hv)
  exact (isOk_iff_of_error fun f => Language.classText_eq_error_iff settings h).2 htypes

/-- **A spelled class with a type that the language lacks stops the run** because of such a type. -/
lemma writer_of_lacks (settings : Settings) (h : c.Spelled)
    (hlacks : ∃ v ∈ c.ownVariables, language.Lacks v) :
    ∃ v ∈ c.ownVariables, language.Lacks v ∧ writer language settings c =
      .error (.fatal (.unmappedType language.code v.type.name v.name)) := by
  obtain ⟨w, hw, hlacks⟩ := hlacks
  obtain ⟨n, hn⟩ := h.variableName w hw
  cases htypes : traverse language.variableType c.ownVariables with
  | ok types =>
      obtain ⟨type, htype⟩ := traverse_isOk_iff.1 ⟨types, htypes⟩ w hw
      rw [Language.variableType_of_lacks hn hlacks] at htype
      cases htype
  | error f =>
      have htext := (Language.classText_eq_error_iff settings h).2 htypes
      obtain ⟨before, v, after, heq, -, hv⟩ := traverse_eq_error_iff.1 htypes
      have hmem : v ∈ c.ownVariables := by
        rw [heq]
        exact List.mem_append_right _ List.mem_cons_self
      have hlacks : language.Lacks v := by
        by_contra hnot
        obtain ⟨type, htype⟩ := Language.exists_variableType hnot
        rw [htype] at hv
        cases hv
      obtain ⟨n, hn⟩ := h.variableName v hmem
      rw [Language.variableType_of_lacks hn hlacks] at hv
      exact ⟨v, hmem, hlacks, by rw [writer, htext, ← Except.error.inj hv]; rfl⟩

/-- A spelled class is written, or stops the run because of a type that the language lacks. -/
lemma writer_cases (language : Language) (settings : Settings) (h : c.Spelled) :
    ((∀ v ∈ c.ownVariables, ¬ language.Lacks v) ∧
        ∃ content, writer language settings c = .ok content) ∨
      ∃ v ∈ c.ownVariables, language.Lacks v ∧ writer language settings c =
        .error (.fatal (.unmappedType language.code v.type.name v.name)) := by
  by_cases hlacks : ∃ v ∈ c.ownVariables, language.Lacks v
  · exact Or.inr (writer_of_lacks settings h hlacks)
  · have hall : ∀ v ∈ c.ownVariables, ¬ language.Lacks v := fun v hv hv' => hlacks ⟨v, hv, hv'⟩
    obtain ⟨content, hcontent⟩ := exists_classText settings h hall
    exact Or.inl ⟨hall, content, by rw [writer, hcontent]; rfl⟩

lemma writable_iff (language : Language) (settings : Settings)
    (hspelled : ∀ c ∈ classes, c.Spelled) :
    Writable (writer language settings) classes ↔
      ∀ c ∈ classes, ∀ v ∈ c.ownVariables, ¬ language.Lacks v := by
  refine forall_congr' fun c => imp_congr_right fun hc => ?_
  rcases writer_cases language settings (hspelled c hc) with
    ⟨hall, content, hcontent⟩ | ⟨v, hv, hlacks, hfatal⟩
  · exact iff_of_true (by simp [hcontent]) hall
  · exact iff_of_false (fun h => h _ hfatal) fun h => h v hv hlacks

/-! ## Runs over spelled classes -/

variable {m : ClassModel}

lemma run_of_same_name (hspelled : ∀ c ∈ m.classes, c.Spelled)
    (hnames : ¬ (m.classes.map (·.name)).Nodup) :
    ∃ first second path, run (classPath language directory) (writer language settings) m =
      .error (.render (.duplicatePath first second path)) := by
  obtain ⟨before, c, after, f, hclasses, -, hobstacle, hrun⟩ :=
    run_of_not_placeable (writer language settings)
      (mt (placeable_iff language directory hspelled).1 hnames)
  cases hobstacle with
  | unshown limit =>
      obtain ⟨p, hp⟩ := (hspelled c (by rw [hclasses]; simp)).package
      rw [ClassDef.type, hp] at limit
      cases limit
  | taken shown earlier same => exact ⟨_, _, _, hrun⟩

lemma run_of_lacks (hspelled : ∀ c ∈ m.classes, c.Spelled)
    (hnames : (m.classes.map (·.name)).Nodup)
    (hlacks : ∃ c ∈ m.classes, ∃ v ∈ c.ownVariables, language.Lacks v) :
    ∃ c ∈ m.classes, ∃ v ∈ c.ownVariables, language.Lacks v ∧
      run (classPath language directory) (writer language settings) m =
        .error (.render (.unmappedType language.code v.type.name v.name)) := by
  have hfatal : ¬ Writable (writer language settings) m.classes := by
    rw [writable_iff language settings hspelled]
    rintro hall
    obtain ⟨c, hc, v, hv, hlacks⟩ := hlacks
    exact hall c hc v hv hlacks
  obtain ⟨before, c, after, e, hclasses, -, hc, hrun⟩ :=
    run_of_not_writable ((placeable_iff language directory hspelled).2 hnames) hfatal
  have hmem : c ∈ m.classes := by
    rw [hclasses]
    exact List.mem_append_right _ List.mem_cons_self
  rcases writer_cases language settings (hspelled c hmem) with
    ⟨-, content, hcontent⟩ | ⟨v, hv, hlacks, hwriter⟩
  · rw [hcontent] at hc
    cases hc
  · rw [hwriter, Except.error.injEq, WriteError.fatal.injEq] at hc
    exact ⟨c, hmem, v, hv, hlacks, by rw [hrun, hc]⟩

lemma run_of_types (hspelled : ∀ c ∈ m.classes, c.Spelled)
    (hnames : (m.classes.map (·.name)).Nodup)
    (hall : ∀ c ∈ m.classes, ∀ v ∈ c.ownVariables, ¬ language.Lacks v) :
    ∃ g, run (classPath language directory) (writer language settings) m = .ok g ∧
      g.failures = [] ∧
      List.Forall₂ (fun (c : ClassDef) (a : Artifact) => a.path = classPath language directory c ∧
        language.classText settings c = .ok a.content) m.classes g.artifacts := by
  obtain ⟨g, hrun, hartifacts, hfailures⟩ :=
    run_of_writable ((placeable_iff language directory hspelled).2 hnames)
      ((writable_iff language settings hspelled).2 hall)
  have htexts : ∀ c ∈ m.classes, ∃ content, language.classText settings c = .ok content :=
    fun c hc => exists_classText settings (hspelled c hc) (hall c hc)
  refine ⟨g, hrun, ?_, ?_⟩
  · rw [hfailures, List.filterMap_eq_nil_iff]
    intro c hc
    obtain ⟨content, hcontent⟩ := htexts c hc
    rw [failure?, writer, hcontent]
    rfl
  · rw [hartifacts]
    refine forall₂_filterMap fun c hc => ?_
    obtain ⟨content, hcontent⟩ := htexts c hc
    exact ⟨⟨classPath language directory c, content⟩, by rw [artifact?, writer, hcontent]; rfl,
      rfl, hcontent⟩

/-! ## Runs over the classes of a document -/

variable {doc : Document} {home : String} {registry : TypeRegistry}
  {accessibility : Accessibility} {schemas : Entries Scalar Mapping}

/-- **What a run over the classes of a document can come to**, if the packages are texts.  It is
stopped by two classes of the same name; else by a variable whose type the language lacks; else
every class is written, in order.  No class is left out of the result by itself, and none is without
the discriminator that selects its subclasses. -/
theorem run_of_ofDocument (hdoc : doc.TextKeyed) (hschemas : doc.schemas = .ok schemas)
    (hpackages : ∀ entry ∈ schemas, ∀ v, Mapping.field? entry.2 "x-package" = some v →
      ∃ s, v = .text s)
    (hm : ClassModel.ofDocument doc (.text home) registry accessibility = .ok m)
    (language : Language) (settings : Settings) (directory : String) :
    ((∃ first second path, run (classPath language directory) (writer language settings) m =
        .error (.render (.duplicatePath first second path))) ↔
      ¬ (m.classes.map (·.name)).Nodup) ∧
    ((m.classes.map (·.name)).Nodup →
      ((∃ type variableName, run (classPath language directory) (writer language settings) m =
          .error (.render (.unmappedType language.code type variableName))) ↔
        ∃ c ∈ m.classes, ∃ v ∈ c.ownVariables, language.Lacks v) ∧
      ((∀ c ∈ m.classes, ∀ v ∈ c.ownVariables, ¬ language.Lacks v) →
        ∃ g, run (classPath language directory) (writer language settings) m = .ok g ∧
          g.failures = [] ∧
          List.Forall₂ (fun (c : ClassDef) (a : Artifact) =>
            a.path = classPath language directory c ∧
              language.classText settings c = .ok a.content) m.classes g.artifacts)) ∧
    ∀ c ∈ m.classes, (∃ name, c.dispatchDiscriminator = .ok name) ∧
      ∀ f, writer language settings c ≠ .error (.isolated f) := by
  have hspelled := ClassModel.spelled_of_ofDocument hdoc hschemas hpackages hm
  have hlacking : (∀ c ∈ m.classes, ∀ v ∈ c.ownVariables, ¬ language.Lacks v) ∨
      ∃ c ∈ m.classes, ∃ v ∈ c.ownVariables, language.Lacks v := by
    by_contra hnot
    simp only [not_or, not_exists, not_and] at hnot
    exact hnot.1 hnot.2
  refine ⟨⟨?_, run_of_same_name hspelled⟩, fun hnames => ⟨⟨?_, fun hlacks => ?_⟩,
    run_of_types hspelled hnames⟩, fun c hc => ⟨?_, ?_⟩⟩
  · rintro ⟨first, second, path, hrun⟩ hnames
    rcases hlacking with hall | hlacks
    · obtain ⟨g, hg, -⟩ := run_of_types hspelled hnames hall
      rw [hrun] at hg
      cases hg
    · obtain ⟨c, -, v, -, -, hstop⟩ := run_of_lacks hspelled hnames hlacks
      rw [hrun] at hstop
      cases hstop
  · rintro ⟨type, variableName, hrun⟩
    refine hlacking.resolve_left fun hall => ?_
    obtain ⟨g, hg, -⟩ := run_of_types hspelled hnames hall
    rw [hrun] at hg
    cases hg
  · obtain ⟨c, -, v, -, -, hstop⟩ := run_of_lacks hspelled hnames hlacks
    exact ⟨_, _, hstop⟩
  · rcases (hspelled c hc).dispatchDiscriminator_cases with hnone | ⟨n, hn⟩
    · exact ⟨none, hnone⟩
    · exact ⟨some (.text n), hn⟩
  · rintro f hf
    rcases writer_cases language settings (hspelled c hc) with
      ⟨-, content, hcontent⟩ | ⟨v, -, -, hfatal⟩
    · rw [hcontent] at hf
      cases hf
    · rw [hfatal] at hf
      cases hf

/-- Variables whose names have no first character, or none that is a letter. -/
def oddities : Entries Scalar Mapping := [
  (.text "animal", [
    (.text "discriminator", .text "kind"),
    (.text "properties", .mapping [
      (.text "kind", .mapping [(.text "type", .text "string")]),
      (.text "", .mapping [(.text "type", .text "integer")])])]),
  (.text "cat", [(.text "allOf", .list [
    .mapping [(.text "$ref", .text "#/components/schemas/animal")],
    .mapping [(.text "properties", .mapping [
      (.text "9 lives", .mapping [(.text "type", .text "array")])])]])])]

theorem run_of_oddities :
    (Document.ofSchemas oddities).TextKeyed ∧
    (Document.ofSchemas oddities).schemas = .ok oddities ∧
    (∀ entry ∈ oddities, ∀ v, Mapping.field? entry.2 "x-package" = some v → ∃ s, v = .text s) ∧
    ∃ m, ClassModel.ofDocument (.ofSchemas oddities) (.text "App") {} .owner = .ok m ∧
      m.classes.map (·.name) = ["Animal", "Cat"] ∧
      (∀ c ∈ m.classes, ∃ name, c.dispatchDiscriminator = .ok name) ∧
      ∃ g, run (classPath .csharp "") (writer .csharp {}) m = .ok g ∧ g.failures = [] ∧
        List.Forall₂ (fun (c : ClassDef) (a : Artifact) => a.path = classPath .csharp "" c ∧
          Language.csharp.classText {} c = .ok a.content) m.classes g.artifacts := by
  have hkeyed : (Document.ofSchemas oddities).TextKeyed := by decide
  have hschemas := Document.schemas_ofSchemas oddities
  have hfree : ∀ entry ∈ oddities, Mapping.field? entry.2 "x-package" = none := by decide
  have hpackages : ∀ entry ∈ oddities, ∀ v, Mapping.field? entry.2 "x-package" = some v →
      ∃ s, v = .text s := by
    intro entry hentry v hv
    rw [hfree entry hentry] at hv
    cases hv
  obtain ⟨m, hm, hfacts⟩ : ∃ m,
      ClassModel.ofDocument (.ofSchemas oddities) (.text "App") {} .owner = .ok m ∧
      (m.classes.map (·.name),
        decide (∀ c ∈ m.classes, ∀ v ∈ c.ownVariables, ¬ Language.csharp.Lacks v)) =
          (["Animal", "Cat"], true) := exists_ok_of_toOption (by decide +kernel)
  rw [Prod.mk.injEq, decide_eq_true_eq] at hfacts
  obtain ⟨hnames, htypes⟩ := hfacts
  obtain ⟨-, hruns, hclasses⟩ := run_of_ofDocument hkeyed hschemas hpackages hm .csharp {} ""
  exact ⟨hkeyed, hschemas, hpackages, m, hm, hnames, fun c hc => (hclasses c hc).1,
    (hruns (by rw [hnames]; decide)).2 htypes⟩

end Generation

end SchemaClasses
