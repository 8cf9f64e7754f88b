import SchemaClasses.Language.ClassFile
import SchemaClasses.Proofs.Outcome

/-!
# When the text of a class can be written

A class file is put together from many fragments, and each of them asks something of the class: a
package that is a text, names that have a first character, types with a name in the language, a
discriminator to select subclasses by.  `ClassDef.Spelled` gathers everything but the types.

`classText_eq_error_iff` says that a spelled class lacks nothing else: its text cannot be written
exactly if a variable has no type in the language, and then the first such variable is the reason.
The header is always there (`exists_namespaceLine`, `exists_uses`, `exists_comment`,
`exists_annotations`), the fields fail as their types do (`fields_eq_error_iff`), and once the types
are there so is the rest of the body (`exists_constructor`, `exists_accessors`).
-/

namespace SchemaClasses

namespace ClassDef

/-- **A class all of whose names are texts**: its package and the packages of the classes it
mentions, its variables, and the discriminator that its subclasses are selected by. -/
structure Spelled (c : ClassDef) : Prop where
  package : ∃ p, c.package = .text p
  superPackage : ∀ s, c.superClass = some s → ∃ p, s.package = .text p
  variableName : ∀ v ∈ c.ownVariables, ∃ n, v.name = .text n
  variablePackage : ∀ v ∈ c.ownVariables, ∃ p, v.type.package = .text p
  subclassPackage : ∀ s ∈ c.subclasses, ∃ p, s.type.package = .text p
  discriminated : c.subclasses = [] ∨ ∃ n, c.discriminatorName = some (.text n)

variable {c : ClassDef}

lemma Spelled.usedPackage (h : c.Spelled) {t : TypeRef} (ht : t ∈ c.usedTypes.items) :
    ∃ p, t.package = .text p := by
  rcases List.mem_append.1 (OrderedSet.mem_of_mem_ofList ht) with hsuper | hvariable
  · obtain ⟨s, hs, rfl⟩ := Option.map_eq_some_iff.1 (Option.mem_toList.1 hsuper)
    exact h.superPackage s hs
  · obtain ⟨v, hv, rfl⟩ := List.mem_map.1 (List.mem_filter.1 hvariable).1
    exact h.variablePackage v hv

lemma mem_ownVariables_of_hidden {v : InstanceVariable} (hv : v ∈ c.hiddenVariables) :
    v ∈ c.ownVariables :=
  (List.mem_filter.1 hv).1

/-- **A spelled class is never without a discriminator where it needs one.** -/
lemma Spelled.dispatchDiscriminator_cases (h : c.Spelled) :
    c.dispatchDiscriminator = .ok none ∨
      ∃ n, c.dispatchDiscriminator = .ok (some (.text n)) := by
  rw [ClassDef.dispatchDiscriminator]
  rcases h.discriminated with hnone | ⟨n, hn⟩
  · exact Or.inl (by rw [hnone]; rfl)
  · rw [hn]
    split
    · exact Or.inl rfl
    · exact Or.inr ⟨n, rfl⟩

end ClassDef

namespace Language

variable {language : Language} {settings : Settings} {c : ClassDef} {f : Failure}

/-! ## The header -/

lemma exists_typeNamespace (language : Language) {t : TypeRef} (h : ∃ p, t.package = .text p) :
    ∃ space, language.typeNamespace t = .ok space := by
  obtain ⟨p, hp⟩ := h
  exact ⟨_, by rw [typeNamespace, hp, packageNamespace_text]⟩

lemma exists_fullName (language : Language) {t : TypeRef} (h : ∃ p, t.package = .text p) :
    ∃ name, language.fullName t = .ok name := by
  obtain ⟨space, hspace⟩ := exists_typeNamespace language h
  exact ⟨_, by rw [fullName, hspace]; rfl⟩

lemma exists_namespaceLine (language : Language) (h : c.Spelled) :
    ∃ line, language.namespaceLine c = .ok line := by
  obtain ⟨space, hspace⟩ := exists_typeNamespace language (t := c.type) h.package
  exact ⟨_, by rw [namespaceLine, hspace]; rfl⟩

lemma exists_uses (language : Language) (h : c.Spelled) :
    ∃ text, language.uses c = .ok text := by
  cases language with
  | php =>
      obtain ⟨names, hnames⟩ := traverse_isOk_iff.2 fun t (ht : t ∈ c.usedTypes.items) =>
        exists_fullName .php (h.usedPackage ht)
      exact ⟨_, by rw [uses, Php.uses, hnames]; rfl⟩
  | csharp =>
      obtain ⟨own, hown⟩ := exists_typeNamespace .csharp (t := c.type) h.package
      have hreferenced : ∀ t ∈ c.usedTypes.items ++ c.subclasses.map (·.type),
          ∃ space, Language.csharp.typeNamespace t = .ok space := by
        rw [List.forall_mem_append, List.forall_mem_map]
        exact ⟨fun t ht => exists_typeNamespace .csharp (h.usedPackage ht),
          fun s hs => exists_typeNamespace .csharp (h.subclassPackage s hs)⟩
      obtain ⟨spaces, hspaces⟩ := traverse_isOk_iff.2 hreferenced
      exact ⟨_, by rw [uses, CSharp.uses, hown, hspaces]; rfl⟩

lemma exists_annotations (language : Language) (h : c.Spelled) :
    ∃ text, language.annotations c = .ok text := by
  cases language with
  | php =>
      rw [annotations, Php.annotations]
      rcases h.dispatchDiscriminator_cases with hnone | ⟨n, hn⟩
      · exact ⟨_, by rw [hnone]; rfl⟩
      · have hentries : ∀ s ∈ c.subclasses, ∃ entry, Php.mapEntry s = .ok entry := by
          intro s hs
          obtain ⟨name, hname⟩ := exists_fullName .php (h.subclassPackage s hs)
          exact ⟨_, by rw [Php.mapEntry, hname]; rfl⟩
        obtain ⟨entries, hentries⟩ := traverse_isOk_iff.2 hentries
        rw [hn]
        exact ⟨_, by simp only [bind, Except.bind, hentries, Scalar.shown_text]; rfl⟩
  | csharp =>
      rw [annotations, CSharp.annotations]
      rcases h.dispatchDiscriminator_cases with hnone | ⟨n, hn⟩
      · exact ⟨_, by rw [hnone]; rfl⟩
      · exact ⟨_, by rw [hn]; rfl⟩

lemma exists_comment (language : Language) (h : c.Spelled) :
    ∃ text, language.comment c = .ok text := by
  cases language with
  | php =>
      obtain ⟨text, htext⟩ := exists_annotations .php h
      have hannotations : Php.annotations c = .ok text := htext
      exact ⟨_, by rw [comment, Php.comment, hannotations]; rfl⟩
  | csharp => exact ⟨"", rfl⟩

/-! ## The types of variables -/

/-- A variable whose type is built in and has no name in the language. -/
def Lacks (language : Language) (v : InstanceVariable) : Prop :=
  v.type.isBuiltIn = true ∧ language.typeMap.lookup v.type.name = none

instance (language : Language) : DecidablePred language.Lacks := fun v =>
  inferInstanceAs (Decidable (v.type.isBuiltIn = true ∧ language.typeMap.lookup v.type.name = none))

lemma variableType_of_lacks {v : InstanceVariable} {n : String} (hname : v.name = .text n)
    (h : language.Lacks v) : language.variableType v =
      .error (.render (.unmappedType language.code v.type.name v.name)) := by
  obtain ⟨hbuiltIn, hlookup⟩ := h
  rw [variableType, if_pos hbuiltIn, hlookup, hname]
  simp [Failure.raise, Failure.settled, Failure.shown, RenderError.shown]

lemma exists_variableType {v : InstanceVariable} (h : ¬ language.Lacks v) :
    ∃ type, language.variableType v = .ok type := by
  rw [variableType]
  split
  · rename_i hbuiltIn
    cases hlookup : language.typeMap.lookup v.type.name with
    | none => exact absurd ⟨hbuiltIn, hlookup⟩ h
    | some name => exact ⟨name, rfl⟩
  · exact ⟨_, rfl⟩

/-- Every own variable has a type in the language. -/
def Types (language : Language) (c : ClassDef) : Prop :=
  ∀ v ∈ c.ownVariables, ∃ type, language.variableType v = .ok type

/-! ## The body -/

/-- **A field fails as its type does.** -/
lemma fields_eq_error_iff (language : Language) (h : c.Spelled) :
    language.fields c = .error f ↔
      traverse language.variableType c.ownVariables = .error f := by
  cases language with
  | php =>
      rw [fields, Php.fields, map_eq_error]
      refine traverse_eq_error_congr fun v hv e => ?_
      obtain ⟨n, hn⟩ := h.variableName v hv
      rw [Php.field, hn, bind_eq_error]
      simp [Scalar.shown_text, bind, Except.bind, pure, Except.pure]
  | csharp =>
      rw [fields, CSharp.fields, map_eq_error]
      refine traverse_eq_error_congr fun v hv e => ?_
      obtain ⟨n, hn⟩ := h.variableName v hv
      rw [CSharp.field, hn, bind_eq_error]
      simp [Scalar.shown_text, bind, Except.bind, pure, Except.pure]

lemma exists_constructor (h : c.Spelled) (htypes : language.Types c) :
    ∃ text, language.constructor c = .ok text := by
  cases language with
  | php =>
      have hparameters : ∀ v ∈ c.ownVariables, ∃ text, Php.parameter v = .ok text := by
        intro v hv
        obtain ⟨n, hn⟩ := h.variableName v hv
        obtain ⟨type, htype⟩ := htypes v hv
        exact ⟨_, by rw [Php.parameter, htype, hn]; rfl⟩
      obtain ⟨parameters, hparameters⟩ := traverse_isOk_iff.2 hparameters
      exact ⟨_, by rw [constructor, Php.constructor, hparameters]; rfl⟩
  | csharp =>
      rw [constructor, CSharp.constructor]
      split
      · exact ⟨_, rfl⟩
      · have hcandidates : ∀ v ∈ c.ownVariables, ∃ name, v.name.lowerFirst? = .ok name := by
          intro v hv
          obtain ⟨n, hn⟩ := h.variableName v hv
          exact ⟨_, by rw [hn]; rfl⟩
        obtain ⟨candidates, hcandidates⟩ := traverse_isOk_iff.2 hcandidates
        obtain ⟨types, htypes⟩ := traverse_isOk_iff.2 htypes
        exact ⟨_, by
          rw [CSharp.fieldConstructor, CSharp.parameterNames, hcandidates, htypes]; rfl⟩

lemma exists_accessors (h : c.Spelled) (htypes : language.Types c) :
    ∃ text, language.accessors c = .ok text := by
  cases language with
  | php =>
      have hpairs : ∀ v ∈ c.hiddenVariables, ∃ text, Php.accessorPair v = .ok text := by
        intro v hv
        obtain ⟨n, hn⟩ := h.variableName v (ClassDef.mem_ownVariables_of_hidden hv)
        obtain ⟨type, htype⟩ := htypes v (ClassDef.mem_ownVariables_of_hidden hv)
        exact ⟨_, by rw [Php.accessorPair, Php.getter, Php.setter, htype, hn]; rfl⟩
      obtain ⟨pairs, hpairs⟩ := traverse_isOk_iff.2 hpairs
      exact ⟨_, by rw [accessors, Php.accessors, hpairs]; rfl⟩
  | csharp =>
      have hproperties : ∀ v ∈ c.hiddenVariables, ∃ text, CSharp.property c v = .ok text := by
        intro v hv
        obtain ⟨n, hn⟩ := h.variableName v (ClassDef.mem_ownVariables_of_hidden hv)
        obtain ⟨type, htype⟩ := htypes v (ClassDef.mem_ownVariables_of_hidden hv)
        exact ⟨_, by rw [CSharp.property, CSharp.propertyName, htype, hn]; rfl⟩
      obtain ⟨properties, hproperties⟩ := traverse_isOk_iff.2 hproperties
      exact ⟨_, by rw [accessors, CSharp.accessors, hproperties]; rfl⟩

lemma body_eq_error_iff (h : c.Spelled) :
    language.body c = .error f ↔ traverse language.variableType c.ownVariables = .error f := by
  rw [← fields_eq_error_iff language h, body, bind_eq_error, or_iff_left_iff_imp]
  rintro ⟨fields, hfields, hrest⟩
  have htypes : language.Types c := by
    refine traverse_isOk_iff.1 ?_
    cases htypes : traverse language.variableType c.ownVariables with
    | ok types => exact ⟨types, rfl⟩
    | error e =>
        rw [(fields_eq_error_iff language h).2 htypes] at hfields
        cases hfields
  -- With the types there, nothing else of the body can fail.
  obtain ⟨constructor, hconstructor⟩ := exists_constructor h htypes
  obtain ⟨accessors, haccessors⟩ := exists_accessors h htypes
  rw [hconstructor, haccessors] at hrest
  cases hrest

/-! ## The whole file -/

/-- **A spelled class is written exactly if its variables have types in the language**, and fails as
the first variable without one does. -/
theorem classText_eq_error_iff (settings : Settings) (h : c.Spelled) :
    language.classText settings c = .error f ↔
      traverse language.variableType c.ownVariables = .error f := by
  obtain ⟨line, hline⟩ := exists_namespaceLine language h
  obtain ⟨uses, huses⟩ := exists_uses language h
  obtain ⟨comment, hcomment⟩ := exists_comment language h
  obtain ⟨annotations, hannotations⟩ := exists_annotations language h
  rw [← body_eq_error_iff h, classText, map_eq_error, ClassFile.fragments, hline, huses, hcomment,
    hannotations]
  cases language.body c with
  | error e => simp only [bind, Except.bind, Except.error.injEq]
  | ok body => exact iff_of_false (by rintro ⟨⟩) (by rintro ⟨⟩)

end Language

end SchemaClasses
