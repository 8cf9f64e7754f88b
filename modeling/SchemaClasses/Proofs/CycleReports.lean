import SchemaClasses.Proofs.Consistency
import SchemaClasses.Proofs.PropertyType

/-!
# Reports of cycles

One pass follows the bases of the components, and it alone reports cycles: whatever else goes wrong
in a later one is something else (`ofComponents_eq_cycle`).  So a document whose components are
described, and make different classes, reports a cycle exactly if the bases of one of them come
back.  The first such component is the one that is reported, with the walk over its own bases
(`reports_cycle`).  Where none come back, every component has a lineage that ends, and the passes
that follow only go up along it.

What comes before is no cycle either, but it can be in the way: a package that is a list or a
mapping ends the evaluation before any base is followed (`misplaced_of_listedLoop`).
-/

namespace SchemaClasses

open Lineage (Components Follows Returns ClosedWalk)

/-! ## Other failures -/

/-- A failure that does not report a cycle. -/
def Failure.Cycleless (f : Failure) : Prop :=
  ∀ e, f = .model e → e.fault.family ≠ .cyclicInheritance

lemma Failure.cycleless_unsupported (u : UnsupportedValue) : (Failure.unsupported u).Cycleless := by
  rintro e ⟨⟩

lemma Failure.cycleless_unshown (l : ShowingLimit) : (Failure.unshown l).Cycleless := by
  rintro e ⟨⟩

lemma Component.cycleless_failure {α : Type} {fault : ModelFault} {className : Scalar}
    {field : Option Scalar} (h : fault.family ≠ .cyclicInheritance) :
    FailsOnly Failure.Cycleless (Component.failure fault className field : Except Failure α) := by
  refine FailsOnly.throw ?_
  rw [Failure.settled]
  split
  · exact Failure.cycleless_unshown _
  · intro e he
    obtain rfl := Failure.model.inj he
    exact h

lemma Value.cycleless_shown (v : Value) : FailsOnly Failure.Cycleless v.shown := by
  rw [Value.shown]
  split
  · exact .throw (Failure.cycleless_unshown _)
  · exact .ok _

lemma cycleless_textNames (names : List Scalar) :
    FailsOnly Failure.Cycleless (textNames names) := by
  refine .traverse fun name => ?_
  split
  · exact .ok _
  · exact .throw (Failure.cycleless_unsupported _)

namespace Lineage

lemma cycleless_checkUnambiguous (chain : Components) :
    FailsOnly Failure.Cycleless (checkUnambiguous chain) := by
  induction chain with
  | nil => exact .ok ()
  | cons c rest ih =>
      rw [checkUnambiguous]
      refine .bind ih fun _ => ?_
      dsimp only
      split
      · exact .bind (cycleless_textNames _) fun _ => Component.cycleless_failure (by rintro ⟨⟩)
      · exact .ok _

lemma cycleless_checkBase (line : Line) : FailsOnly Failure.Cycleless (checkBase line) := by
  rw [checkBase]
  split
  · exact .ok ()
  · split
    · exact .ok ()
    · exact Component.cycleless_failure (by rintro ⟨⟩)

end Lineage

namespace Scope

variable {scope : Scope} {schema : Mapping} {fault : ModelFault}

lemma family_of_resolve {keys : List Scalar} {ref : Value}
    (h : Reference.resolve keys ref = .error fault) : fault.family = .unresolvedType := by
  rw [Reference.resolve] at h
  split at h
  · obtain rfl := Except.error.inj h
    rfl
  · split at h
    · obtain rfl := Except.error.inj h
      rfl
    · obtain rfl := Except.error.inj h
      rfl
    · split at h
      · cases h
      · obtain rfl := Except.error.inj h
        rfl

lemma family_of_typeOfReference {ref : Value} (h : scope.typeOfReference ref = .error fault) :
    fault.family = .unresolvedType := by
  rw [typeOfReference] at h
  split at h
  · rename_i hresolve
    obtain rfl := Except.error.inj h
    exact family_of_resolve hresolve
  · split at h
    · cases h
    · obtain rfl := Except.error.inj h
      rfl

/-- What is wrong with the type of a property: it has none, or it stands for nothing. -/
lemma family_of_typeOf (h : scope.typeOf schema = .error fault) :
    fault.family = .malformed ∨ fault.family = .unresolvedType := by
  have huntyped := untyped_of_typeOf h
  clear h
  induction huntyped with
  | reference given unresolved => exact Or.inr (family_of_typeOfReference unresolved)
  | wrapped given _ ih => exact ih
  | several given => exact Or.inr rfl
  | missing absent => exact Or.inl rfl
  | unnamed given => exact Or.inr rfl
  | unknown given => exact Or.inr rfl

lemma family_of_accessibilityOf (h : scope.accessibilityOf schema = .error fault) :
    fault.family = .malformed := by
  rw [accessibilityOf] at h
  split at h
  · cases h
  · split at h
    · cases h
    · obtain rfl := Except.error.inj h
      rfl

lemma cycleless_inField {α : Type} {className : String} {field : Scalar}
    {x : Except ModelFault α}
    (h : ∀ fault, x = .error fault → fault.family = .malformed ∨ fault.family = .unresolvedType) :
    FailsOnly Failure.Cycleless (inField className field x) := by
  cases x with
  | ok a => exact .ok a
  | error fault =>
      refine Component.cycleless_failure ?_
      rcases h fault rfl with hfamily | hfamily
      · rw [hfamily]
        decide
      · rw [hfamily]
        decide

lemma cycleless_variableOf (className : String) (discriminator : Option Scalar)
    (property : Scalar × Mapping) :
    FailsOnly Failure.Cycleless (scope.variableOf className discriminator property) := by
  obtain ⟨name, schema⟩ := property
  rw [variableOf]
  refine .check (.throw (Failure.cycleless_unsupported _)) ?_
  exact .bind (cycleless_inField fun _ hfault => family_of_typeOf hfault) fun _ =>
    .bind (cycleless_inField fun _ hfault => Or.inl (family_of_accessibilityOf hfault)) fun _ =>
      .ok _

lemma cycleless_selectingValue (child : Component Scalar) (discriminator : Option Scalar) :
    FailsOnly Failure.Cycleless (selectingValue child discriminator) := by
  rw [selectingValue]
  split
  · exact Value.cycleless_shown _
  · split
    · exact Value.cycleless_shown _
    · exact .ok _

lemma cycleless_linkSubclasses (className : String) (discriminator : Option Scalar)
    (linked : List SubclassRef) (children : Components) :
    FailsOnly Failure.Cycleless (linkSubclasses className discriminator linked children) := by
  induction children generalizing linked with
  | nil => exact .ok linked
  | cons child rest ih =>
      rw [linkSubclasses]
      refine .bind (cycleless_selectingValue child discriminator) fun value => ?_
      split
      · exact Component.cycleless_failure (by rintro ⟨⟩)
      · exact ih _

lemma cycleless_assemble (c : Component Scalar) (ancestors : Components)
    (superClass : Option ClassDef) :
    FailsOnly Failure.Cycleless (scope.assemble c ancestors superClass) :=
  .bind (.traverse fun _ => cycleless_variableOf _ _ _) fun _ =>
    .bind (cycleless_linkSubclasses _ _ _ _) fun _ => .ok _

lemma cycleless_build (c : Component Scalar) (ancestors : Components) :
    FailsOnly Failure.Cycleless (scope.build c ancestors) := by
  induction ancestors generalizing c with
  | nil => exact cycleless_assemble c [] none
  | cons base rest ih =>
      rw [build]
      split
      · rename_i f hf
        exact .throw (ih base f hf)
      · exact cycleless_assemble c _ _

end Scope

/-! ## Reports -/

variable {home : Value} {schemas : Entries Scalar Mapping} {components : Components}

/-- **A truthful report of a cycle.**  It is about the first component in document order whose bases
come back, and shows the walk over its bases up to where they do. -/
def Schema.TruthfulReport (schemas : Entries Scalar Mapping) (e : ModelError) : Prop :=
  ∃ before key after visited again,
    Entries.keys schemas = before ++ .text key :: after ∧
    (∀ k, .text k ∈ before → ¬ Returns (Schema.Base schemas) k) ∧
    Returns (Schema.Base schemas) key ∧
    ClosedWalk (Schema.Base schemas) key visited again ∧
    e = ⟨.cycle ((visited ++ [again]).map Text.pascalCase), some (.text (Text.pascalCase key)),
      none⟩ ∧
    e.message = Text.pascalCase key ++ ": " ++
      ("cyclic inheritance: " ++ " -> ".intercalate ((visited ++ [again]).map Text.pascalCase))

lemma ModelError.message_cycle {className : String} (h : className ≠ "") (walk : List String) :
    (ModelError.mk (.cycle walk) (some (.text className)) none).message =
      className ++ ": " ++ ("cyclic inheritance: " ++ " -> ".intercalate walk) := by
  have hlocation : (ModelError.mk (.cycle walk) (some (.text className)) none).location =
      className ++ ": " := if_pos (bne_iff_ne.2 h)
  rw [ModelError.message, hlocation]
  exact congrArg (className ++ ": " ++ ·) rfl

open Schema (TruthfulReport)

namespace Blueprint

lemma className_eq (h : Blueprint home schemas components) {c : Component Scalar}
    (hc : c ∈ components) : c.className = Text.pascalCase c.key := by
  obtain ⟨_, -, hdescribes, -⟩ := forall₂_right h.described hc
  exact hdescribes.className

lemma of_isOk_iff (h : Blueprint home schemas components) {c : Component Scalar}
    (hc : c ∈ components) :
    (∃ line, Lineage.of components c = .ok line) ↔ ¬ Returns (Schema.Base schemas) c.key := by
  rw [Lineage.of_isOk_iff h.nodup_keys h.closed hc, h.base_eq]

/-- What is reported is the first component whose bases come back. -/
lemma truthfulReport_of_traverse (h : Blueprint home schemas components)
    (hnamed : ∀ c ∈ components, c.className ≠ "") {f : Failure}
    (hfails : traverse (Lineage.of components) components = .error f) :
    ∃ e, f = .model e ∧ e.fault.family = .cyclicInheritance ∧ TruthfulReport schemas e := by
  obtain ⟨before, c, after, rfl, hbefore, hc⟩ := traverse_eq_error_iff.1 hfails
  have hmem : c ∈ before ++ c :: after := by simp
  obtain ⟨visited, again, hclosed, rfl⟩ := Lineage.of_eq_error h.nodup_keys h.closed
    (fun _ => h.className_eq) hmem hc
  rw [h.base_eq] at hclosed
  refine ⟨_, rfl, rfl, before.map (Scalar.text ·.key), c.key, after.map (Scalar.text ·.key),
    visited, again, ?_, fun k hk => ?_, hclosed.returns, hclosed, ?_, ?_⟩
  · rw [h.keys_eq, List.map_append, List.map_cons]
  · obtain ⟨d, hd, hkey⟩ := List.mem_map.1 hk
    obtain rfl := Scalar.text.inj hkey
    exact (h.of_isOk_iff (List.mem_append_left _ hd)).1 (hbefore d hd)
  · rw [h.className_eq hmem]
  · rw [← h.className_eq hmem]
    exact ModelError.message_cycle (hnamed c hmem) _

/-- A component whose bases come back has no lineage. -/
lemma exists_error_of_returns (h : Blueprint home schemas components) {key : String}
    (hkey : Scalar.text key ∈ Entries.keys schemas) (hreturns : Returns (Schema.Base schemas) key) :
    ∃ f, traverse (Lineage.of components) components = .error f := by
  obtain ⟨c, hc⟩ := h.exists_find? hkey
  have hmem := Lineage.mem_of_find? hc
  cases htraverse : traverse (Lineage.of components) components with
  | ok lines =>
      have hline := traverse_isOk_iff.1 ⟨lines, htraverse⟩ c hmem
      rw [h.of_isOk_iff hmem, Lineage.key_of_find? hc] at hline
      exact absurd hreturns hline
  | error f => exact ⟨f, rfl⟩

/-- No walk over bases has more keys than there are components. -/
lemma length_le_of_follows (h : Blueprint home schemas components) {key : String}
    {visited : List String} (hkey : Scalar.text key ∈ Entries.keys schemas)
    (hfollows : Follows (Schema.Base schemas) key visited) :
    visited.length ≤ schemas.length := by
  have hlength : (components.map (·.key)).length = schemas.length := by
    rw [List.length_map, h.described.length_eq]
  rw [← hlength]
  refine hfollows.length_le ?_ fun k b hb => ?_
  · obtain ⟨c, hc⟩ := h.exists_find? hkey
    exact Lineage.key_of_find? hc ▸ List.mem_map_of_mem (f := (·.key)) (Lineage.mem_of_find? hc)
  · rw [← h.base_eq] at hb
    obtain ⟨c, hc, hbase⟩ := hb
    obtain ⟨d, hd⟩ := h.closed c (Lineage.mem_of_find? hc) b hbase
    exact Lineage.key_of_find? hd ▸ List.mem_map_of_mem (f := (·.key)) (Lineage.mem_of_find? hd)

/-- Where no bases come back, every component has a lineage: its bases up to one that has none. -/
lemma exists_lines (h : Blueprint home schemas components)
    (hnone : ∀ key, Scalar.text key ∈ Entries.keys schemas →
      ¬ Returns (Schema.Base schemas) key) :
    ∃ lines, traverse (Lineage.of components) components = .ok lines ∧
      lines.map (Scalar.text ·.component.key) = Entries.keys schemas ∧
      ∀ line ∈ lines,
        Schema.BaseChain schemas line.component.key (line.ancestors.map (·.key)) ∧
        (line.component.key :: line.ancestors.map (·.key)).Nodup := by
  obtain ⟨lines, hlines⟩ := traverse_isOk_iff.2 fun c hc =>
    (h.of_isOk_iff hc).2 (hnone c.key (by
      rw [h.keys_eq]
      exact List.mem_map_of_mem hc))
  have hchains := (List.forall₂_and_left _ _).2 ⟨fun _ hc => hc, traverse_eq_ok_iff.1 hlines⟩
  refine ⟨lines, hlines, ?_, fun line hline => ?_⟩
  · rw [h.keys_eq]
    refine (map_eq_of_forall₂ hchains fun c line hof => ?_).symm
    rw [((Lineage.of_eq_ok h.nodup_keys hof.1).1 hof.2).1]
  · obtain ⟨c, -, hc, hof⟩ := forall₂_right hchains hline
    obtain ⟨rfl, hchain⟩ := (Lineage.of_eq_ok h.nodup_keys hc).1 hof
    exact ⟨h.baseChain_of_chain hchain, hchain.nodup⟩

end Blueprint

/-! ## The pass that follows the bases -/

namespace ClassModel

variable {doc : Document} {registry : TypeRegistry} {accessibility : Accessibility} {e : ModelError}

/-- **A cycle is reported where a component has no lineage**, and nowhere else. -/
lemma ofComponents_eq_cycle {classNames : List (Scalar × String)}
    (hcycle : e.fault.family = .cyclicInheritance) :
    ofComponents registry accessibility classNames components = .error (.model e) ↔
      traverse (Lineage.of components) components = .error (.model e) := by
  rw [ofComponents, bind_eq_error]
  refine or_iff_left ?_
  rintro ⟨lines, -, hrest⟩
  have hother : FailsOnly Failure.Cycleless (do
      let _ ← traverse (fun line : Lineage.Line =>
        Lineage.checkUnambiguous (line.component :: line.ancestors)) lines
      let _ ← traverse Lineage.checkBase lines
      let scope : Scope := ⟨registry, components, classNames, accessibility⟩
      let classes ← traverse (fun line : Lineage.Line =>
        scope.build line.component line.ancestors) lines
      return (⟨classes⟩ : ClassModel)) :=
    .bind (.traverse fun _ => Lineage.cycleless_checkUnambiguous _) fun _ =>
      .bind (.traverse Lineage.cycleless_checkBase) fun _ =>
        .bind (.traverse fun _ => Scope.cycleless_build _ _) fun _ => .ok _
  exact hother _ hrest e rfl hcycle

/-- Once the components are laid, what is left of the evaluation is about them. -/
lemma ofDocument_of_lays (htexts : Entries.TextKeys schemas) (hschemas : doc.schemas = .ok schemas)
    (hlays : Lays home schemas components) :
    ofDocument doc home registry accessibility =
      ofComponents registry accessibility (namesOf schemas) components := by
  obtain ⟨described, hdescribed, hsettled⟩ := hlays
  rw [ofDocument_eq_passes htexts hschemas, hdescribed]
  change (Component.settlePackages [] described >>= fun components =>
    ofComponents registry accessibility (namesOf schemas) components) = _
  rw [hsettled]
  rfl

/-- **Reports of cycles are truthful and complete.**  In a document whose components can be
described and make different classes, each package a scalar:

* a cycle is reported exactly if the bases of some component come back,
* and then the report is truthful;
* a walk over bases never has more keys than there are components;
* and where none come back, every component has a lineage, along which the passes that follow go
  up, and which has no key twice. -/
theorem reports_cycle (hdoc : doc.TextKeyed) (hschemas : doc.schemas = .ok schemas)
    (hdescribed : ∀ entry ∈ schemas,
      ∃ c, Component.describe home (Entries.keys schemas) entry = .ok c)
    (hdistinct : schemas.Pairwise fun entry entry' => ¬ Schema.SameClass home entry entry')
    (hpackages : ∀ entry ∈ schemas, ∃ p, Schema.package home entry.2 = .scalar p) :
    ((∃ e, ofDocument doc home registry accessibility = .error (.model e) ∧
        e.fault.family = .cyclicInheritance) ↔
      ∃ key, .text key ∈ Entries.keys schemas ∧ Returns (Schema.Base schemas) key) ∧
    (∀ e, ofDocument doc home registry accessibility = .error (.model e) →
      e.fault.family = .cyclicInheritance → TruthfulReport schemas e) ∧
    (∀ key visited, .text key ∈ Entries.keys schemas →
      Follows (Schema.Base schemas) key visited → visited.length ≤ schemas.length) ∧
    ((∀ key, .text key ∈ Entries.keys schemas → ¬ Returns (Schema.Base schemas) key) →
      ∃ components lines, Lays home schemas components ∧
        traverse (Lineage.of components) components = .ok lines ∧
        lines.map (Scalar.text ·.component.key) = Entries.keys schemas ∧
        ∀ line ∈ lines,
          Schema.BaseChain schemas line.component.key (line.ancestors.map (·.key)) ∧
          (line.component.key :: line.ancestors.map (·.key)).Nodup) := by
  have htexts := Document.textKeys_schemas hdoc hschemas
  have hkeyed : ∀ entry ∈ schemas, Value.textKeyedEntries entry.2 = true := fun _ hentry =>
    Document.textKeyed_of_mem_schemas hdoc hschemas hentry
  have hwellFormed : ∀ entry ∈ schemas, ∀ key, entry.1 = .text key →
      Schema.WellFormed (Entries.keys schemas) key entry.2 := by
    rintro ⟨key, schema⟩ hentry k rfl
    exact (Component.describe_isOk_iff (hkeyed _ hentry)).1 (hdescribed _ hentry)
  obtain ⟨components, hlays⟩ :=
    (exists_lays_iff htexts hkeyed hpackages).2 ⟨hwellFormed, hdistinct⟩
  have hblueprint := hlays.blueprint htexts hkeyed
  have hnamed : ∀ c ∈ components, c.className ≠ "" := by
    intro c hc
    obtain ⟨entry, hentry, hdescribes, -⟩ := forall₂_right hblueprint.described hc
    rw [hdescribes.className]
    exact (hwellFormed entry hentry c.key hdescribes.key).named
  have hcycle : ∀ e, e.fault.family = .cyclicInheritance →
      (ofDocument doc home registry accessibility = .error (.model e) ↔
        traverse (Lineage.of components) components = .error (.model e)) := by
    intro e he
    rw [ofDocument_of_lays htexts hschemas hlays]
    exact ofComponents_eq_cycle he
  have htruthful : ∀ e, ofDocument doc home registry accessibility = .error (.model e) →
      e.fault.family = .cyclicInheritance → TruthfulReport schemas e := by
    intro e he hfamily
    obtain ⟨e', he', -, htruthful⟩ :=
      hblueprint.truthfulReport_of_traverse hnamed ((hcycle e hfamily).1 he)
    obtain rfl := Failure.model.inj he'
    exact htruthful
  refine ⟨⟨?_, ?_⟩, htruthful, fun _ _ => hblueprint.length_le_of_follows, fun hnone => ?_⟩
  · rintro ⟨e, he, hfamily⟩
    obtain ⟨before, key, after, -, -, hkeys, -, hreturns, -⟩ := htruthful e he hfamily
    exact ⟨key, hkeys ▸ List.mem_append_right _ List.mem_cons_self, hreturns⟩
  · rintro ⟨key, hkey, hreturns⟩
    obtain ⟨f, hfails⟩ := hblueprint.exists_error_of_returns hkey hreturns
    obtain ⟨e, rfl, hfamily, -⟩ := hblueprint.truthfulReport_of_traverse hnamed hfails
    exact ⟨e, (hcycle e hfamily).2 hfails, hfamily⟩
  · obtain ⟨lines, hlines⟩ := hblueprint.exists_lines hnone
    exact ⟨components, lines, hlays, hlines⟩

/-- A component that extends the one of this key and says nothing else. -/
def extending (key : String) : Mapping :=
  [(.text "allOf", .list [.mapping [(.text "$ref", .text (Reference.schemaRoot ++ key))]])]

/-- Components of which the second has a base that extends itself. -/
def looping : Entries Scalar Mapping :=
  [(.text "root", []), (.text "tail", extending "loop"), (.text "loop", extending "loop")]

lemma returns_tail : Returns (Schema.Base looping) "tail" :=
  have hloop : Schema.Base looping "loop" "loop" := ⟨_, rfl, List.mem_cons_self⟩
  ⟨"loop", .single ⟨_, rfl, List.mem_cons_self⟩, .single hloop⟩

lemma not_returns_root : ¬ Returns (Schema.Base looping) "root" := by
  have hbaseless : ∀ b, ¬ Schema.Base looping "root" b := by
    rintro b ⟨schema, hschema, hextends⟩
    obtain rfl : ([] : Mapping) = schema := Option.some.inj hschema
    cases hextends
  rintro ⟨k, hpath, hcycle⟩
  rcases hpath.cases_head with rfl | ⟨b, hb, -⟩
  · obtain ⟨b, hb, -⟩ := Relation.TransGen.head'_iff.1 hcycle
    exact hbaseless b hb
  · exact hbaseless b hb

/-- The first component has no base, so the second is reported, though the cycle is above it. -/
theorem reports_cycle_of_looping :
    (Document.ofSchemas looping).TextKeyed ∧
    (∀ entry ∈ looping,
      ∃ c, Component.describe (.text "App") (Entries.keys looping) entry = .ok c) ∧
    (looping.Pairwise fun entry entry' => ¬ Schema.SameClass (.text "App") entry entry') ∧
    (∀ entry ∈ looping, ∃ p, Schema.package (.text "App") entry.2 = .scalar p) ∧
    ∃ e, ofDocument (Document.ofSchemas looping) (.text "App") {} .owner = .error (.model e) ∧
      TruthfulReport looping e ∧ e.className = some (.text "Tail") := by
  have hdoc : (Document.ofSchemas looping).TextKeyed := by decide
  have hdescribed : ∀ entry ∈ looping,
      ∃ c, Component.describe (.text "App") (Entries.keys looping) entry = .ok c := by
    simp only [looping, List.forall_mem_cons]
    exact ⟨⟨_, rfl⟩, ⟨_, rfl⟩, ⟨_, rfl⟩, List.forall_mem_nil _⟩
  have hdistinct : looping.Pairwise fun entry entry' =>
      ¬ Schema.SameClass (.text "App") entry entry' := by
    have hnames : looping.Pairwise fun entry entry' =>
        Text.pascalCase entry.1.display ≠ Text.pascalCase entry'.1.display := by decide
    exact hnames.imp fun hname => fun ⟨_, _, _, _, _, hsame⟩ => hname hsame
  have hpackages : ∀ entry ∈ looping, ∃ p, Schema.package (.text "App") entry.2 = .scalar p := by
    simp only [looping, List.forall_mem_cons]
    exact ⟨⟨_, rfl⟩, ⟨_, rfl⟩, ⟨_, rfl⟩, List.forall_mem_nil _⟩
  obtain ⟨hexact, htruthful, -⟩ := @reports_cycle _ _ _ {} .owner hdoc
    (Document.schemas_ofSchemas looping) hdescribed hdistinct hpackages
  obtain ⟨e, he, hfamily⟩ := hexact.2 ⟨"tail", by simp [Entries.keys, looping], returns_tail⟩
  have hreport := htruthful e he hfamily
  refine ⟨hdoc, hdescribed, hdistinct, hpackages, e, he, hreport, ?_⟩
  obtain ⟨before, key, after, -, -, hkeys, hfirst, hreturns, -, rfl, -⟩ := hreport
  match before, hkeys with
  | [], hkeys =>
      obtain rfl := Scalar.text.inj (List.cons.inj hkeys).1
      exact absurd hreturns not_returns_root
  | [_], hkeys =>
      obtain rfl := Scalar.text.inj (List.cons.inj (List.cons.inj hkeys).2).1
      rfl
  | k :: k' :: rest, hkeys =>
      obtain rfl := (List.cons.inj (List.cons.inj hkeys).2).1
      exact absurd returns_tail (hfirst "tail" (by simp))

/-- A component with a list as its package, which extends itself. -/
def listedLoop : Entries Scalar Mapping :=
  [(.text "A", (.text "x-package", .list [.text "x"]) :: extending "A")]

/-- **A cycle need not be reported**: here the package is in the way. -/
theorem misplaced_of_listedLoop :
    (Document.ofSchemas listedLoop).TextKeyed ∧
    (∀ entry ∈ listedLoop,
      ∃ c, Component.describe (.text "App") (Entries.keys listedLoop) entry = .ok c) ∧
    (listedLoop.Pairwise fun entry entry' => ¬ Schema.SameClass (.text "App") entry entry') ∧
    Returns (Schema.Base listedLoop) "A" ∧
    ofDocument (Document.ofSchemas listedLoop) (.text "App") {} .owner =
      .error (.misplaced (.list [.text "x"])) ∧
    ∀ e, Failure.misplaced (.list [.text "x"]) ≠ .model e :=
  ⟨by decide, List.forall_mem_singleton.2 ⟨_, rfl⟩, List.pairwise_singleton _ _,
    ⟨"A", .refl, .single ⟨_, rfl, List.mem_cons_self⟩⟩, rfl, by rintro e ⟨⟩⟩

end ClassModel

end SchemaClasses
