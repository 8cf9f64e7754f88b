import SchemaClasses.Proofs.BaseWalks
import SchemaClasses.Proofs.Evaluation

/-!
# Consistent components

Before any class is built, the components of a document are looked at together: their class names
and packages, their bases, and their discriminators.  `Schema.Consistent` says what must hold of
them, in terms of the schemas alone, and `prepare_isOk_iff` that it is what these passes check.

The conditions on bases and discriminators are about paths between schemas, while the passes walk
along the chains of components; `Blueprint.inherits_iff` carries one to the other.
-/

namespace SchemaClasses

open Lineage (Components Chain InOrder find? discriminator?)

/-! ## Consistency -/

namespace Schema

/-- A component declares this discriminator, or one of its transitive bases does. -/
def Inherits (schemas : Entries Scalar Mapping) (key name : String) : Prop :=
  ∃ above schema, Relation.ReflTransGen (Base schemas) key above ∧
    Entries.get? schemas (.text above) = some schema ∧ Declares schema name

/-- Two components make classes of the same name in the same package. -/
def SameClass (home : Value) (entry entry' : Scalar × Mapping) : Prop :=
  ∃ p p', package home entry.2 = .scalar p ∧ package home entry'.2 = .scalar p' ∧
    (p == p') = true ∧ Text.pascalCase entry.1.display = Text.pascalCase entry'.1.display

/-- **The components of a document are consistent.**  Each is well formed on its own, no two make
the same class, no component extends itself over others, no component has two discriminators, and
every component that another extends has one. -/
structure Consistent (home : Value) (schemas : Entries Scalar Mapping) : Prop where
  wellFormed : ∀ entry ∈ schemas, ∀ key, entry.1 = .text key →
    WellFormed (Entries.keys schemas) key entry.2
  distinct : schemas.Pairwise fun entry entry' => ¬ SameClass home entry entry'
  acyclic : ∀ key, ¬ Relation.TransGen (Base schemas) key key
  unambiguous : ∀ key name name', Inherits schemas key name → Inherits schemas key name' →
    name = name'
  discriminated : ∀ key base, Base schemas key base → ∃ name, Inherits schemas base name

end Schema

open Schema (Inherits Consistent)

/-! ## Lineages -/

namespace Blueprint

variable {home : Value} {schemas : Entries Scalar Mapping} {components : Components}

lemma base_eq (h : Blueprint home schemas components) :
    Lineage.Base components = Schema.Base schemas := by
  funext key base
  exact propext h.base_iff

/-- What a component inherits is what the components on its chain declare. -/
lemma inherits_iff (h : Blueprint home schemas components) {key : String}
    {chain : Components} (hchain : Chain components (some key) chain) (name : String) :
    Inherits schemas key name ↔ ∃ c ∈ chain, Scalar.text name ∈ c.discriminators := by
  constructor
  · rintro ⟨above, schema, hpath, hschema, hdeclares⟩
    rw [← h.base_eq] at hpath
    obtain ⟨c, hc, hfind⟩ := hchain.mem_of_reflTransGen hpath
    obtain ⟨c', hfind', hdescribes⟩ := h.find?_of_get? hschema
    obtain rfl : c = c' := Option.some.inj (hfind.symm.trans hfind')
    exact ⟨c, hc, (hdescribes.discriminator _).2 ⟨name, rfl, hdeclares⟩⟩
  · rintro ⟨c, hc, hname⟩
    obtain ⟨schema, hschema, hdescribes, -⟩ := h.describes_of_find? (hchain.from_mem hc).1
    obtain ⟨name', heq, hdeclares⟩ := (hdescribes.discriminator _).1 hname
    obtain rfl : name = name' := Scalar.text.inj heq
    have hpath := hchain.reflTransGen_of_mem hc
    rw [h.base_eq] at hpath
    exact ⟨c.key, schema, hpath, hschema, hdeclares⟩

lemma find?_of_inherits (h : Blueprint home schemas components) {key name : String}
    (hname : Inherits schemas key name) : ∃ c, find? components key = some c := by
  obtain ⟨above, schema, hpath, hschema, -⟩ := hname
  rcases hpath.cases_head with rfl | ⟨base, ⟨schema', hschema', -⟩, -⟩
  · obtain ⟨c, hc, -⟩ := h.find?_of_get? hschema
    exact ⟨c, hc⟩
  · obtain ⟨c, hc, -⟩ := h.find?_of_get? hschema'
    exact ⟨c, hc⟩

lemma inherits_of_discriminator? (h : Blueprint home schemas components) {key : String}
    {chain : Components} (hchain : Chain components (some key) chain) {n : Scalar}
    (hn : discriminator? chain = some n) : ∃ name, n = .text name ∧ Inherits schemas key name := by
  obtain ⟨c, hc, hmem⟩ := Lineage.mem_of_discriminator? hn
  obtain ⟨name, rfl⟩ := h.textDiscriminators_of_chain hchain c hc n hmem
  exact ⟨name, rfl, (h.inherits_iff hchain name).2 ⟨c, hc, hmem⟩⟩

lemma exists_discriminator?_iff (h : Blueprint home schemas components) {key : String}
    {chain : Components} (hchain : Chain components (some key) chain) :
    (∃ n, discriminator? chain = some n) ↔ ∃ name, Inherits schemas key name := by
  constructor
  · rintro ⟨n, hn⟩
    obtain ⟨name, -, hname⟩ := h.inherits_of_discriminator? hchain hn
    exact ⟨name, hname⟩
  · rintro ⟨name, hname⟩
    obtain ⟨c, hc, hmem⟩ := (h.inherits_iff hchain name).1 hname
    exact (Lineage.exists_discriminator?_iff (h.textDiscriminators_of_chain hchain)).2
      ⟨c, hc, _, hmem⟩

lemma checkUnambiguous_isOk_iff (h : Blueprint home schemas components) {key : String}
    {chain : Components} (hchain : Chain components (some key) chain) :
    (∃ u, Lineage.checkUnambiguous chain = .ok u) ↔
      ∀ name name', Inherits schemas key name → Inherits schemas key name' → name = name' := by
  have htexts := h.textDiscriminators_of_chain hchain
  rw [Lineage.checkUnambiguous_isOk_iff htexts]
  simp only [h.inherits_iff hchain]
  constructor
  · rintro hsame name name' ⟨c, hc, hname⟩ ⟨d, hd, hname'⟩
    exact Scalar.text.inj (hsame c hc _ hname d hd _ hname')
  · intro hsame c hc n hn d hd n' hn'
    obtain ⟨name, rfl⟩ := htexts c hc n hn
    obtain ⟨name', rfl⟩ := htexts d hd n' hn'
    rw [hsame name name' ⟨c, hc, hn⟩ ⟨d, hd, hn'⟩]

/-- Every component has a chain exactly if no component extends itself over others. -/
lemma exists_chain_iff (h : Blueprint home schemas components) :
    (∀ c ∈ components, ∃ ancestors, Chain components (some c.key) (c :: ancestors)) ↔
      ∀ key, ¬ Relation.TransGen (Schema.Base schemas) key key := by
  rw [← h.base_eq, ← Lineage.forall_of_isOk_iff h.nodup_keys h.closed]
  refine forall_congr' fun c => imp_congr_right fun hc => ?_
  simp only [Lineage.of_eq_ok h.nodup_keys hc]
  constructor
  · rintro ⟨ancestors, hchain⟩
    exact ⟨⟨c, ancestors⟩, rfl, hchain⟩
  · rintro ⟨line, rfl, hchain⟩
    exact ⟨line.ancestors, hchain⟩

/-- **All lineages are in order exactly if the bases and discriminators of the schemas are.** -/
theorem inOrder_iff (h : Blueprint home schemas components) :
    (∀ c ∈ components, ∃ ancestors, InOrder components c ancestors) ↔
      (∀ key, ¬ Relation.TransGen (Schema.Base schemas) key key) ∧
      (∀ key name name', Inherits schemas key name → Inherits schemas key name' → name = name') ∧
      ∀ key base, Schema.Base schemas key base → ∃ name, Inherits schemas base name := by
  constructor
  · intro hall
    refine ⟨h.exists_chain_iff.1 fun c hc => ?_, fun key name name' hname hname' => ?_,
      fun key base hbase => ?_⟩
    · obtain ⟨ancestors, hline⟩ := hall c hc
      exact ⟨ancestors, hline.chain⟩
    · obtain ⟨c, hc⟩ := h.find?_of_inherits hname
      obtain ⟨ancestors, hline⟩ := hall c (Lineage.mem_of_find? hc)
      obtain rfl := Lineage.key_of_find? hc
      exact (h.checkUnambiguous_isOk_iff hline.chain).1 hline.unambiguous name name' hname hname'
    · obtain ⟨c, hc, hbase⟩ := h.base_iff.2 hbase
      obtain ⟨ancestors, hline⟩ := hall c (Lineage.mem_of_find? hc)
      have hrest : Chain components (some base) ancestors := hbase ▸ hline.chain.rest
      have hne : ancestors ≠ [] := by
        rintro rfl
        cases hrest
      exact (h.exists_discriminator?_iff hrest).1 (hline.discriminated hne)
  · rintro ⟨hacyclic, hunambiguous, hdiscriminated⟩ c hc
    obtain ⟨ancestors, hchain⟩ := h.exists_chain_iff.2 hacyclic c hc
    refine ⟨ancestors, hchain, (h.checkUnambiguous_isOk_iff hchain).2 (hunambiguous c.key),
      fun hne => ?_⟩
    cases ancestors with
    | nil => exact absurd rfl hne
    | cons base rest =>
        rw [h.exists_discriminator?_iff hchain.tail]
        exact hdiscriminated c.key base.key
          (h.base_iff.1 ⟨c, Lineage.find?_of_mem h.nodup_keys hc, hchain.rest.start_eq⟩)

end Blueprint

/-! ## The passes before the classes -/

namespace ClassModel

variable {home : Value} {schemas : Entries Scalar Mapping}

lemma sameClass_iff {entry entry' : Scalar × Mapping} {c c' : Component Scalar}
    (h : Component.Describes (Entries.keys schemas) entry c ∧
      Schema.package home entry.2 = .scalar c.package)
    (h' : Component.Describes (Entries.keys schemas) entry' c' ∧
      Schema.package home entry'.2 = .scalar c'.package) :
    Schema.SameClass home entry entry' ↔ c.sameClass c' = true := by
  obtain ⟨hdescribes, hpackage⟩ := h
  obtain ⟨hdescribes', hpackage'⟩ := h'
  have hname : (c.className == c'.className) = true ↔
      Text.pascalCase c.key = Text.pascalCase c'.key := by
    rw [hdescribes.className, hdescribes'.className, beq_iff_eq]
  rw [Schema.SameClass, Component.sameClass, hpackage, hpackage', hdescribes.key, hdescribes'.key,
    Bool.and_eq_true, hname]
  constructor
  · rintro ⟨p, p', hp, hp', hsame, hname⟩
    cases hp
    cases hp'
    exact ⟨hsame, hname⟩
  · rintro ⟨hsame, hname⟩
    exact ⟨_, _, rfl, rfl, hsame, hname⟩

/-- **The first passes succeed exactly if the components are well formed and make different
classes.** -/
theorem exists_lays_iff (htexts : Entries.TextKeys schemas)
    (hkeyed : ∀ entry ∈ schemas, Value.textKeyedEntries entry.2 = true)
    (hpackages : ∀ entry ∈ schemas, ∃ p, Schema.package home entry.2 = .scalar p) :
    (∃ components, Lays home schemas components) ↔
      (∀ entry ∈ schemas, ∀ key, entry.1 = .text key →
        Schema.WellFormed (Entries.keys schemas) key entry.2) ∧
      schemas.Pairwise fun entry entry' => ¬ Schema.SameClass home entry entry' := by
  have hdistinct : ∀ components, List.Forall₂ (fun entry c =>
      Component.Describes (Entries.keys schemas) entry c ∧
        Schema.package home entry.2 = .scalar c.package) schemas components →
      (schemas.Pairwise (fun entry entry' => ¬ Schema.SameClass home entry entry') ↔
        Component.Distinct components) := by
    intro components hdescribed
    refine pairwise_iff_of_forall₂ hdescribed fun entry c entry' c' h h' => ?_
    rw [sameClass_iff h h', Bool.not_eq_true]
  constructor
  · rintro ⟨components, hlays⟩
    have hblueprint := hlays.blueprint htexts hkeyed
    refine ⟨?_, (hdistinct _ hblueprint.described).2 hblueprint.distinct⟩
    rintro ⟨key, schema⟩ hentry k rfl
    obtain ⟨described, hdescribed, -⟩ := hlays
    obtain ⟨c, -, hc⟩ := forall₂_left (traverse_eq_ok_iff.1 hdescribed) hentry
    exact (Component.describe_isOk_iff (hkeyed _ hentry)).1 ⟨c, hc⟩
  · rintro ⟨hwellFormed, hdiffer⟩
    obtain ⟨described, hdescribed⟩ : ∃ described,
        traverse (Component.describe home (Entries.keys schemas)) schemas = .ok described := by
      rw [traverse_isOk_iff]
      rintro ⟨key, schema⟩ hentry
      obtain ⟨k, rfl⟩ := htexts.1 _ hentry
      exact (Component.describe_isOk_iff (hkeyed _ hentry)).2 (hwellFormed _ hentry k rfl)
    obtain ⟨components, hsettled⟩ : ∃ components,
        List.Forall₂ Component.Settles described components := by
      rw [exists_forall₂_iff]
      intro c hc
      obtain ⟨entry, hentry, hdescribe⟩ := forall₂_right (traverse_eq_ok_iff.1 hdescribed) hc
      obtain ⟨p, hp⟩ := hpackages entry hentry
      have hpackage := (Component.describes_of_describe (hkeyed entry hentry) hdescribe).2
      exact ⟨c.withPackage p, hpackage.trans hp, rfl⟩
    have hnew := (hdistinct _ (described_of_settles hkeyed hdescribed hsettled)).1 hdiffer
    exact ⟨components, described, hdescribed,
      Component.settlePackages_of_settles hsettled (by simpa using hnew)⟩

/-- Consistent components have descriptions with lineages in order. -/
theorem consistent_iff (htexts : Entries.TextKeys schemas)
    (hkeyed : ∀ entry ∈ schemas, Value.textKeyedEntries entry.2 = true)
    (hpackages : ∀ entry ∈ schemas, ∃ p, Schema.package home entry.2 = .scalar p) :
    Consistent home schemas ↔ ∃ components, Lays home schemas components ∧
      ∀ c ∈ components, ∃ ancestors, InOrder components c ancestors := by
  constructor
  · rintro ⟨hwellFormed, hdistinct, hacyclic, hunambiguous, hdiscriminated⟩
    obtain ⟨components, hlays⟩ :=
      (exists_lays_iff htexts hkeyed hpackages).2 ⟨hwellFormed, hdistinct⟩
    exact ⟨components, hlays, (hlays.blueprint htexts hkeyed).inOrder_iff.2
      ⟨hacyclic, hunambiguous, hdiscriminated⟩⟩
  · rintro ⟨components, hlays, hlines⟩
    obtain ⟨hwellFormed, hdistinct⟩ := (exists_lays_iff htexts hkeyed hpackages).1 ⟨_, hlays⟩
    obtain ⟨hacyclic, hunambiguous, hdiscriminated⟩ :=
      (hlays.blueprint htexts hkeyed).inOrder_iff.1 hlines
    exact ⟨hwellFormed, hdistinct, hacyclic, hunambiguous, hdiscriminated⟩

/-- The passes before the classes: components are described, and their lineages are checked. -/
def prepare (home : Value) (schemas : Entries Scalar Mapping) :
    Except Failure (List Lineage.Line) := do
  let described ← traverse (Component.describe home (Entries.keys schemas)) schemas
  let components ← Component.settlePackages [] described
  Lineage.ordered components

/-- **The passes before the classes succeed exactly if the components are consistent.** -/
theorem prepare_isOk_iff (htexts : Entries.TextKeys schemas)
    (hkeyed : ∀ entry ∈ schemas, Value.textKeyedEntries entry.2 = true)
    (hpackages : ∀ entry ∈ schemas, ∃ p, Schema.package home entry.2 = .scalar p) :
    (∃ lines, prepare home schemas = .ok lines) ↔ Consistent home schemas := by
  have hkeys : ∀ components, Lays home schemas components → (components.map (·.key)).Nodup :=
    fun _ hlays => (hlays.blueprint htexts hkeyed).nodup_keys
  rw [consistent_iff htexts hkeyed hpackages]
  simp only [prepare, bind_eq_ok]
  constructor
  · rintro ⟨lines, described, hdescribed, components, hsettled, hlines⟩
    have hlays : Lays home schemas components := ⟨described, hdescribed, hsettled⟩
    exact ⟨components, hlays, (Lineage.ordered_isOk_iff (hkeys _ hlays)).1 ⟨lines, hlines⟩⟩
  · rintro ⟨components, hlays, hlines⟩
    obtain ⟨described, hdescribed, hsettled⟩ := id hlays
    obtain ⟨lines, hlines⟩ := (Lineage.ordered_isOk_iff (hkeys _ hlays)).2 hlines
    exact ⟨lines, described, hdescribed, components, hsettled, hlines⟩

end ClassModel

end SchemaClasses
