import Mathlib.Data.List.Nodup
import Mathlib.Logic.Relation
import SchemaClasses.Hierarchy.Lineage
import SchemaClasses.Proofs.Description

/-!
# Chains of bases

`Lineage.climb` follows the bases of components and takes every component it meets out of a pool.
The theory here is about the components themselves, without a pool:

* `Chain` is the walk from a key up to a component without a base.  There is at most one
  (`Chain.unique`), and it meets no component twice (`Chain.nodup`).
* `of_eq_ok` says that the lineage of a component is its chain, and fails to exist only where there
  is none.
* `checkUnambiguous_isOk_iff` and `checkBase_isOk_iff` say when the discriminators along a chain
  are in order.
-/

namespace SchemaClasses.Lineage

variable {components pool chain : Components} {start : Option String}

/-! ## Finding components -/

lemma key_of_find? {key : String} {c : Component Scalar} (h : find? components key = some c) :
    c.key = key := by
  have hkey := List.find?_some h
  simpa using hkey

lemma mem_of_find? {key : String} {c : Component Scalar} (h : find? components key = some c) :
    c ∈ components :=
  List.mem_of_find?_eq_some h

lemma find?_of_mem (hkeys : (components.map (·.key)).Nodup) {c : Component Scalar}
    (hc : c ∈ components) : find? components c.key = some c := by
  induction components with
  | nil => simp at hc
  | cons d rest ih =>
      rw [List.map_cons, List.nodup_cons] at hkeys
      rw [find?, List.find?_cons]
      rcases List.mem_cons.1 hc with rfl | hc
      · simp
      · have hne : d.key ≠ c.key := fun e =>
          hkeys.1 (e ▸ List.mem_map_of_mem (f := (·.key)) hc)
        rw [beq_eq_false_iff_ne.2 hne]
        exact ih hkeys.2 hc

lemma find?_eraseP_of_ne {key key' : String} (hne : key' ≠ key) :
    find? (pool.eraseP (·.key == key)) key' = find? pool key' := by
  induction pool with
  | nil => rfl
  | cons d rest ih =>
      rw [List.eraseP_cons]
      by_cases hd : (d.key == key) = true
      · rw [hd, cond_true]
        have hother : (d.key == key') = false := by
          rw [beq_iff_eq] at hd
          exact beq_eq_false_iff_ne.2 fun e => hne (e.symm.trans hd)
        rw [find?, find?, List.find?_cons, hother]
      · rw [Bool.not_eq_true] at hd
        rw [hd, cond_false, find?, find?, List.find?_cons, List.find?_cons]
        change (match d.key == key' with | true => some d | false => find? _ key') = _
        rw [ih]
        rfl

lemma find?_eraseP_self {key : String} (hkeys : (pool.map (·.key)).Nodup) :
    find? (pool.eraseP (·.key == key)) key = none := by
  induction pool with
  | nil => rfl
  | cons d rest ih =>
      rw [List.map_cons, List.nodup_cons] at hkeys
      rw [List.eraseP_cons]
      by_cases hd : (d.key == key) = true
      · rw [hd, cond_true, find?, List.find?_eq_none]
        intro e he hek
        rw [beq_iff_eq] at hd hek
        exact hkeys.1 (hd ▸ hek ▸ List.mem_map_of_mem (f := (·.key)) he)
      · rw [Bool.not_eq_true] at hd
        rw [hd, cond_false, find?, List.find?_cons, hd]
        exact ih hkeys.2

lemma find?_of_eraseP (hkeys : (pool.map (·.key)).Nodup) {key key' : String}
    {d : Component Scalar} (h : find? (pool.eraseP (·.key == key)) key' = some d) :
    find? pool key' = some d := by
  by_cases hkey : key' = key
  · rw [hkey, find?_eraseP_self hkeys] at h
    simp at h
  · rwa [find?_eraseP_of_ne hkey] at h

/-! ## Chains -/

/-- The components met from a key on, each the base of the one before, up to one without a base. -/
inductive Chain (components : Components) : Option String → Components → Prop where
  | nil : Chain components none []
  | cons {key : String} {c : Component Scalar} {above : Components}
      (found : find? components key = some c) (rest : Chain components c.base above) :
      Chain components (some key) (c :: above)

lemma Chain.start_eq {c : Component Scalar} {above : Components}
    (h : Chain components start (c :: above)) : start = some c.key := by
  cases h with
  | cons found _ => rw [key_of_find? found]

lemma Chain.rest {c : Component Scalar} {above : Components}
    (h : Chain components start (c :: above)) : Chain components c.base above := by
  cases h with
  | cons _ rest => exact rest

lemma Chain.tail {c d : Component Scalar} {above : Components}
    (h : Chain components start (c :: d :: above)) : Chain components (some d.key) (d :: above) :=
  h.rest.start_eq ▸ h.rest

lemma Chain.unique {chain' : Components} (h : Chain components start chain)
    (h' : Chain components start chain') : chain = chain' := by
  induction h generalizing chain' with
  | nil => cases h'; rfl
  | cons found _ ih =>
      cases h' with
      | cons found' rest' =>
          rw [found, Option.some.injEq] at found'
          subst found'
          rw [ih rest']

/-- A component on a chain is found by its key, and the chain goes on from it. -/
lemma Chain.from_mem (h : Chain components start chain) {d : Component Scalar} (hd : d ∈ chain) :
    find? components d.key = some d ∧
      ∃ above, Chain components d.base above ∧ above.length < chain.length ∧ above ⊆ chain := by
  induction h with
  | nil => simp at hd
  | @cons key c above found rest ih =>
      rcases List.mem_cons.1 hd with rfl | hd
      · refine ⟨?_, above, rest, by simp, List.subset_cons_self _ _⟩
        rwa [key_of_find? found]
      · obtain ⟨hfind, above', hchain, hlt, hsub⟩ := ih hd
        refine ⟨hfind, above', hchain, ?_, fun e he => List.mem_cons_of_mem _ (hsub he)⟩
        rw [List.length_cons]
        omega

/-- **A chain meets no component twice.**  From the same key it would go on in the same way, and
the rest of the walk would be as long as the whole. -/
theorem Chain.nodup (h : Chain components start chain) : (chain.map (·.key)).Nodup := by
  induction h with
  | nil => exact List.nodup_nil
  | @cons key c above found rest ih =>
      rw [List.map_cons, List.nodup_cons]
      refine ⟨fun hmem => ?_, ih⟩
      obtain ⟨d, hd, hkey⟩ := List.mem_map.1 hmem
      obtain ⟨hfind, above', hchain, hlt, -⟩ := rest.from_mem hd
      rw [hkey, key_of_find? found, found, Option.some.injEq] at hfind
      subst hfind
      rw [rest.unique hchain] at hlt
      exact Nat.lt_irrefl _ hlt

/-! ## Climbing -/

lemma climb_of_find?_none {key : String} (h : find? pool key = none) :
    climb pool (some key) = ([], some key) := by
  rw [climb]
  split
  · rfl
  · rename_i hsome
    rw [h] at hsome
    simp at hsome

lemma climb_of_find?_some {key : String} {c : Component Scalar} (h : find? pool key = some c) :
    climb pool (some key) = (c :: (climb (pool.eraseP (·.key == key)) c.base).1,
      (climb (pool.eraseP (·.key == key)) c.base).2) := by
  rw [climb]
  split
  · rename_i hnone
    rw [h] at hnone
    simp at hnone
  · rename_i d hd
    rw [h, Option.some.injEq] at hd
    subst hd
    rfl

lemma mem_of_mem_climb {d : Component Scalar} (hd : d ∈ (climb pool start).1) : d ∈ pool := by
  induction pool, start using climb.induct with
  | case1 pool => simp [climb] at hd
  | case2 pool key hnone => simp [climb_of_find?_none hnone] at hd
  | case3 pool key c hc _ above closing hclimb ih =>
      rw [hclimb] at ih
      rw [climb_of_find?_some hc, hclimb] at hd
      rcases List.mem_cons.1 hd with rfl | hd
      · exact mem_of_find? hc
      · exact List.mem_of_mem_eraseP (ih hd)

/-- Climbing meets a chain in any pool that still has its components. -/
lemma climb_of_chain (h : Chain components start chain)
    (hpool : ∀ d ∈ chain, find? pool d.key = some d) : climb pool start = (chain, none) := by
  have hnodup := h.nodup
  induction h generalizing pool with
  | nil => rw [climb]
  | @cons key c above found rest ih =>
      obtain ⟨hc, habove⟩ := List.forall_mem_cons.1 hpool
      rw [List.map_cons, List.nodup_cons, key_of_find? found] at hnodup
      rw [key_of_find? found] at hc
      have hrest : climb (pool.eraseP (·.key == key)) c.base = (above, none) := by
        refine ih (fun d hd => ?_) hnodup.2
        have hne : d.key ≠ key := fun e =>
          hnodup.1 (e ▸ List.mem_map_of_mem (f := (·.key)) hd)
        rw [find?_eraseP_of_ne hne]
        exact habove d hd
      rw [climb_of_find?_some hc, hrest]

/-- A climb that closes no cycle met a chain. -/
lemma chain_of_climb (hkeys : (pool.map (·.key)).Nodup)
    (hpool : ∀ key c, find? pool key = some c → find? components key = some c)
    (h : climb pool start = (chain, none)) : Chain components start chain := by
  induction pool, start using climb.induct generalizing chain with
  | case1 pool =>
      rw [climb] at h
      cases h
      exact .nil
  | case2 pool key hnone =>
      rw [climb_of_find?_none hnone] at h
      simp at h
  | case3 pool key c hc _ above closing hclimb ih =>
      rw [climb_of_find?_some hc, hclimb] at h
      obtain ⟨rfl, rfl⟩ := Prod.mk.inj h
      refine .cons (hpool key c hc) (ih ?_ (fun key' d hd => ?_) hclimb)
      · exact hkeys.sublist ((List.eraseP_sublist).map _)
      · exact hpool key' d (find?_of_eraseP hkeys hd)

/-- The base of a component, by keys. -/
def Base (components : Components) (key base : String) : Prop :=
  ∃ c, find? components key = some c ∧ c.base = some base

/-! ## Ancestors along a chain -/

lemma Chain.reflTransGen_of_mem {key : String} (h : Chain components (some key) chain)
    {d : Component Scalar} (hd : d ∈ chain) :
    Relation.ReflTransGen (Base components) key d.key := by
  generalize hstart : some key = start at h
  induction h generalizing key with
  | nil => simp at hd
  | @cons key' c above found rest ih =>
      obtain rfl : key = key' := Option.some.inj hstart
      rcases List.mem_cons.1 hd with rfl | hd
      · rw [key_of_find? found]
      · cases hbase : c.base with
        | none =>
            rw [hbase] at rest
            cases rest
            simp at hd
        | some b => exact Relation.ReflTransGen.head ⟨c, found, hbase⟩ (ih hd hbase.symm)

/-- What is reached over bases stands on the chain, and further up than where it starts. -/
lemma Chain.mem_of_transGen {key : String} {c : Component Scalar} {above : Components}
    (h : Chain components (some key) (c :: above)) {b : String}
    (hb : Relation.TransGen (Base components) key b) :
    ∃ d ∈ above, find? components b = some d := by
  obtain ⟨found, rest⟩ : find? components key = some c ∧ Chain components c.base above := by
    cases h with
    | cons found rest => exact ⟨found, rest⟩
  induction hb with
  | single hstep =>
      obtain ⟨c', found', hbase⟩ := hstep
      rw [found, Option.some.injEq] at found'
      rw [found', hbase] at rest
      cases rest with
      | cons hd _ => exact ⟨_, List.mem_cons_self, hd⟩
  | tail _ hstep ih =>
      obtain ⟨d, hd, hfind⟩ := ih
      obtain ⟨d', hfind', hbase⟩ := hstep
      rw [hfind, Option.some.injEq] at hfind'
      obtain ⟨-, above', hchain, -, hsub⟩ := rest.from_mem hd
      rw [hfind', hbase] at hchain
      cases hchain with
      | cons he _ => exact ⟨_, hsub List.mem_cons_self, he⟩

lemma Chain.mem_of_reflTransGen {key : String} (h : Chain components (some key) chain) {b : String}
    (hb : Relation.ReflTransGen (Base components) key b) :
    ∃ d ∈ chain, find? components b = some d := by
  cases h with
  | @cons _ c above found rest =>
      rcases Relation.reflTransGen_iff_eq_or_transGen.1 hb with rfl | hb
      · exact ⟨c, List.mem_cons_self, found⟩
      · obtain ⟨d, hd, hfind⟩ := Chain.mem_of_transGen (.cons found rest) hb
        exact ⟨d, List.mem_cons_of_mem _ hd, hfind⟩

lemma Chain.not_transGen {key : String} (h : Chain components (some key) chain) :
    ¬ Relation.TransGen (Base components) key key := by
  intro hcycle
  have hnodup := h.nodup
  cases h with
  | @cons _ c above found rest =>
      obtain ⟨d, hd, hfind⟩ := Chain.mem_of_transGen (.cons found rest) hcycle
      rw [found, Option.some.injEq] at hfind
      rw [List.map_cons, List.nodup_cons] at hnodup
      exact hnodup.1 (hfind ▸ List.mem_map_of_mem (f := (·.key)) hd)

/-! ## Lineages -/

/-- **The lineage of a component is its chain.** -/
theorem of_eq_ok (hkeys : (components.map (·.key)).Nodup) {c : Component Scalar}
    (hc : c ∈ components) {line : Line} :
    Lineage.of components c = .ok line ↔
      line.component = c ∧ Chain components (some c.key) (c :: line.ancestors) := by
  have hfind := find?_of_mem hkeys hc
  constructor
  · intro h
    rw [Lineage.of] at h
    split at h
    · rename_i chain hclimb
      obtain rfl := Except.ok.inj h
      have hchain := chain_of_climb hkeys (fun _ _ hd => hd) hclimb
      cases hchain with
      | cons found rest =>
          rw [hfind, Option.some.injEq] at found
          subst found
          exact ⟨rfl, .cons hfind rest⟩
    · simp at h
  · rintro ⟨rfl, hchain⟩
    rw [Lineage.of, climb_of_chain hchain fun d hd => (hchain.from_mem hd).1]
    rfl

/-! ## Discriminators along a chain -/

def TextDiscriminators (components : Components) : Prop :=
  ∀ c ∈ components, ∀ n ∈ c.discriminators, ∃ name, n = .text name

lemma discriminator?_cons_of_some {c : Component Scalar} {name : Scalar}
    (h : discriminator? chain = some name) : discriminator? (c :: chain) = some name := by
  rw [discriminator?, h]

lemma mem_of_discriminator? {name : Scalar} (h : discriminator? chain = some name) :
    ∃ c ∈ chain, name ∈ c.discriminators := by
  induction chain with
  | nil => simp [discriminator?] at h
  | cons c rest ih =>
      rw [discriminator?] at h
      split at h
      · rename_i other hother
        obtain rfl := Option.some.inj h
        obtain ⟨d, hd, hname⟩ := ih hother
        exact ⟨d, List.mem_cons_of_mem _ hd, hname⟩
      · exact ⟨c, List.mem_cons_self, List.mem_of_mem_head? (Option.mem_filter_iff.1 h).1⟩

/-- A chain has a discriminator exactly if one of its components declares one. -/
lemma exists_discriminator?_iff (htexts : TextDiscriminators chain) :
    (∃ name, discriminator? chain = some name) ↔ ∃ c ∈ chain, ∃ name, name ∈ c.discriminators := by
  constructor
  · rintro ⟨name, h⟩
    obtain ⟨c, hc, hname⟩ := mem_of_discriminator? h
    exact ⟨c, hc, name, hname⟩
  · rintro ⟨c, hc, name, hname⟩
    induction chain with
    | nil => simp at hc
    | cons d rest ih =>
        obtain ⟨hd, hrest⟩ := List.forall_mem_cons.1 htexts
        cases habove : discriminator? rest with
        | some other => exact ⟨other, discriminator?_cons_of_some habove⟩
        | none =>
            rcases List.mem_cons.1 hc with rfl | hc
            · obtain ⟨first, others, hcons⟩ := List.exists_cons_of_ne_nil (List.ne_nil_of_mem hname)
              obtain ⟨s, rfl⟩ := hd first (by rw [hcons]; exact List.mem_cons_self)
              refine ⟨.text s, ?_⟩
              rw [discriminator?, habove]
              simp [hcons, Option.filter, Scalar.text_beq]
            · obtain ⟨other, hother⟩ := ih hrest hc
              rw [habove] at hother
              simp at hother

lemma length_items_le_one_iff (s : OrderedSet Scalar) (htexts : ∀ n ∈ s.items, ∃ t, n = .text t) :
    s.items.length ≤ 1 ↔ ∀ a ∈ s.items, ∀ b ∈ s.items, a = b := by
  have hdistinct := s.distinct
  match hitems : s.items with
  | [] => simp
  | [a] => simp
  | a :: b :: rest =>
      rw [hitems] at hdistinct htexts
      have hne : a ≠ b := by
        rintro rfl
        have := (List.pairwise_cons.1 hdistinct).1 a List.mem_cons_self
        simp at this
      constructor
      · intro h
        simp at h
      · intro h
        exact absurd (h a (by simp) b (by simp)) hne

/-- The names that compete in a component are those that its chain hands down and its own. -/
lemma mem_competing_iff {c : Component Scalar} (htexts : TextDiscriminators (c :: chain))
    (n : Scalar) :
    n ∈ (competing c chain).items ↔ discriminator? chain = some n ∨ n ∈ c.discriminators := by
  have hchain : ∀ m ∈ (discriminator? chain).toList, ∃ t, m = Scalar.text t := by
    intro m hm
    rw [Option.mem_toList] at hm
    obtain ⟨d, hd, hmem⟩ := mem_of_discriminator? hm
    exact htexts d (List.mem_cons_of_mem _ hd) m hmem
  rw [competing, OrderedSet.mem_items_insertAll (htexts c List.mem_cons_self), OrderedSet.ofList,
    OrderedSet.mem_items_insertAll hchain, Option.mem_toList]
  simp

lemma exists_text_of_mem_competing {c : Component Scalar} (htexts : TextDiscriminators (c :: chain)) :
    ∀ n ∈ (competing c chain).items, ∃ name, n = .text name := by
  intro n hn
  rcases (mem_competing_iff htexts n).1 hn with hn | hn
  · obtain ⟨d, hd, hmem⟩ := mem_of_discriminator? hn
    exact htexts d (List.mem_cons_of_mem _ hd) n hmem
  · exact htexts c List.mem_cons_self n hn

lemma exists_texts {names : List Scalar} (h : ∀ n ∈ names, ∃ s, n = .text s) :
    ∃ texts : List String, names = texts.map Scalar.text := by
  induction names with
  | nil => exact ⟨[], rfl⟩
  | cons n rest ih =>
      obtain ⟨⟨s, rfl⟩, hrest⟩ := List.forall_mem_cons.1 h
      obtain ⟨texts, rfl⟩ := ih hrest
      exact ⟨s :: texts, rfl⟩

/-- **The discriminators of a lineage are in order exactly if all that its components declare are
one.** -/
theorem checkUnambiguous_isOk_iff (htexts : TextDiscriminators chain) :
    (∃ u, checkUnambiguous chain = .ok u) ↔
      ∀ c ∈ chain, ∀ n ∈ c.discriminators, ∀ d ∈ chain, ∀ n' ∈ d.discriminators, n = n' := by
  induction chain with
  | nil => simp [checkUnambiguous]
  | cons c rest ih =>
      have hrest : TextDiscriminators rest := fun d hd => htexts d (List.mem_cons_of_mem _ hd)
      have hstep : (∃ u, checkUnambiguous (c :: rest) = .ok u) ↔
          (∃ u, checkUnambiguous rest = .ok u) ∧ (competing c rest).items.length ≤ 1 := by
        rw [checkUnambiguous]
        simp only [bind_eq_ok]
        by_cases hone : 1 < (competing c rest).items.length
        · simp [hone, bind_eq_ok]
        · simp [hone, pure, Except.pure, Nat.not_lt.1 hone]
      have hdeclared : ∀ n ∈ (competing c rest).items, ∃ d ∈ c :: rest, n ∈ d.discriminators := by
        intro n hn
        rcases (mem_competing_iff htexts n).1 hn with hn | hn
        · obtain ⟨d, hd, hmem⟩ := mem_of_discriminator? hn
          exact ⟨d, List.mem_cons_of_mem _ hd, hmem⟩
        · exact ⟨c, List.mem_cons_self, hn⟩
      rw [hstep, ih hrest, length_items_le_one_iff _ (exists_text_of_mem_competing htexts)]
      constructor
      · rintro ⟨habove, hcompete⟩
        -- What an ancestor declares is what the chain hands down, so it competes here as well.
        have hall : ∀ d ∈ c :: rest, ∀ n ∈ d.discriminators, n ∈ (competing c rest).items := by
          intro d hd n hn
          rw [mem_competing_iff htexts]
          rcases List.mem_cons.1 hd with rfl | hd
          · exact Or.inr hn
          · obtain ⟨m, hm⟩ := (exists_discriminator?_iff hrest).2 ⟨d, hd, n, hn⟩
            obtain ⟨e, he, hme⟩ := mem_of_discriminator? hm
            rw [habove d hd n hn e he m hme]
            exact Or.inl hm
        intro d hd n hn e he n' hn'
        exact hcompete n (hall d hd n hn) n' (hall e he n' hn')
      · intro h
        refine ⟨fun d hd n hn e he n' hn' => ?_, fun n hn n' hn' => ?_⟩
        · exact h d (List.mem_cons_of_mem _ hd) n hn e (List.mem_cons_of_mem _ he) n' hn'
        · obtain ⟨d, hd, hmem⟩ := hdeclared n hn
          obtain ⟨e, he, hmem'⟩ := hdeclared n' hn'
          exact h d hd n hmem e he n' hmem'

theorem checkBase_isOk_iff {line : Line} :
    (∃ u, checkBase line = .ok u) ↔
      (line.ancestors ≠ [] → ∃ name, discriminator? line.ancestors = some name) := by
  rw [checkBase]
  split
  · rename_i hnil
    simp [hnil]
  · rename_i base rest hcons
    rw [hcons]
    split
    · rename_i name hname
      simp [hname]
    · rename_i hnone
      simp [hnone]

/-- **The lineage of a component is in order.**  It ends, the components on it declare a single
discriminator between them, and if there is a base it has one. -/
structure InOrder (components : Components) (c : Component Scalar) (ancestors : Components) :
    Prop where
  chain : Chain components (some c.key) (c :: ancestors)
  unambiguous : ∃ u, checkUnambiguous (c :: ancestors) = .ok u
  discriminated : ancestors ≠ [] → ∃ name, discriminator? ancestors = some name

/-- The passes over lineages: each component has one, and then the two checks of discriminators. -/
def ordered (components : Components) : Except Failure (List Line) := do
  let lines ← traverse (Lineage.of components) components
  let _ ← traverse (fun line : Line => checkUnambiguous (line.component :: line.ancestors)) lines
  let _ ← traverse checkBase lines
  return lines

/-- **The passes over lineages succeed exactly if these are in order.** -/
theorem ordered_eq_ok (hkeys : (components.map (·.key)).Nodup) {lines : List Line} :
    ordered components = .ok lines ↔
      List.Forall₂ (fun c line => line.component = c ∧ InOrder components c line.ancestors)
        components lines := by
  have hpasses : ordered components = .ok lines ↔
      List.Forall₂ (fun c line => Lineage.of components c = .ok line ∧
        (∃ u, checkUnambiguous (line.component :: line.ancestors) = .ok u) ∧
        ∃ u, checkBase line = .ok u) components lines := by
    rw [ordered]
    simp only [bind_eq_ok, traverse_eq_ok_iff, forall₂_and_right]
    constructor
    · rintro ⟨lines', hlines, us, hunambiguous, us', hbase, h⟩
      obtain rfl := Except.ok.inj h
      exact ⟨hlines, fun line hline => ⟨exists_forall₂_iff.1 ⟨us, hunambiguous⟩ line hline,
        exists_forall₂_iff.1 ⟨us', hbase⟩ line hline⟩⟩
    · rintro ⟨hlines, hchecks⟩
      obtain ⟨us, hus⟩ := exists_forall₂_iff.2 fun line hline => (hchecks line hline).1
      obtain ⟨us', hus'⟩ := exists_forall₂_iff.2 fun line hline => (hchecks line hline).2
      exact ⟨lines, hlines, us, hus, us', hus', rfl⟩
  rw [hpasses]
  refine forall₂_congr fun c hc line => ?_
  rw [of_eq_ok hkeys hc, checkBase_isOk_iff]
  constructor
  · rintro ⟨⟨rfl, hchain⟩, hunambiguous, hdiscriminated⟩
    exact ⟨rfl, hchain, hunambiguous, hdiscriminated⟩
  · rintro ⟨rfl, hchain, hunambiguous, hdiscriminated⟩
    exact ⟨⟨rfl, hchain⟩, hunambiguous, hdiscriminated⟩

lemma ordered_isOk_iff (hkeys : (components.map (·.key)).Nodup) :
    (∃ lines, ordered components = .ok lines) ↔
      ∀ c ∈ components, ∃ ancestors, InOrder components c ancestors := by
  simp only [ordered_eq_ok hkeys, exists_forall₂_iff]
  refine forall_congr' fun c => imp_congr_right fun _ => ?_
  constructor
  · rintro ⟨line, rfl, hline⟩
    exact ⟨line.ancestors, hline⟩
  · rintro ⟨ancestors, hline⟩
    exact ⟨⟨c, ancestors⟩, rfl, hline⟩

end SchemaClasses.Lineage
