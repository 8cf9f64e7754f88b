import Mathlib.Data.List.Chain
import Mathlib.Data.List.Perm.Subperm
import SchemaClasses.Proofs.Lineage

/-!
# Walks over bases

To find cycles, the bases of a component are followed one after the other, and the keys that were
met are kept.  `Follows` are the states of such a walk: it goes on as long as the next key is new.
Each step keeps the keys distinct, so a walk has no more of them than there are components, and it
stops on every graph of bases (`Follows.length_le`).

Where it stops at a key that was met before, it is a `ClosedWalk`, and its start `Returns`: some key
above it leads back to itself.  A climb that closes is such a walk (`closedWalk_of_climb`).  So a
component has a lineage exactly if its bases do not come back (`of_isOk_iff`), and without one it
reports the walk that its own bases make (`of_eq_error`).
-/

namespace SchemaClasses.Lineage

variable {base : String → String → Prop} {key again : String} {visited : List String}
  {components pool chain : Components} {start : Option String}

/-! ## Following bases -/

/-- The keys met on the way up from a key, as long as they are new. -/
inductive Follows (base : String → String → Prop) (key : String) : List String → Prop where
  | start : Follows base key [key]
  | step {visited : List String} {last next : String} (before : Follows base key visited)
      (top : last ∈ visited.getLast?) (up : base last next) (new : next ∉ visited) :
      Follows base key (visited ++ [next])

namespace Follows

lemma head? (h : Follows base key visited) : visited.head? = some key := by
  induction h with
  | start => rfl
  | step _ _ _ _ ih => rw [List.head?_append, ih, Option.some_or]

lemma isChain (h : Follows base key visited) : visited.IsChain base := by
  induction h with
  | start => exact List.isChain_singleton key
  | @step visited last next _ top up _ ih =>
      refine List.isChain_append.2 ⟨ih, List.isChain_singleton next, fun x hx y hy => ?_⟩
      obtain rfl := Option.mem_unique hx top
      obtain rfl : next = y := Option.some.inj hy
      exact up

lemma nodup (h : Follows base key visited) : visited.Nodup := by
  induction h with
  | start => exact List.nodup_singleton key
  | step _ _ _ new ih =>
      rw [← List.concat_eq_append]
      exact ih.concat new

/-- **A walk is no longer than there are keys.** -/
lemma length_le {keys : List String} (h : Follows base key visited) (hkey : key ∈ keys)
    (hclosed : ∀ k b, base k b → b ∈ keys) : visited.length ≤ keys.length := by
  have hsub : ∀ k ∈ visited, k ∈ keys := by
    induction h with
    | start => exact List.forall_mem_singleton.2 hkey
    | step _ _ up _ ih =>
        exact List.forall_mem_append.2 ⟨ih, List.forall_mem_singleton.2 (hclosed _ _ up)⟩
  exact (List.subperm_of_subset h.nodup hsub).length_le

end Follows

/-! ## Coming back -/

/-- Following the bases from a key comes back to a key that was met before. -/
def Returns (base : String → String → Prop) (key : String) : Prop :=
  ∃ k, Relation.ReflTransGen base key k ∧ Relation.TransGen base k k

/-- **A walk that comes back**: it starts at a key, each of its steps goes to a base, its keys are
distinct, and the last step goes to one of them. -/
structure ClosedWalk (base : String → String → Prop) (key : String) (visited : List String)
    (again : String) : Prop where
  followed : Follows base key visited
  start : visited.head? = some key
  steps : (visited ++ [again]).IsChain base
  distinct : visited.Nodup
  closes : again ∈ visited

lemma closedWalk_of_follows {last : String} (h : Follows base key visited)
    (top : last ∈ visited.getLast?) (up : base last again) (closes : again ∈ visited) :
    ClosedWalk base key visited again := by
  refine ⟨h, h.head?, ?_, h.nodup, closes⟩
  refine List.isChain_append.2 ⟨h.isChain, List.isChain_singleton again, fun x hx y hy => ?_⟩
  obtain rfl := Option.mem_unique hx top
  obtain rfl : again = y := Option.some.inj hy
  exact up

lemma transGen_of_isChain {k : String} {between : List String}
    (h : (k :: (between ++ [again])).IsChain base) : Relation.TransGen base k again := by
  induction between generalizing k with
  | nil => exact .single (List.isChain_pair.1 h)
  | cons l rest ih =>
      rw [List.cons_append, List.isChain_cons_cons] at h
      exact .head h.1 (ih h.2)

/-- Where a walk comes back, its start returns. -/
lemma ClosedWalk.returns (h : ClosedWalk base key visited again) : Returns base key := by
  obtain ⟨before, after, rfl⟩ := List.append_of_mem h.closes
  refine ⟨again, ?_, ?_⟩
  · have hbefore := h.steps.left_of_append
    rw [List.append_cons] at hbefore
    have hstart := h.start
    cases before with
    | nil =>
        obtain rfl : again = key := Option.some.inj hstart
        exact .refl
    | cons k rest =>
        obtain rfl : k = key := Option.some.inj hstart
        exact (transGen_of_isChain hbefore.left_of_append).to_reflTransGen
  · have hsteps := h.steps
    rw [List.append_assoc] at hsteps
    exact transGen_of_isChain hsteps.right_of_append

/-! ## Climbing -/

/-- **A climb follows the bases.**  What is missing from the pool has been visited, and the climb
goes on where the walk stands; so where it closes, the walk comes back. -/
lemma closedWalk_of_climb_from (hvisited : Follows (Base components) key visited)
    (hpool : ∀ k, find? pool k = if k ∈ visited then none else find? components k)
    (hkeys : (pool.map (·.key)).Nodup)
    (hclosed : ∀ c ∈ components, ∀ b, c.base = some b → ∃ d, find? components b = some d)
    (hstart : ∀ s, start = some s → ∃ last ∈ visited.getLast?, Base components last s)
    (h : climb pool start = (chain, some again)) :
    ClosedWalk (Base components) key (visited ++ chain.map (·.key)) again := by
  induction pool, start using climb.induct generalizing visited chain with
  | case1 pool =>
      rw [climb] at h
      cases h
  | case2 pool s hnone =>
      rw [climb_of_find?_none hnone] at h
      obtain ⟨rfl, hs⟩ := Prod.mk.inj h
      obtain rfl : s = again := Option.some.inj hs
      obtain ⟨last, htop, hup⟩ := hstart s rfl
      rw [List.map_nil, List.append_nil]
      refine closedWalk_of_follows hvisited htop hup ?_
      by_contra hnew
      obtain ⟨c, hc, hbase⟩ := hup
      obtain ⟨d, hd⟩ := hclosed c (mem_of_find? hc) s hbase
      rw [hpool, if_neg hnew, hd] at hnone
      cases hnone
  | case3 pool s c hc _ above closing hclimb ih =>
      rw [climb_of_find?_some hc, hclimb] at h
      obtain ⟨rfl, rfl⟩ := Prod.mk.inj h
      obtain ⟨last, htop, hup⟩ := hstart s rfl
      have hfound := hpool s
      rw [hc] at hfound
      have hnew : s ∉ visited := by
        intro hmem
        rw [if_pos hmem] at hfound
        cases hfound
      rw [if_neg hnew] at hfound
      have hrest := ih (hvisited.step htop hup hnew) (fun k => ?_)
        (hkeys.sublist (List.eraseP_sublist.map _)) (fun b hb => ?_) hclimb
      · rw [List.append_assoc, List.singleton_append] at hrest
        rw [List.map_cons, key_of_find? hc]
        exact hrest
      · by_cases hk : k = s
        · rw [hk, find?_eraseP_self hkeys, if_pos (List.mem_append_right _ List.mem_cons_self)]
        · rw [find?_eraseP_of_ne hk, hpool]
          simp only [List.mem_append, List.mem_singleton, hk, or_false]
      · exact ⟨s, by simp, c, hfound.symm, hb⟩

/-- A report of a cycle can be written. -/
lemma failure_cycle {α : Type} (walk : List String) (className : String) :
    (Component.failure (.cycle walk) (.text className) : Except Failure α) =
      .error (.model ⟨.cycle walk, some (.text className), none⟩) := by
  rw [Component.failure, Failure.raise, Failure.settled]
  rfl

section

variable (hkeys : (components.map (·.key)).Nodup)
  (hclosed : ∀ c ∈ components, ∀ b, c.base = some b → ∃ d, find? components b = some d)

include hkeys hclosed

/-- A climb from a component closes only where its bases come back. -/
lemma closedWalk_of_climb {c : Component Scalar} (hc : c ∈ components)
    (h : climb components (some c.key) = (chain, some again)) :
    ClosedWalk (Base components) c.key (chain.map (·.key)) again := by
  have hfind := find?_of_mem hkeys hc
  rw [climb_of_find?_some hfind] at h
  obtain ⟨rfl, hagain⟩ := Prod.mk.inj h
  refine closedWalk_of_climb_from .start (fun k => ?_) (hkeys.sublist (List.eraseP_sublist.map _))
    hclosed (fun b hb => ⟨c.key, rfl, c, hfind, hb⟩) (Prod.ext rfl hagain)
  by_cases hk : k = c.key
  · rw [hk, find?_eraseP_self hkeys, if_pos List.mem_cons_self]
  · rw [find?_eraseP_of_ne hk, if_neg (mt List.mem_singleton.1 hk)]

/-! ## Lineages -/

/-- **A component has a lineage exactly if its bases do not come back.** -/
theorem of_isOk_iff {c : Component Scalar} (hc : c ∈ components) :
    (∃ line, Lineage.of components c = .ok line) ↔ ¬ Returns (Base components) c.key := by
  constructor
  · rintro ⟨line, hline⟩ ⟨k, hpath, hcycle⟩
    obtain ⟨-, hchain⟩ := (of_eq_ok hkeys hc).1 hline
    obtain ⟨d, hd, hfind⟩ := hchain.mem_of_reflTransGen hpath
    obtain ⟨hfind', above, habove, -⟩ := hchain.from_mem hd
    obtain rfl := key_of_find? hfind
    exact (Chain.cons hfind' habove).not_transGen hcycle
  · intro hreturns
    rw [Lineage.of]
    split
    · exact ⟨_, rfl⟩
    · rename_i chain again hclimb
      exact absurd (closedWalk_of_climb hkeys hclosed hc hclimb).returns hreturns

/-- **Every component has a lineage exactly if no base leads back to itself.** -/
theorem forall_of_isOk_iff : (∀ c ∈ components, ∃ line, Lineage.of components c = .ok line) ↔
    ∀ key, ¬ Relation.TransGen (Base components) key key := by
  constructor
  · intro h key hcycle
    obtain ⟨c, hfind⟩ : ∃ c, find? components key = some c := by
      obtain ⟨_, ⟨c, hc, -⟩, -⟩ := Relation.TransGen.head'_iff.1 hcycle
      exact ⟨c, hc⟩
    have hline := h c (mem_of_find? hfind)
    rw [of_isOk_iff hkeys hclosed (mem_of_find? hfind), key_of_find? hfind] at hline
    exact hline ⟨key, .refl, hcycle⟩
  · rintro hacyclic c hc
    rw [of_isOk_iff hkeys hclosed hc]
    rintro ⟨k, -, hcycle⟩
    exact hacyclic k hcycle

/-- **A component without a lineage reports how its bases come back.** -/
theorem of_eq_error (hnames : ∀ c ∈ components, c.className = Text.pascalCase c.key)
    {c : Component Scalar} (hc : c ∈ components) {f : Failure}
    (h : Lineage.of components c = .error f) :
    ∃ visited again, ClosedWalk (Base components) c.key visited again ∧
      f = .model ⟨.cycle ((visited ++ [again]).map Text.pascalCase), some (.text c.className),
        none⟩ := by
  rw [Lineage.of] at h
  split at h
  · cases h
  · rename_i chain again hclimb
    have hclosing := closedWalk_of_climb hkeys hclosed hc hclimb
    have hmet : ∀ d ∈ chain, d ∈ components := by
      intro d hd
      have hclimbed : d ∈ (climb components (some c.key)).1 := by rwa [hclimb]
      exact mem_of_mem_climb hclimbed
    obtain ⟨d, hd, hkey⟩ : ∃ d, find? components again = some d ∧ d.key = again := by
      obtain ⟨d, hd, hkey⟩ := List.mem_map.1 hclosing.closes
      rw [← hkey]
      exact ⟨d, find?_of_mem hkeys (hmet d hd), rfl⟩
    have hwalk : chain.map (·.className) ++ ((find? components again).map (·.className)).toList =
        (chain.map (·.key) ++ [again]).map Text.pascalCase := by
      rw [hd, Option.map_some, Option.toList_some, hnames d (mem_of_find? hd), hkey,
        List.map_append, List.map_map, List.map_singleton]
      congr 1
      exact List.map_congr_left fun e he => hnames e (hmet e he)
    refine ⟨_, again, hclosing, ?_⟩
    rw [← hwalk]
    exact (Except.error.inj ((failure_cycle _ _).symm.trans h)).symm

end

end SchemaClasses.Lineage
