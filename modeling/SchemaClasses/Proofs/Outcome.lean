import Mathlib.Data.List.Forall2
import Mathlib.Tactic.Lemma
import SchemaClasses.Failure
import SchemaClasses.Traverse

/-!
# When steps succeed

The readers of this library are chains of steps in `Except`, and nearly every statement about
them begins with a success and asks what it came from.  This file opens such chains once:

* `bind_eq_ok` and `map_eq_ok` take a chain of two steps apart,
* `forall₂_right` and `forall₂_left` go from an element of one related list to its partner,
* `traverse_eq_ok_iff` turns a traversal into such a relation between two lists,
* `traverse_isOk_iff` says that a traversal succeeds exactly if every step does,
* `bind_eq_error`, `map_eq_error` and `traverse_eq_error_iff` find the step that a failure comes
  from: in a traversal it is the first that fails,
* `FailsOnly` says of what kind the failures of a step are, and a chain fails as its steps do.
-/

namespace SchemaClasses

variable {α β γ ε : Type}

lemma bind_eq_ok {x : Except ε α} {f : α → Except ε β} {b : β} :
    (x >>= f) = .ok b ↔ ∃ a, x = .ok a ∧ f a = .ok b := by
  cases x with
  | error e => simp [bind, Except.bind]
  | ok a => simp [bind, Except.bind]

lemma map_eq_ok {x : Except ε α} {f : α → β} {b : β} :
    x.map f = .ok b ↔ ∃ a, x = .ok a ∧ f a = b := by
  cases x with
  | error e => simp [Except.map]
  | ok a => simp [Except.map]

lemma mapError_eq_ok {ε' : Type} {x : Except ε α} {f : ε → ε'} {a : α} :
    x.mapError f = .ok a ↔ x = .ok a := by
  cases x with
  | error e => simp [Except.mapError]
  | ok a' => simp [Except.mapError]

lemma toOption_eq_some {x : Except ε α} {a : α} : x.toOption = some a ↔ x = .ok a := by
  cases x with
  | error e => simp [Except.toOption]
  | ok a' => simp [Except.toOption]

lemma toOption_mapError {ε' : Type} (x : Except ε α) (f : ε → ε') :
    (x.mapError f).toOption = x.toOption := by
  cases x <;> rfl

lemma map_bind {x : Except ε α} {f : α → β} {g : β → Except ε γ} :
    (x.map f >>= g) = x >>= fun a => g (f a) := by
  cases x <;> rfl

lemma bind_map {x : Except ε α} {f : β → γ} {g : α → Except ε β} :
    (x >>= g).map f = x >>= fun a => (g a).map f := by
  cases x <;> rfl

/-- What can be read off a result shows that there is one. -/
lemma exists_ok_of_toOption {x : Except ε α} {f : α → β} {b : β}
    (h : x.toOption.map f = some b) : ∃ a, x = .ok a ∧ f a = b := by
  obtain ⟨a, ha, hb⟩ := Option.map_eq_some_iff.1 h
  exact ⟨a, toOption_eq_some.1 ha, hb⟩

@[simp] lemma raise_ne_ok {f : Failure} {a : α} : (Failure.raise f : Except Failure α) ≠ .ok a := by
  simp [Failure.raise]

/-! ## Failures -/

lemma bind_eq_error {x : Except ε α} {f : α → Except ε β} {e : ε} :
    (x >>= f) = .error e ↔ x = .error e ∨ ∃ a, x = .ok a ∧ f a = .error e := by
  cases x with
  | error e' => simp [bind, Except.bind]
  | ok a => simp [bind, Except.bind]

lemma map_eq_error {x : Except ε α} {f : α → β} {e : ε} : x.map f = .error e ↔ x = .error e := by
  cases x with
  | error e' => simp [Except.map]
  | ok a => simp [Except.map]

lemma mapError_eq_error {ε' : Type} {x : Except ε α} {f : ε → ε'} {e : ε'} :
    x.mapError f = .error e ↔ ∃ e', x = .error e' ∧ f e' = e := by
  cases x with
  | error e' => simp [Except.mapError]
  | ok a => simp [Except.mapError]

/-! ## Related lists -/

lemma forall₂_right {R : α → β → Prop} {as : List α} {bs : List β} (h : List.Forall₂ R as bs)
    {b : β} (hb : b ∈ bs) : ∃ a ∈ as, R a b := by
  induction h with
  | nil => simp at hb
  | @cons a c as bs hac _ ih =>
      rcases List.mem_cons.1 hb with rfl | hb
      · exact ⟨a, List.mem_cons_self, hac⟩
      · obtain ⟨a', ha', hR⟩ := ih hb
        exact ⟨a', List.mem_cons_of_mem _ ha', hR⟩

lemma forall₂_left {R : α → β → Prop} {as : List α} {bs : List β} (h : List.Forall₂ R as bs)
    {a : α} (ha : a ∈ as) : ∃ b ∈ bs, R a b :=
  forall₂_right h.flip ha

lemma exists_forall₂_iff {R : α → β → Prop} {as : List α} :
    (∃ bs, List.Forall₂ R as bs) ↔ ∀ a ∈ as, ∃ b, R a b := by
  constructor
  · rintro ⟨bs, h⟩ a ha
    obtain ⟨b, -, hab⟩ := forall₂_left h ha
    exact ⟨b, hab⟩
  · intro h
    induction as with
    | nil => exact ⟨[], .nil⟩
    | cons a rest ih =>
        obtain ⟨⟨b, hab⟩, hrest⟩ := List.forall_mem_cons.1 h
        obtain ⟨bs, hbs⟩ := ih hrest
        exact ⟨b :: bs, .cons hab hbs⟩

lemma forall₂_and_right {R : α → β → Prop} {p : β → Prop} {as : List α} {bs : List β} :
    List.Forall₂ (fun a b => R a b ∧ p b) as bs ↔ List.Forall₂ R as bs ∧ ∀ b ∈ bs, p b := by
  constructor
  · intro h
    refine ⟨h.imp fun _ _ hab => hab.1, fun b hb => ?_⟩
    obtain ⟨a, -, -, hp⟩ := forall₂_right h hb
    exact hp
  · rintro ⟨h, hp⟩
    exact ((List.forall₂_and_left _ _).2 ⟨hp, h.flip⟩).flip.imp fun _ _ hab => hab.symm

/-- What holds of all pairs of a list holds of all pairs of its partner, where the two agree. -/
lemma pairwise_iff_of_forall₂ {R : α → β → Prop} {S : α → α → Prop} {T : β → β → Prop}
    {as : List α} {bs : List β} (h : List.Forall₂ R as bs)
    (agree : ∀ a b a' b', R a b → R a' b' → (S a a' ↔ T b b')) :
    as.Pairwise S ↔ bs.Pairwise T := by
  induction h with
  | nil => simp
  | @cons a b as bs hab hrest ih =>
      rw [List.pairwise_cons, List.pairwise_cons, ih]
      refine and_congr_left fun _ => ⟨fun hS b' hb' => ?_, fun hT a' ha' => ?_⟩
      · obtain ⟨a', ha', hR⟩ := forall₂_right hrest hb'
        exact (agree a b a' b' hab hR).1 (hS a' ha')
      · obtain ⟨b', hb', hR⟩ := forall₂_left hrest ha'
        exact (agree a b a' b' hab hR).2 (hT b' hb')

lemma forall₂_comp {R : α → β → Prop} {S : β → γ → Prop} {as : List α} {cs : List γ} :
    (∃ bs, List.Forall₂ R as bs ∧ List.Forall₂ S bs cs) ↔
      List.Forall₂ (fun a c => ∃ b, R a b ∧ S b c) as cs := by
  constructor
  · rintro ⟨bs, hR, hS⟩
    induction hR generalizing cs with
    | nil =>
        cases hS
        exact .nil
    | cons hab _ ih =>
        cases hS with
        | cons hbc hS => exact .cons ⟨_, hab, hbc⟩ (ih hS)
  · intro h
    induction h with
    | nil => exact ⟨[], .nil, .nil⟩
    | cons hac _ ih =>
        obtain ⟨b, hab, hbc⟩ := hac
        obtain ⟨bs, hR, hS⟩ := ih
        exact ⟨b :: bs, .cons hab hR, .cons hbc hS⟩

/-- Related lists may be related differently, as long as this agrees on the left elements. -/
lemma forall₂_congr {R S : α → β → Prop} {as : List α} {bs : List β}
    (h : ∀ a ∈ as, ∀ b, R a b ↔ S a b) : List.Forall₂ R as bs ↔ List.Forall₂ S as bs := by
  induction as generalizing bs with
  | nil => rw [List.forall₂_nil_left_iff, List.forall₂_nil_left_iff]
  | cons a rest ih =>
      obtain ⟨ha, hrest⟩ := List.forall_mem_cons.1 h
      simp only [List.forall₂_cons_left_iff, ha, ih hrest]

lemma map_eq_of_forall₂ {R : α → β → Prop} {f : α → γ} {g : β → γ} {as : List α} {bs : List β}
    (h : List.Forall₂ R as bs) (agree : ∀ a b, R a b → f a = g b) : as.map f = bs.map g := by
  induction h with
  | nil => rfl
  | cons hab _ ih => rw [List.map_cons, List.map_cons, agree _ _ hab, ih]

/-- Where every element gives something, what a list gives stands beside its elements. -/
lemma forall₂_filterMap {R : α → β → Prop} {f : α → Option β} {as : List α}
    (h : ∀ a ∈ as, ∃ b, f a = some b ∧ R a b) : List.Forall₂ R as (as.filterMap f) := by
  induction as with
  | nil => exact .nil
  | cons a rest ih =>
      obtain ⟨⟨b, hb, hR⟩, hrest⟩ := List.forall_mem_cons.1 h
      rw [List.filterMap_cons_some hb]
      exact .cons hR (ih hrest)

lemma exists_append_of_forall₂ {R : α → β → Prop} {as as' : List α} {bs : List β}
    (h : List.Forall₂ R (as ++ as') bs) :
    ∃ cs cs', bs = cs ++ cs' ∧ List.Forall₂ R as cs ∧ List.Forall₂ R as' cs' := by
  induction as generalizing bs with
  | nil => exact ⟨[], bs, rfl, .nil, h⟩
  | cons a rest ih =>
      cases h with
      | cons hab h =>
          obtain ⟨cs, cs', rfl, hcs, hcs'⟩ := ih h
          exact ⟨_ :: cs, cs', rfl, .cons hab hcs, hcs'⟩

/-- Where every element has one partner, one more element has one more partner in its place. -/
lemma exists_insert_of_forall₂ {R : α → β → Prop} (hunique : Relator.RightUnique R)
    {as as' : List α} {a : α} {bs bs' : List β} (h : List.Forall₂ R (as ++ as') bs)
    (h' : List.Forall₂ R (as ++ a :: as') bs') :
    ∃ cs c cs', bs = cs ++ cs' ∧ bs' = cs ++ c :: cs' ∧ R a c := by
  obtain ⟨cs, rest, rfl, hcs, hrest⟩ := exists_append_of_forall₂ h'
  cases hrest with
  | @cons _ c _ cs' hc hcs' =>
      exact ⟨cs, c, cs', hunique.forall₂ h (List.rel_append hcs hcs'), rfl, hc⟩

/-! ## Traversals -/

theorem traverse_eq_ok_iff {f : α → Except ε β} {as : List α} {bs : List β} :
    traverse f as = .ok bs ↔ List.Forall₂ (fun a b => f a = .ok b) as bs := by
  induction as generalizing bs with
  | nil => rw [traverse_nil, Except.ok.injEq, List.forall₂_nil_left_iff, eq_comm]
  | cons a rest ih =>
      rw [traverse_cons_eq_ok, List.forall₂_cons_left_iff]
      constructor
      · rintro ⟨b, bs', hb, hrest, rfl⟩
        exact ⟨b, bs', hb, ih.1 hrest, rfl⟩
      · rintro ⟨b, bs', hb, hrest, rfl⟩
        exact ⟨b, bs', hb, ih.2 hrest, rfl⟩

theorem traverse_isOk_iff {f : α → Except ε β} {as : List α} :
    (∃ bs, traverse f as = .ok bs) ↔ ∀ a ∈ as, ∃ b, f a = .ok b := by
  simp only [traverse_eq_ok_iff]
  exact exists_forall₂_iff

/-- Steps that all succeed give what they give. -/
lemma traverse_eq_map {f : α → Except ε β} {g : α → β} {as : List α}
    (h : ∀ a ∈ as, f a = .ok (g a)) : traverse f as = .ok (as.map g) := by
  rw [traverse_eq_ok_iff, List.forall₂_map_right_iff, List.forall₂_same]
  exact h

lemma traverse_map {f : β → Except ε γ} {h : α → β} (as : List α) :
    traverse f (as.map h) = traverse (fun a => f (h a)) as := by
  induction as with
  | nil => rfl
  | cons a rest ih => rw [List.map_cons, traverse, traverse, ih]

lemma traverse_of_map {g : α → Except ε β} {k : β → γ} (as : List α) :
    traverse (fun a => (g a).map k) as = (traverse g as).map (List.map k) := by
  induction as with
  | nil => rfl
  | cons a rest ih =>
      rw [traverse, traverse, ih]
      cases g a with
      | error e => rfl
      | ok b =>
          cases traverse g rest with
          | error e => rfl
          | ok bs => rfl

lemma traverse_cons_eq_error {f : α → Except ε β} {a : α} {rest : List α} {e : ε} :
    traverse f (a :: rest) = .error e ↔
      f a = .error e ∨ (∃ b, f a = .ok b) ∧ traverse f rest = .error e := by
  rw [traverse]
  cases f a with
  | error e' => simp
  | ok b =>
      cases traverse f rest with
      | error e' => simp
      | ok bs => simp

lemma isOk_iff_of_error {x : Except ε β} {y : Except ε γ} (h : ∀ e, x = .error e ↔ y = .error e) :
    (∃ b, x = .ok b) ↔ ∃ c, y = .ok c := by
  cases x with
  | error e => simp [(h e).1 rfl]
  | ok b =>
      cases y with
      | error e => simpa using (h e).2 rfl
      | ok c => simp

/-- Traversals fail alike if their steps do. -/
lemma traverse_eq_error_congr {f : α → Except ε β} {g : α → Except ε γ} {as : List α} {e : ε}
    (h : ∀ a ∈ as, ∀ e, f a = .error e ↔ g a = .error e) :
    traverse f as = .error e ↔ traverse g as = .error e := by
  induction as with
  | nil => simp
  | cons a rest ih =>
      obtain ⟨ha, hrest⟩ := List.forall_mem_cons.1 h
      rw [traverse_cons_eq_error, traverse_cons_eq_error, ha, isOk_iff_of_error ha, ih hrest]

/-- A traversal fails as its first failing step does. -/
theorem traverse_eq_error_iff {f : α → Except ε β} {as : List α} {e : ε} :
    traverse f as = .error e ↔ ∃ before a after, as = before ++ a :: after ∧
      (∀ b ∈ before, ∃ c, f b = .ok c) ∧ f a = .error e := by
  induction as with
  | nil => simp
  | cons a rest ih =>
      rw [traverse_cons_eq_error, ih]
      constructor
      · rintro (ha | ⟨ha, before, b, after, rfl, hbefore, hb⟩)
        · exact ⟨[], a, rest, rfl, List.forall_mem_nil _, ha⟩
        · exact ⟨a :: before, b, after, rfl, List.forall_mem_cons.2 ⟨ha, hbefore⟩, hb⟩
      · rintro ⟨before, b, after, heq, hbefore, hb⟩
        cases before with
        | nil =>
            obtain ⟨rfl, rfl⟩ := List.cons.inj heq
            exact Or.inl hb
        | cons c before =>
            obtain ⟨rfl, rfl⟩ := List.cons.inj heq
            obtain ⟨hc, hbefore⟩ := List.forall_mem_cons.1 hbefore
            exact Or.inr ⟨hc, before, b, after, rfl, hbefore, hb⟩

/-! ## Kinds of failures -/

/-- All failures of a step are of one kind. -/
def FailsOnly (kind : ε → Prop) (x : Except ε α) : Prop := ∀ e, x = .error e → kind e

namespace FailsOnly

variable {kind : ε → Prop} {x : Except ε α}

lemma ok (a : α) : FailsOnly kind (.ok a) := fun _ h => nomatch h

lemma throw {e : ε} (h : kind e) : FailsOnly kind (throw e : Except ε α) := by
  intro e' he'
  rw [← Except.error.inj he']
  exact h

/-- A chain fails as its steps do, each of them after what came before it. -/
lemma bind_of_ok {f : α → Except ε β} (hx : FailsOnly kind x)
    (hf : ∀ a, x = .ok a → FailsOnly kind (f a)) : FailsOnly kind (x >>= f) := by
  intro e he
  rcases bind_eq_error.1 he with hfirst | ⟨a, ha, hsecond⟩
  · exact hx e hfirst
  · exact hf a ha e hsecond

lemma bind {f : α → Except ε β} (hx : FailsOnly kind x) (hf : ∀ a, FailsOnly kind (f a)) :
    FailsOnly kind (x >>= f) :=
  hx.bind_of_ok fun a _ => hf a

/-- A check fails as it says, and otherwise as what comes after it does. -/
lemma check {p : Prop} [Decidable p] {y : Except ε β} (hx : FailsOnly kind x)
    (hy : FailsOnly kind y) : FailsOnly kind (if p then x >>= fun _ => y else y) := by
  split
  · exact hx.bind fun _ => hy
  · exact hy

lemma map {f : α → β} (hx : FailsOnly kind x) : FailsOnly kind (x.map f) :=
  fun e he => hx e (map_eq_error.1 he)

lemma mapError {ε' : Type} {kind : ε' → Prop} {f : ε → ε'}
    (hx : FailsOnly (fun e => kind (f e)) x) : FailsOnly kind (x.mapError f) := by
  intro e he
  obtain ⟨e', he', rfl⟩ := mapError_eq_error.1 he
  exact hx e' he'

lemma traverse_of_mem {f : α → Except ε β} {as : List α}
    (hf : ∀ a ∈ as, FailsOnly kind (f a)) : FailsOnly kind (traverse f as) := by
  intro e he
  obtain ⟨before, a, after, rfl, -, ha⟩ := traverse_eq_error_iff.1 he
  exact hf a (by simp) e ha

lemma traverse {f : α → Except ε β} {as : List α} (hf : ∀ a, FailsOnly kind (f a)) :
    FailsOnly kind (traverse f as) :=
  traverse_of_mem fun a _ => hf a

lemma mono {kind' : ε → Prop} (hx : FailsOnly kind x) (h : ∀ e, kind e → kind' e) :
    FailsOnly kind' x :=
  fun e he => h e (hx e he)

end FailsOnly

end SchemaClasses
