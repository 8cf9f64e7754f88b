import Mathlib.Data.List.Induction
import Mathlib.Data.Set.Card
import SchemaClasses.OrderedSet

/-!
# What an ordered set remembers

An ordered set is asked two things, to add an item and whether it has one, and it answers from a list
and a set that are kept side by side.  What it has to remember is a history: the items that were
given to it, those it knew already among them.  `Records` says how the two hang together, adding an
item keeps it (`Records.insert`), and so every run of calls does (`Records.run`).

`run_ofList` is the whole statement.  Items are compared by their own equality, so the number of
different items is that of the classes of equal ones (`equality`).
-/

namespace SchemaClasses

variable {α : Type} [BEq α]

/-! ## Lists without repetition -/

/-- At the end of a list, an item is new unless an equal one was there. -/
lemma eraseDups_concat_any [EquivBEq α] (as : List α) (a : α) :
    (as ++ [a]).eraseDups =
      if as.any (· == a) then as.eraseDups else as.eraseDups ++ [a] := by
  induction hlength : as.length using Nat.strongRecOn generalizing as with
  | ind n ih =>
      cases as with
      | nil => simp [List.eraseDups_cons]
      | cons x rest =>
          rw [List.cons_append, List.eraseDups_cons, List.eraseDups_cons, List.filter_append,
            List.any_cons]
          by_cases hsame : (a == x) = true
          · have hdrop : [a].filter (fun b => !b == x) = [] := by simp [hsame]
            rw [hdrop, List.append_nil, BEq.symm hsame, Bool.true_or, if_pos rfl]
          · have hkeep : [a].filter (fun b => !b == x) = [a] := by simp [hsame]
            have hother : (x == a) = false := by
              rw [Bool.eq_false_iff]
              exact fun h => hsame (BEq.symm h)
            have hany : (rest.filter fun b => !b == x).any (· == a) = rest.any (· == a) := by
              rw [List.any_filter]
              congr 1
              funext b
              rw [Bool.and_eq_right_iff_imp, Bool.not_eq_true', Bool.eq_false_iff]
              exact fun hba hbx => hsame (BEq.trans (BEq.symm hba) hbx)
            have hshorter : (rest.filter fun b => !b == x).length < n := by
              rw [← hlength, List.length_cons]
              exact Nat.lt_succ_of_le (List.length_filter_le _ _)
            rw [hkeep, ih _ hshorter _ rfl, hany, hother, Bool.false_or]
            split <;> rfl

namespace OrderedSet

/-! ## Histories -/

/-- A set that remembers the items that were given to it: its list has the first of equal ones, in
order, and its set knows all of them. -/
structure Records (s : OrderedSet α) (given : List α) : Prop where
  items : s.items = given.eraseDups
  contains : ∀ a, s.contains a = given.any (· == a)

variable {s : OrderedSet α} {given : List α}

lemma records_empty : Records (empty : OrderedSet α) [] := ⟨rfl, fun _ => rfl⟩

/-- **Adding an item is remembered**, whether the item is new or not. -/
lemma Records.insert [EquivBEq α] (h : Records s given) (a : α) :
    Records (s.insert a) (given ++ [a]) where
  items := by
    rw [items_insert, eraseDups_concat_any, h.contains, h.items]
  contains b := by
    rw [contains_insert, h.contains]
    simp

lemma records_ofList [EquivBEq α] (as : List α) : Records (ofList as) as := by
  induction as using List.reverseRecOn with
  | nil => exact records_empty
  | append_singleton as a ih =>
      rw [ofList_concat]
      exact ih.insert a

/-- An ordered set of a list has the first of equal items, in order. -/
lemma items_ofList [EquivBEq α] (as : List α) : (ofList as).items = as.eraseDups :=
  (records_ofList as).items

/-! ## Calls -/

/-- A call on an ordered set: to add an item, or to ask whether it has one. -/
inductive Call (α : Type) where
  | add (a : α)
  | has (a : α)

/-- What a call makes of a set, and what it answers: an item was added, or is there. -/
def perform (s : OrderedSet α) : Call α → OrderedSet α × Bool
  | .add a =>
    match s.insertNew? a with
    | some s' => (s', true)
    | none => (s, false)
  | .has a => (s, s.contains a)

/-- Calls one after the other, with all their answers. -/
def run (s : OrderedSet α) : List (Call α) → OrderedSet α × List Bool
  | [] => (s, [])
  | c :: rest => ((run (s.perform c).1 rest).1, (s.perform c).2 :: (run (s.perform c).1 rest).2)

/-- The items that calls give. -/
def Call.added : List (Call α) → List α
  | [] => []
  | .add a :: rest => a :: added rest
  | .has _ :: rest => added rest

/-- The right answer to a call after items were given. -/
def Call.answer (given : List α) : Call α → Bool
  | .add a => !given.any (· == a)
  | .has a => given.any (· == a)

/-- An item that is there is not added, and changes nothing. -/
lemma insertNew?_of_contains {a : α} (h : s.contains a = true) :
    s.insertNew? a = none ∧ s.insert a = s := by
  have hnone : s.insertNew? a = none := dif_pos h
  exact ⟨hnone, by rw [OrderedSet.insert, hnone, Option.getD_none]⟩

lemma insertNew?_of_not_contains {a : α} (h : s.contains a = false) :
    s.insertNew? a = some (s.insert a) := by
  have hsome : (s.insertNew? a).isSome = true := by
    rw [insertNew?, dif_neg (by simp [h])]
    rfl
  obtain ⟨s', hs'⟩ := Option.isSome_iff_exists.1 hsome
  rw [OrderedSet.insert, hs', Option.getD_some]

lemma perform_add (s : OrderedSet α) (a : α) :
    s.perform (.add a) = (s.insert a, !s.contains a) := by
  cases h : s.contains a with
  | true =>
      obtain ⟨hnone, hsame⟩ := insertNew?_of_contains h
      rw [perform, hnone, hsame]
      rfl
  | false =>
      rw [perform, insertNew?_of_not_contains h]
      rfl

/-- **A call answers rightly, and what it gives is remembered.** -/
lemma Records.perform [EquivBEq α] (h : Records s given) (c : Call α) :
    Records (s.perform c).1 (given ++ Call.added [c]) ∧ (s.perform c).2 = c.answer given := by
  cases c with
  | add a =>
      rw [perform_add]
      exact ⟨h.insert a, congrArg not (h.contains a)⟩
  | has a => exact ⟨(List.append_nil given).symm ▸ h, h.contains a⟩

lemma Call.added_cons {α : Type} (c : Call α) (calls : List (Call α)) :
    added (c :: calls) = added [c] ++ added calls := by
  cases c <;> rfl

/-- **A run of calls answers each of them rightly**, from what was given before it, and remembers
all of them. -/
lemma Records.run [EquivBEq α] (h : Records s given) (calls : List (Call α)) :
    Records (s.run calls).1 (given ++ Call.added calls) ∧
      (s.run calls).2.length = calls.length ∧
      ∀ before c after, calls = before ++ c :: after →
        (s.run calls).2[before.length]? = some (c.answer (given ++ Call.added before)) := by
  induction calls generalizing s given with
  | nil =>
      refine ⟨(List.append_nil given).symm ▸ h, rfl, fun before c after hsplit => ?_⟩
      simp at hsplit
  | cons c rest ih =>
      obtain ⟨hrecords, hanswer⟩ := h.perform c
      obtain ⟨hall, hlength, hanswers⟩ := ih hrecords
      rw [Call.added_cons, ← List.append_assoc]
      refine ⟨hall, congrArg Nat.succ hlength, fun before d after hsplit => ?_⟩
      cases before with
      | nil =>
          obtain ⟨rfl, -⟩ := List.cons.inj hsplit
          rw [Call.added, List.append_nil]
          exact congrArg some hanswer
      | cons first before =>
          obtain ⟨rfl, hrest⟩ := List.cons.inj hsplit
          rw [Call.added_cons, ← List.append_assoc]
          exact hanswers before d after hrest

/-! ## How many items there are -/

/-- Equality of items, as an equivalence. -/
def equality (α : Type) [BEq α] [EquivBEq α] : Setoid α where
  r a b := (a == b) = true
  iseqv := ⟨fun _ => BEq.rfl, BEq.symm, BEq.trans⟩

/-- **An ordered set has as many items as different ones were given.** -/
lemma Records.size_eq [EquivBEq α] (h : Records s given) :
    s.size = (Quotient.mk (equality α) '' {a | a ∈ given}).ncard := by
  classical
  have hitems : s.items = (ofList given).items := by rw [h.items, items_ofList]
  have hknown : ∀ a ∈ given, ∃ b ∈ s.items, (b == a) = true := by
    intro a ha
    rw [← List.any_eq_true, ← contains_eq_any, h.contains, List.any_eq_true]
    exact ⟨a, ha, BEq.rfl⟩
  have hnodup : (s.items.map (Quotient.mk (equality α))).Nodup := by
    refine List.pairwise_map.2 (s.distinct.imp fun hdiffer hsame => ?_)
    have hequal : (_ == _) = true := Quotient.exact hsame
    rw [hdiffer] at hequal
    cases hequal
  have hclasses : Quotient.mk (equality α) '' {a | a ∈ given} =
      ↑(s.items.map (Quotient.mk (equality α))).toFinset := by
    ext q
    simp only [Set.mem_image, Set.mem_ofPred_eq, List.coe_toFinset, List.mem_map]
    constructor
    · rintro ⟨a, ha, rfl⟩
      obtain ⟨b, hb, hba⟩ := hknown a ha
      exact ⟨b, hb, Quotient.sound hba⟩
    · rintro ⟨a, ha, rfl⟩
      exact ⟨a, mem_of_mem_ofList (hitems ▸ ha), rfl⟩
  rw [hclasses, Set.ncard_coe_finset, List.toFinset_card_of_nodup hnodup, List.length_map, size]

/-! ## Runs -/

/-- **An ordered set in use.**  After items were given to begin with and any calls were made, the list
and the set hold the same items, and the list no two equal ones: it has the first of equal items that
were given, in the order in which they were given.  The set has what was given and nothing else, and
the size is the number of different items.  Every call was answered from what was given before it;
to add an item that was given before changes nothing. -/
theorem run_ofList [EquivBEq α] (init : List α) (calls : List (Call α)) :
    let given := init ++ Call.added calls
    let s := ((ofList init).run calls).1
    let answers := ((ofList init).run calls).2
    (∀ a, s.seen a = true ↔ ∃ b ∈ s.items, (b == a) = true) ∧
    (s.items.Pairwise fun a b => (a == b) = false) ∧
    s.items = given.eraseDups ∧
    (∀ a, s.contains a = true ↔ ∃ b ∈ given, (b == a) = true) ∧
    s.size = (Quotient.mk (equality α) '' {a | a ∈ given}).ncard ∧
    answers.length = calls.length ∧
    (∀ before c after, calls = before ++ c :: after →
      answers[before.length]? = some (c.answer (init ++ Call.added before))) ∧
    ∀ a, (∃ b ∈ given, (b == a) = true) → (s.perform (.add a)).1 = s := by
  intro given s answers
  obtain ⟨hrecords, hlength, hanswers⟩ := (records_ofList init).run calls
  have hcontains : ∀ a, s.contains a = true ↔ ∃ b ∈ given, (b == a) = true := fun a => by
    rw [hrecords.contains, List.any_eq_true]
  refine ⟨fun a => ?_, s.distinct, hrecords.items, hcontains, hrecords.size_eq, hlength, hanswers,
    fun a ha => ?_⟩
  · rw [s.seen_eq, List.any_eq_true]
  · rw [perform_add]
    exact (insertNew?_of_contains ((hcontains a).2 ha)).2

def scalarsGiven : List Scalar := [.text "b", .int 1, .text "b"]

def scalarCalls : List (Call Scalar) :=
  [.has (.bool true), .add (.text "a"), .add (.int 0), .add (.bool false)]

/-- Among scalars, the truth values are equal to the numbers one and zero. -/
theorem run_ofList_scalars :
    let s := ((ofList scalarsGiven).run scalarCalls).1
    s.items = [.text "b", .int 1, .text "a", .int 0] ∧
    (Quotient.mk (equality Scalar) ''
      {a | a ∈ scalarsGiven ++ Call.added scalarCalls}).ncard = 4 ∧
    ((ofList scalarsGiven).run scalarCalls).2[3]? = some false ∧
    (s.perform (.add (.bool true))).1 = s := by
  obtain ⟨-, -, hitems, -, hsize, -, hanswers, hsame⟩ := run_ofList scalarsGiven scalarCalls
  have hfour : ((ofList scalarsGiven).run scalarCalls).1.items =
      [.text "b", .int 1, .text "a", .int 0] := hitems.trans rfl
  refine ⟨hfour, ?_, ?_, hsame _ ⟨.int 1, ?_, rfl⟩⟩
  · rw [← hsize, size, hfour]
    rfl
  · have hbefore : scalarCalls =
        [.has (.bool true), .add (.text "a"), .add (.int 0)] ++ [.add (.bool false)] := rfl
    exact (hanswers _ _ _ hbefore).trans rfl
  · exact List.mem_append_left _ (List.mem_cons_of_mem _ List.mem_cons_self)

end OrderedSet

end SchemaClasses
