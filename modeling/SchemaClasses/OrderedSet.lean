import SchemaClasses.Value.Scalar

/-!
# Sets in order of first insertion

An `OrderedSet` keeps its items in the order in which they were first given and holds no two equal
ones.  Equality is the `==` of the items.  The items are kept twice: the list of them has the order,
and the set of them, which has none, answers whether an item is there.  That the list holds no two
equal items, and that list and set hold the same ones, is part of the type.
-/

namespace SchemaClasses

/-- Items in order of first insertion, no two of them equal. -/
structure OrderedSet (α : Type) [BEq α] where
  items : List α
  /-- The set of the items, as the test for being one of them. -/
  seen : α → Bool
  distinct : items.Pairwise fun a b => (a == b) = false
  seen_eq : ∀ a, seen a = items.any (· == a)

namespace OrderedSet

variable {α : Type} [BEq α]

/-- The set without items. -/
def empty : OrderedSet α := ⟨[], fun _ => false, List.Pairwise.nil, fun _ => rfl⟩

instance : Inhabited (OrderedSet α) := ⟨empty⟩

/-- Whether an equal item is in the set. -/
def contains (s : OrderedSet α) (a : α) : Bool := s.seen a

theorem contains_eq_any (s : OrderedSet α) (a : α) : s.contains a = s.items.any (· == a) :=
  s.seen_eq a

/-- The number of items. -/
def size (s : OrderedSet α) : Nat := s.items.length

/-- Add an item to the set, and to the list at the end; `none` if an equal item is there already. -/
def insertNew? (s : OrderedSet α) (a : α) : Option (OrderedSet α) :=
  if h : s.contains a then none
  else some {
    items := s.items ++ [a]
    seen := fun b => s.seen b || a == b
    distinct := by
      refine List.pairwise_append.2 ⟨s.distinct, List.pairwise_singleton _ _, ?_⟩
      intro x hx y hy
      rw [contains_eq_any] at h
      rw [List.mem_singleton.1 hy]
      simpa using fun e => h (List.any_eq_true.2 ⟨x, hx, e⟩)
    seen_eq := by
      intro b
      rw [List.any_append, s.seen_eq]
      simp }

/-- Add an item at the end unless an equal item is there already. -/
def insert (s : OrderedSet α) (a : α) : OrderedSet α := (s.insertNew? a).getD s

/-- Add items one after the other. -/
def insertAll (s : OrderedSet α) (as : List α) : OrderedSet α := as.foldl insert s

/-- The set of the items of a list, in order of first occurrence. -/
def ofList (as : List α) : OrderedSet α := empty.insertAll as

@[simp] theorem items_empty : (empty : OrderedSet α).items = [] := rfl

/-- Adding an item changes nothing if an equal one is there and appends it otherwise. -/
theorem items_insert (s : OrderedSet α) (a : α) :
    (s.insert a).items = if s.contains a then s.items else s.items ++ [a] := by
  unfold insert insertNew?
  split <;> simp

/-- After adding an item, the set has it and what it had before. -/
theorem contains_insert [EquivBEq α] (s : OrderedSet α) (a b : α) :
    (s.insert a).contains b = (s.contains b || a == b) := by
  simp only [contains_eq_any, items_insert]
  split
  case isTrue h =>
    obtain ⟨x, hx, hxa⟩ := List.any_eq_true.1 h
    by_cases hab : (a == b) = true
    · have : s.items.any (· == b) = true := List.any_eq_true.2 ⟨x, hx, BEq.trans hxa hab⟩
      simp [this]
    · simp [hab]
  case isFalse => simp

/-- What is added to a set one by one is all that is new in it. -/
theorem mem_of_mem_insertAll {s : OrderedSet α} {as : List α} {a : α}
    (h : a ∈ (s.insertAll as).items) : a ∈ s.items ∨ a ∈ as := by
  induction as generalizing s with
  | nil => exact Or.inl h
  | cons b rest ih =>
    rcases ih (s := s.insert b) h with h | h
    · rw [items_insert] at h
      split at h
      · exact Or.inl h
      · rw [List.mem_append, List.mem_singleton] at h
        exact h.imp_right (List.mem_cons.2 <| Or.inl ·)
    · exact Or.inr (List.mem_cons_of_mem b h)

theorem mem_of_mem_ofList {as : List α} {a : α} (h : a ∈ (ofList as).items) : a ∈ as :=
  (mem_of_mem_insertAll h).resolve_left List.not_mem_nil

theorem ofList_concat (as : List α) (a : α) : ofList (as ++ [a]) = (ofList as).insert a := by
  rw [ofList, insertAll, List.foldl_append]
  rfl

end OrderedSet

/-- The text that shows an ordered set of scalars. -/
def OrderedSet.quoted (s : OrderedSet Scalar) : String :=
  "OrderedSet([" ++ ", ".intercalate (s.items.map Scalar.quoted) ++ "])"

end SchemaClasses
