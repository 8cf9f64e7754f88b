/-!
# Steps that may fail, one per element

`traverse` runs a step on every element of a list, in order, and stops at the first failure.
-/

namespace SchemaClasses

variable {α β ε : Type}

/-- Run a step on every element in order; the first failure is the failure of the whole. -/
def traverse (f : α → Except ε β) : List α → Except ε (List β)
  | [] => .ok []
  | a :: rest =>
    match f a with
    | .error e => .error e
    | .ok b =>
      match traverse f rest with
      | .error e => .error e
      | .ok bs => .ok (b :: bs)

@[simp] theorem traverse_nil (f : α → Except ε β) : traverse f [] = .ok [] := rfl

/-- The whole succeeds exactly if the first step and the rest do. -/
theorem traverse_cons_eq_ok {f : α → Except ε β} {a : α} {rest : List α} {bs : List β} :
    traverse f (a :: rest) = .ok bs ↔
      ∃ b bs', f a = .ok b ∧ traverse f rest = .ok bs' ∧ bs = b :: bs' := by
  rw [traverse]
  cases f a with
  | error e => simp
  | ok b =>
    cases traverse f rest with
    | error e => simp
    | ok bs' => simp [eq_comm]

/-- A traversal that succeeds gives one result per element. -/
theorem length_of_traverse {f : α → Except ε β} {as : List α} {bs : List β}
    (h : traverse f as = .ok bs) : bs.length = as.length := by
  induction as generalizing bs with
  | nil => cases h; rfl
  | cons a rest ih =>
    obtain ⟨b, bs', -, hrest, rfl⟩ := traverse_cons_eq_ok.1 h
    simp [ih hrest]

/-- A step that always succeeds makes the traversal a map. -/
theorem traverse_ok (f : α → β) (as : List α) :
    traverse (fun a => (.ok (f a) : Except ε β)) as = .ok (as.map f) := by
  induction as with
  | nil => rfl
  | cons a rest ih => simp [traverse, ih]

end SchemaClasses
