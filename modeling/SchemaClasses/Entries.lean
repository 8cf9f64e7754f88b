/-!
# Entries by key, in order

Entries keep the order in which their keys were first written.  Writing a key again replaces its
value and leaves it at its first place.  The keys are compared by `==`, which may count keys as
equal that are not the same; the key that was written first stays.
-/

namespace SchemaClasses

/-- Values by key, in the order in which the keys were first written. -/
abbrev Entries (κ α : Type) := List (κ × α)

namespace Entries

variable {κ α : Type} [BEq κ]

/-- The value under a key. -/
def get? (m : Entries κ α) (key : κ) : Option α :=
  (m.find? fun entry => entry.1 == key).map (·.2)

/-- Whether a key is present. -/
def contains (m : Entries κ α) (key : κ) : Bool := m.any fun entry => entry.1 == key

def keys (m : Entries κ α) : List κ := m.map (·.1)

/-- Write a value under a key: in place if the key is there, else at the end. -/
def insert : Entries κ α → κ → α → Entries κ α
  | [], key, value => [(key, value)]
  | (k, v) :: rest, key, value =>
    if k == key then (k, value) :: rest else (k, v) :: insert rest key value

/-- The entries without a key. -/
def erase (m : Entries κ α) (key : κ) : Entries κ α := m.filter fun entry => !(entry.1 == key)

/-- The entries that result from writing pairs one after the other. -/
def ofPairs (pairs : List (κ × α)) : Entries κ α :=
  pairs.foldl (fun m pair => insert m pair.1 pair.2) []

@[simp] theorem get?_nil (key : κ) : get? ([] : Entries κ α) key = none := rfl

theorem get?_cons (k : κ) (v : α) (rest : Entries κ α) (key : κ) :
    get? ((k, v) :: rest) key = if k == key then some v else get? rest key := by
  simp only [get?, List.find?_cons]
  split <;> simp_all

/-- A key is present exactly if it has a value. -/
theorem contains_eq_isSome (m : Entries κ α) (key : κ) :
    contains m key = (get? m key).isSome := by
  induction m with
  | nil => rfl
  | cons entry rest ih =>
    obtain ⟨k, v⟩ := entry
    rw [get?_cons]
    simp only [contains, List.any_cons] at ih ⊢
    by_cases h : (k == key) = true <;> simp_all

variable [EquivBEq κ]

/-- Reading after writing gives what was written, and every other key as before. -/
theorem get?_insert (m : Entries κ α) (key key' : κ) (value : α) :
    get? (insert m key value) key' = if key == key' then some value else get? m key' := by
  induction m with
  | nil => rw [insert, get?_cons]
  | cons entry rest ih =>
    obtain ⟨k, v⟩ := entry
    by_cases h : (k == key) = true
    · have same : (k == key') = (key == key') := BEq.congr_left h
      rw [insert, if_pos h, get?_cons, get?_cons, same]
      by_cases h' : (key == key') = true <;> simp [h']
    · rw [insert, if_neg h, get?_cons, get?_cons, ih]
      by_cases h' : (k == key') = true
      · have differ : ¬ (key == key') = true := fun e =>
          h (BEq.trans h' (BEq.symm e))
        simp [h', differ]
      · simp [h']

/-- Reading after erasing a key gives nothing for that key, and every other key as before. -/
theorem get?_erase (m : Entries κ α) (key key' : κ) :
    get? (erase m key) key' = if key == key' then none else get? m key' := by
  induction m with
  | nil => simp [erase]
  | cons entry rest ih =>
    obtain ⟨k, v⟩ := entry
    have step : erase ((k, v) :: rest) key =
        if k == key then erase rest key else (k, v) :: erase rest key := by
      by_cases h : (k == key) = true <;> simp [erase, h]
    rw [step, get?_cons]
    by_cases h : (k == key) = true
    · have same : (k == key') = (key == key') := BEq.congr_left h
      rw [if_pos h, ih, same]
      by_cases h' : (key == key') = true <;> simp [h']
    · rw [if_neg h, get?_cons, ih]
      by_cases h' : (k == key') = true
      · have differ : ¬ (key == key') = true := fun e => h (BEq.trans h' (BEq.symm e))
        simp [h', differ]
      · simp [h']

end Entries

end SchemaClasses
