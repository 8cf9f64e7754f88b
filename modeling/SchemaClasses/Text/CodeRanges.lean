/-!
# Sets of characters as ranges of code points

The character classes of this library are fixed tables of closed ranges.  A table lists its
ranges in increasing order, so a class can be read, counted and compared by looking at it.
-/

namespace SchemaClasses.Text

/-- A set of code points, written as closed ranges in increasing order. -/
abbrev CodeRanges := List (Nat × Nat)

namespace CodeRanges

/-- Whether a code point lies in one of the ranges. -/
def contains : CodeRanges → Nat → Bool
  | [], _ => false
  | (first, last) :: rest, n => (first ≤ n && n ≤ last) || contains rest n

/-- Whether the ranges are non-empty, increasing and separated by at least one code point. -/
def sorted : CodeRanges → Bool
  | [] => true
  | [(first, last)] => first ≤ last
  | (first, last) :: (first', last') :: rest =>
      first ≤ last && last + 1 < first' && sorted ((first', last') :: rest)

@[simp] theorem contains_nil (n : Nat) : contains [] n = false := rfl

@[simp] theorem contains_cons (first last n : Nat) (rest : CodeRanges) :
    contains ((first, last) :: rest) n = ((first ≤ n && n ≤ last) || contains rest n) := rfl

/-- Membership in the table says which range the code point lies in. -/
theorem contains_iff {rs : CodeRanges} {n : Nat} :
    contains rs n = true ↔ ∃ r ∈ rs, r.1 ≤ n ∧ n ≤ r.2 := by
  induction rs with
  | nil => simp
  | cons r rest ih =>
    obtain ⟨first, last⟩ := r
    simp [ih]

end CodeRanges

end SchemaClasses.Text
