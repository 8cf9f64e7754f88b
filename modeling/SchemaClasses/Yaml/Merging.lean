import SchemaClasses.Unreadable
import SchemaClasses.Yaml.Naming

/-!
# Merged mappings

A mapping may merge others: their entries come before its own, and of several mappings in one list
the first has the last word, because its entries come last.  The merges of a mapping are taken out
of its entries one after the other, and what they name is brought in when none is left.  A mapping
that is brought in has its own merges settled first, and from then on has the entries that this
gives it, wherever it stands.

Mappings may merge each other in a circle.  Then a mapping is met again while some of its merges
have been taken out and nothing has been brought in yet, and it is settled with what it has at that
moment; the merges that are left are gone when the first look at it goes on.  `Merging` therefore
keeps the entries of every mapping as they are at the moment.
-/

namespace SchemaClasses.Yaml

structure Merging where
  /-- The entries of mappings by their places, the latest first; a mapping without any has those
  that are written. -/
  settled : List (Nat × Pairs) := []
  /-- The names of the nodes that have been keys and are marks of a mapping's own value. -/
  textMarks : List String := []

namespace Merging

def entriesAt (m : Merging) (place : Nat) (written : Pairs) : Pairs :=
  (m.settled.lookup place).getD written

/-- Give the mapping at a place other entries. -/
def put (m : Merging) (place : Nat) (pairs : Pairs) : Merging :=
  { m with settled := (place, pairs) :: m.settled }

@[simp] theorem entriesAt_put (m : Merging) (place : Nat) (pairs written : Pairs) :
    (m.put place pairs).entriesAt place written = pairs := by
  simp [entriesAt, put]

/-- Remember which keys are marks of a mapping's own value: they are texts from now on. -/
def markKeys (names : Naming) (m : Merging) (pairs : Pairs) : Merging :=
  let marks := pairs.filterMap fun pair =>
    if names.isValueMark pair.1 then Naming.nameOf? pair.1 else none
  { m with textMarks := marks ++ m.textMarks }

/-- The value of the first merge among entries, and the entries without it. -/
def firstMerge? (names : Naming) : Pairs → Option (Node × Pairs)
  | [] => none
  | pair :: rest =>
    if names.isMergeKey pair.1 then some (pair.2, rest)
    else (firstMerge? names rest).map fun (v, others) => (v, pair :: others)

/-- Taking out a merge leaves one entry less. -/
theorem length_of_firstMerge? {names : Naming} {pairs others : Pairs} {v : Node}
    (h : firstMerge? names pairs = some (v, others)) : pairs.length = others.length + 1 := by
  induction pairs generalizing others with
  | nil => simp [firstMerge?] at h
  | cons pair rest ih =>
    rw [firstMerge?] at h
    split at h
    · cases h; rfl
    · obtain ⟨⟨w, more⟩, found, equal⟩ := Option.map_eq_some_iff.1 h
      cases equal
      rw [List.length_cons, ih found, List.length_cons]

abbrev Settle := Nat → Pairs → Merging → Except UnreadableText Merging

/-- The entries that a mapping brings in, after it has been settled. -/
def broughtBy (names : Naming) (settle : Settle) (m : Merging) (n : Node) :
    Except UnreadableText (Pairs × Merging) :=
  match names.bare n with
  | .mapping place written => do
    let m ← settle place written m
    return (m.entriesAt place written, m)
  | _ => .error .notYaml

/-- The entries that the mappings of a list bring in, those of the last one first. -/
def broughtByAll (names : Naming) (settle : Settle) :
    Merging → List Node → Except UnreadableText (Pairs × Merging)
  | m, [] => .ok ([], m)
  | m, n :: rest => do
    let (first, m) ← broughtBy names settle m n
    let (others, m) ← broughtByAll names settle m rest
    return (others ++ first, m)

/-- The entries that a merge brings in: those of a mapping, or of a list of mappings. -/
def brought (names : Naming) (settle : Settle) (m : Merging) (v : Node) :
    Except UnreadableText (Pairs × Merging) :=
  match names.bare v with
  | .sequence _ items => broughtByAll names settle m items
  | _ => broughtBy names settle m v

/-- How deep mappings may merge each other. -/
def mostDepth : Nat := 985

/-- Settle the mapping at a place inside `depth` others; `collected` are the entries that its merges
have brought so far.  `fuel` bounds the number of merges that are looked at. -/
def settleFrom (names : Naming) : Nat → Nat → Pairs → Settle
  | 0, _, _ => fun _ _ _ => .error .notYaml
  | fuel + 1, depth, collected => fun place written m =>
    match firstMerge? names (m.entriesAt place written) with
    | none =>
      .ok (if collected.isEmpty then m
        else m.put place (collected ++ m.entriesAt place written))
    | some (v, others) => do
      let inner : Settle := fun place written m =>
        if mostDepth ≤ depth then .error .tooDeep
        else settleFrom names fuel (depth + 1) [] place written
          (m.markKeys names (m.entriesAt place written))
      let (more, m) ← brought names inner (m.put place others) v
      settleFrom names fuel depth (collected ++ more) place written m

/-- Settle the mapping at a place: bring in what it merges. -/
def settle (names : Naming) (fuel : Nat) : Settle := fun place written m =>
  settleFrom names fuel 1 [] place written (m.markKeys names (m.entriesAt place written))

end Merging

end SchemaClasses.Yaml
