import SchemaClasses.Yaml.Merging
import SchemaClasses.Yaml.PlainMeaning

/-!
# The first fault of a document

A document may have several faults, and the one that counts is the first in the order of this file:
collections are opened one after the other, each after the collections around it, and a collection
is opened once, however many aliases it has.  To open a mapping is to bring in what it merges, and
then to look at its entries in order, the key before the value.  A document without a fault has its
merges settled when the survey ends.

The mark of a mapping's own value is a fault as a value, but as a key it is a text, and it is a text
wherever else the same node stands once a mapping with that key has been opened.
-/

namespace SchemaClasses.Yaml

structure Survey where
  /-- The collections that are still to be opened. -/
  waiting : List Node := []
  /-- The collections to open after those, the last one first. -/
  later : List Node := []
  /-- The places of all collections that have been met. -/
  met : List Nat := []
  merging : Merging := {}

namespace Survey

/-- Put a collection behind those that are waiting, if it has not been met. -/
def await (s : Survey) (place : Nat) (n : Node) : Survey :=
  if s.met.contains place then s
  else { s with later := n :: s.later, met := place :: s.met }

def next? (s : Survey) : Option (Node × Survey) :=
  match s.waiting with
  | n :: rest => some (n, { s with waiting := rest })
  | [] =>
    match s.later.reverse with
    | n :: rest => some (n, { s with waiting := rest, later := [] })
    | [] => none

def value (names : Naming) (s : Survey) (n : Node) : Except UnreadableText Survey :=
  match names.bare n with
  | .plain text =>
    match PlainMeaning.ofText text with
    | .scalar _ => .ok s
    | .unreadable u => .error u
    | .mergeMark => .error .notYaml
    | .valueMark =>
      if (Naming.nameOf? n).any s.merging.textMarks.contains then .ok s else .error .notYaml
  | .sequence place items => .ok (s.await place (.sequence place items))
  | .mapping place pairs => .ok (s.await place (.mapping place pairs))
  | _ => .ok s

/-- Look at a key, which must be a scalar. -/
def key (names : Naming) (s : Survey) (n : Node) : Except UnreadableText Survey :=
  match names.bare n with
  | .sequence .. => .error .notYaml
  | .mapping .. => .error .notYaml
  | _ => if names.isValueMark n then .ok s else value names s n

def items (names : Naming) : Survey → List Node → Except UnreadableText Survey
  | s, [] => .ok s
  | s, n :: rest => do items names (← value names s n) rest

def entries (names : Naming) : Survey → Pairs → Except UnreadableText Survey
  | s, [] => .ok s
  | s, (k, v) :: rest => do entries names (← value names (← key names s k) v) rest

/-- Open a collection.  `fuel` bounds the merges. -/
def openNode (names : Naming) (fuel : Nat) (s : Survey) : Node → Except UnreadableText Survey
  | .sequence _ ns => items names s ns
  | .mapping place written => do
    let merging ← Merging.settle names fuel place written s.merging
    entries names { s with merging := merging } (merging.entriesAt place written)
  | _ => .ok s

/-- Open all collections that are waiting or come to wait; there are at most `count`. -/
def run (names : Naming) (fuel : Nat) : Nat → Survey → Except UnreadableText Merging
  | 0, s => .ok s.merging
  | count + 1, s =>
    match s.next? with
    | none => .ok s.merging
    | some (n, s) =>
      match openNode names fuel s n with
      | .ok s => run names fuel count s
      | .error u => .error u

/-- Look for the first fault of a document that has fewer than `size` collections and merges; if
there is none, its merges are settled. -/
def check (names : Naming) (size : Nat) (root : Node) : Except UnreadableText Merging :=
  match value names {} root with
  | .ok s => run names size size s
  | .error u => .error u

end Survey

end SchemaClasses.Yaml
