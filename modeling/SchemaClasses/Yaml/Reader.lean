import SchemaClasses.Value.Basic
import SchemaClasses.Yaml.Survey

/-!
# Reading YAML

The value of a document whose survey found no fault and settled its merges.  An entry that stands
later in a mapping replaces the value of an earlier one with the same key.

Every collection of a document has one value, wherever the collection stands.  A `Round` gives
values to all of them in the order in which they are closed, so that those inside a collection have
theirs before it.  Only in a document that contains itself a collection may hold one that is closed
later: then rounds follow each other, each with the values of the round before, and every round is
right one level deeper than the last.  The collections carry ring numbers, by which readers notice
that they have come round; before that they meet every collection at most twice, so there are
enough rounds for them.
-/

namespace SchemaClasses

namespace Yaml

open PlainMeaning (ofText)

/-! ## Collections -/

mutual

def closed : Node → List Node
  | .sequence place items => closedItems items ++ [.sequence place items]
  | .mapping place pairs => closedPairs pairs ++ [.mapping place pairs]
  | .named _ n => closed n
  | _ => []

/-- The collections among the items of a sequence. -/
def closedItems : List Node → List Node
  | [] => []
  | n :: rest => closed n ++ closedItems rest

/-- The collections among the entries of a mapping. -/
def closedPairs : List (Node × Node) → List Node
  | [] => []
  | (k, v) :: rest => closed k ++ (closed v ++ closedPairs rest)

end

mutual

/-- Whether an alias stands inside the node that it names; `around` are the names of the nodes
around. -/
def containsItself (around : List String) : Node → Bool
  | .named name n => containsItself (name :: around) n
  | .alias name => around.contains name
  | .sequence _ items => itemsContain around items
  | .mapping _ pairs => pairsContain around pairs
  | _ => false

/-- Whether this is so for one of the items of a sequence. -/
def itemsContain (around : List String) : List Node → Bool
  | [] => false
  | n :: rest => containsItself around n || itemsContain around rest

/-- Whether this is so for one of the entries of a mapping. -/
def pairsContain (around : List String) : List (Node × Node) → Bool
  | [] => false
  | (k, v) :: rest =>
    containsItself around k || containsItself around v || pairsContain around rest

end

/-! ## Values -/

/-- The values of collections by their places. -/
abbrev Round := Array Value

/-- What the rounds of a document share. -/
structure Frame where
  names : Naming
  merging : Merging
  /-- Whether the document contains itself, so that its collections need a ring number. -/
  isRing : Bool

namespace Frame

def ring (f : Frame) (place : Nat) : Option Nat := if f.isRing then some place else none

/-- The value of a plain scalar.  Where a mark stands as a value, it is a text. -/
def plainValue (s : String) : Scalar :=
  match ofText s with
  | .scalar v => v
  | _ => .text s

/-- The value of a key, which is a scalar. -/
def keyValue (f : Frame) (n : Node) : Scalar :=
  match f.names.bare n with
  | .plain s => plainValue s
  | .quoted s => .text s
  | _ => .null

def nodeValue (f : Frame) (values : Round) (n : Node) : Value :=
  match f.names.bare n with
  | .plain s => .scalar (plainValue s)
  | .quoted s => .text s
  | .sequence place _ => values.getD place .null
  | .mapping place _ => values.getD place .null
  | _ => .null

def giveValue (f : Frame) (values : Round) : Node → Round
  | .sequence place items =>
    values.setIfInBounds place (.list (items.map (f.nodeValue values)) (f.ring place))
  | .mapping place written =>
    let entries := (f.merging.entriesAt place written).map fun (k, v) =>
      (f.keyValue k, f.nodeValue values v)
    values.setIfInBounds place (.mapping (Entries.ofPairs entries) (f.ring place))
  | _ => values

/-- Give values to all collections once more. -/
def nextRound (f : Frame) (collections : List Node) (values : Round) : Round :=
  collections.foldl f.giveValue values

/-- The value of a document with fewer than `size` tokens. -/
def rootValue (f : Frame) (size : Nat) (root : Node) : Value :=
  let collections := closed root
  let rounds := if f.isRing then 3 * collections.length + 16 else 1
  f.nodeValue (Nat.repeat (f.nextRound collections) rounds (Array.replicate size .null)) root

end Frame

/-! ## All together -/

/-- The value that a document writes: null if there is none. -/
def Input.value (input : Input) : Except UnreadableText Value := do
  let ts := tokens input
  match ← Node.ofTokens ts with
  | none => return .null
  | some root =>
    let names := Naming.ofNode root
    let size := 2 * ts.length + 2
    let merging ← Survey.check names size root
    return Frame.rootValue ⟨names, merging, containsItself [] root⟩ size root

/-- The value that a text writes. -/
def read (s : String) : Except UnreadableText Value := do (← Input.ofText s).value

/-- The value that a file with this text writes. -/
def readFile (s : String) : Except UnreadableText Value := (Input.ofFile s).value

end Yaml

end SchemaClasses
