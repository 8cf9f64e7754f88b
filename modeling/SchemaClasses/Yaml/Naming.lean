import SchemaClasses.Yaml.Node

/-!
# Named nodes

`Naming` finds the node that an alias stands for, and with it the two texts that have a meaning of
their own where they stand as the key of a mapping: the mark that merges other mappings, and the
mark of a mapping's own value.
-/

namespace SchemaClasses.Yaml

/-- The entries of a mapping as nodes. -/
abbrev Pairs := List (Node × Node)

/-- The nodes that have been named. -/
abbrev Naming := List (String × Node)

namespace Naming

mutual

/-- The nodes that a node and its parts name. -/
def ofNode : Node → Naming
  | .named name n => (name, n) :: ofNode n
  | .sequence _ items => ofItems items
  | .mapping _ pairs => ofPairs pairs
  | _ => []

def ofItems : List Node → Naming
  | [] => []
  | n :: rest => ofNode n ++ ofItems rest

/-- The nodes that the entries of a mapping name. -/
def ofPairs : List (Node × Node) → Naming
  | [] => []
  | (k, v) :: rest => ofNode k ++ (ofNode v ++ ofPairs rest)

end

/-- What a node is, whether it is written here or stands elsewhere. -/
def bare (names : Naming) : Node → Node
  | .named _ n => n
  | .alias name => (names.lookup name).getD .empty
  | n => n

/-- Whether a key merges other mappings. -/
def isMergeKey (names : Naming) (key : Node) : Bool :=
  match names.bare key with
  | .plain s => s == "<<"
  | _ => false

def isValueMark (names : Naming) (key : Node) : Bool :=
  match names.bare key with
  | .plain s => s == "="
  | _ => false

/-- The name by which a node is known, if it has one. -/
def nameOf? : Node → Option String
  | .named name _ => some name
  | .alias name => some name
  | _ => none

end Naming

end SchemaClasses.Yaml
