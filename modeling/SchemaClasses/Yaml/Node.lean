import SchemaClasses.Yaml.Token

/-!
# Nodes

The tokens of a document describe a tree of nodes.  An anchor names a node and an alias stands for
a node that has been named before; a name is given once.  The name of a list or a mapping may be
used inside it, so the tree keeps names and aliases as they are written.  Where a node is missing,
an empty plain scalar stands for it.
-/

namespace SchemaClasses.Yaml

/-- A part of a document before its scalars are resolved.  A collection has a place, the number of
tokens before it, which no other collection of the document has. -/
inductive Node where
  | plain (text : String)
  | quoted (text : String)
  | sequence (place : Nat) (items : List Node)
  | mapping (place : Nat) (pairs : List (Node × Node))
  | named (name : String) (node : Node)
  | alias (name : String)
  deriving Inhabited

/-- The node that stands where none is written. -/
def Node.empty : Node := .plain ""

namespace Node

/-- The tokens that are left, the names that have been given, and how deep the reading is. -/
structure Reading where
  tokens : List Token
  /-- The number of tokens that have been passed. -/
  passed : Nat := 0
  names : List String := []
  /-- How many collections are open. -/
  depth : Nat := 0

/-- A step that reads from the tokens, or fails. -/
abbrev Read := StateT Reading (Except UnreadableText)

/-- The next token. -/
def peek : Read (Option Token) := do return (← get).tokens.head?

def pass : Read Unit :=
  modify fun r => { r with tokens := r.tokens.drop 1, passed := r.passed + 1 }

/-- The place that is reached. -/
def here : Read Nat := do return (← get).passed

/-- Why no node can begin with these tokens. -/
def reason : List Token → UnreadableText
  | .broken u :: _ => u
  | _ => .notYaml

/-- The next token cannot stand here. -/
def refuse {α : Type} : Read α := do throw (reason (← get).tokens)

/-- Pass the next token, which must be this one. -/
def expect (t : Token) : Read Unit := do
  if (← peek) == some t then pass else refuse

def nextIsOneOf (ts : List Token) : Read Bool := do
  return (← peek).any ts.contains

/-- Whether a name has been given. -/
def isGiven (name : String) : Read Bool := do return (← get).names.contains name

/-- Give a name, which must be a new one. -/
def give (name : String) : Read Unit := do
  if let some (.broken u) ← peek then throw u
  if ← isGiven name then throw .notYaml
  modify fun r => { r with names := name :: r.names }

/-- How deep collections may be inside each other. -/
def mostDepth : Nat := 485

def inside {α : Type} (read : Read α) : Read α := do
  if mostDepth ≤ (← get).depth then throw .tooDeep
  modify fun r => { r with depth := r.depth + 1 }
  let a ← read
  modify fun r => { r with depth := r.depth - 1 }
  return a

/-- Where a node stands, which decides the forms it can take. -/
inductive Place where
  | flow
  | block
  /-- In a block mapping, where a sequence needs no deeper indentation. -/
  | entry
  deriving DecidableEq

/-- No node is written, which is allowed after an anchor only. -/
def missing (anchored : Bool) : Read Node := if anchored then return .empty else refuse

mutual

/-- A node with its anchor, or an alias. -/
def node (place : Place) : Nat → Read Node
  | 0 => refuse
  | fuel + 1 => do
    match ← peek with
    | some (.alias name) => do
      pass
      if ← isGiven name then return .alias name else throw .notYaml
    | some (.anchor name) => do
      pass
      give name
      return .named name (← content place true fuel)
    | _ => content place false fuel

/-- A node without its anchor; with an anchor before it, it may be missing. -/
def content (place : Place) (anchored : Bool) : Nat → Read Node
  | 0 => refuse
  | fuel + 1 => do
    let start ← here
    match ← peek with
    | some (.plain s) => pass; return .plain s
    | some (.quoted s) => pass; return .quoted s
    | some .flowSequenceStart => pass; return .sequence start (← inside (flowItems true fuel))
    | some .flowMappingStart => pass; return .mapping start (← inside (flowPairs true fuel))
    | some .blockEntry =>
      if place = .entry then return .sequence start (← inside (indentlessItems fuel))
      else missing anchored
    | some .blockSequenceStart =>
      if place = .flow then missing anchored else do
        pass
        return .sequence start (← inside (blockItems fuel))
    | some .blockMappingStart =>
      if place = .flow then missing anchored else do
        pass
        return .mapping start (← inside (blockPairs fuel))
    | _ => missing anchored

/-- A node, or an empty one if one of these tokens comes. -/
def nodeUnless (stops : List Token) (place : Place) : Nat → Read Node
  | 0 => refuse
  | fuel + 1 => do
    if ← nextIsOneOf stops then return .empty else node place fuel

/-- The items of a block sequence, to its end. -/
def blockItems : Nat → Read (List Node)
  | 0 => refuse
  | fuel + 1 => do
    match ← peek with
    | some .blockEntry => do
      pass
      let n ← nodeUnless [.blockEntry, .blockEnd] .block fuel
      return n :: (← blockItems fuel)
    | some .blockEnd => pass; return []
    | _ => refuse

def indentlessItems : Nat → Read (List Node)
  | 0 => refuse
  | fuel + 1 => do
    match ← peek with
    | some .blockEntry => do
      pass
      let n ← nodeUnless [.blockEntry, .key, .value, .blockEnd] .block fuel
      return n :: (← indentlessItems fuel)
    | _ => return []

/-- The entries of a block mapping, to its end. -/
def blockPairs : Nat → Read (List (Node × Node))
  | 0 => refuse
  | fuel + 1 => do
    match ← peek with
    | some .key => do
      pass
      let k ← nodeUnless [.key, .value, .blockEnd] .entry fuel
      let v ← blockValue fuel
      return (k, v) :: (← blockPairs fuel)
    | some .blockEnd => pass; return []
    | _ => refuse

def blockValue : Nat → Read Node
  | 0 => refuse
  | fuel + 1 => do
    if (← peek) == some .value then do
      pass
      nodeUnless [.key, .value, .blockEnd] .entry fuel
    else return .empty

/-- The items of a flow sequence, to its end.  An item with a key is a mapping of one entry. -/
def flowItems (first : Bool) : Nat → Read (List Node)
  | 0 => refuse
  | fuel + 1 => do
    if (← peek) == some .flowSequenceEnd then do
      pass
      return []
    else
      if !first then expect .flowEntry
      match ← peek with
      | some .flowSequenceEnd => pass; return []
      | some .key => do
        let start ← here
        pass
        let pair ← inside do
          let k ← nodeUnless [.value, .flowEntry, .flowSequenceEnd] .flow fuel
          return (k, ← flowValue .flowSequenceEnd fuel)
        return .mapping start [pair] :: (← flowItems false fuel)
      | _ => do
        let n ← node .flow fuel
        return n :: (← flowItems false fuel)

/-- The entries of a flow mapping, to its end.  An entry without a colon has no value. -/
def flowPairs (first : Bool) : Nat → Read (List (Node × Node))
  | 0 => refuse
  | fuel + 1 => do
    if (← peek) == some .flowMappingEnd then do
      pass
      return []
    else
      if !first then expect .flowEntry
      match ← peek with
      | some .flowMappingEnd => pass; return []
      | some .key => do
        pass
        let k ← nodeUnless [.value, .flowEntry, .flowMappingEnd] .flow fuel
        let v ← flowValue .flowMappingEnd fuel
        return (k, v) :: (← flowPairs false fuel)
      | _ => do
        let k ← node .flow fuel
        return (k, .empty) :: (← flowPairs false fuel)

def flowValue (closing : Token) : Nat → Read Node
  | 0 => refuse
  | fuel + 1 => do
    if (← peek) == some .value then do
      pass
      nodeUnless [.flowEntry, closing] .flow fuel
    else return .empty

end

/-- The marks after which no document follows. -/
def closingMarks (ts : List Token) : List Token := ts.dropWhile (· == .documentEnd)

/-- The node of a document whose start has been passed. -/
def documentContent (fuel : Nat) : Read Node := do
  match ← peek with
  | none | some .documentStart | some .documentEnd => return .empty
  | _ => node .block fuel

/-- The node of a text with one document; no node if the text has no document. -/
def ofTokens (ts : List Token) : Except UnreadableText (Option Node) :=
  let fuel := 4 * ts.length + 4
  let read (content : Read Node) (ts : List Token) : Except UnreadableText (Option Node) := do
    let (n, r) ← content.run { tokens := ts }
    match closingMarks r.tokens with
    | [] => return some n
    | rest => throw (reason rest)
  match ts with
  | [] => .ok none
  | .documentStart :: rest => read (documentContent fuel) rest
  | _ => read (node .block fuel) ts

end Node

end SchemaClasses.Yaml
