import SchemaClasses.Document.Basic
import SchemaClasses.Reference

/-!
# Channels and their operations

An operation carries a message, or the alternatives of `oneOf`.  Each alternative contributes a
message name (the one its reference ends in, or its own `name`) and the name of the schema its
payload refers to.  A referenced message is looked up among the declared messages for its payload.
-/

namespace SchemaClasses

structure Operation where
  operationId : String
  summary : String
  messages : List String
  payloads : List String

structure Channel where
  name : Scalar
  description : String
  publish : Option Operation
  subscribe : Option Operation
  parameters : List Scalar

namespace Document

/-! ## Messages -/

/-- The name below a root that a reference value ends in; the value must be a text. -/
def referencedName (root : String) : Value → Except Failure String
  | .scalar (.text ref) => .ok (Reference.nameBelow root ref)
  | v => .error (.misplaced v)

/-- A value that must be a mapping. -/
def asMapping : Value → Except Failure Mapping
  | .mapping m _ => .ok m
  | v => .error (.misplaced v)

def occursIn (word : List Char) : List Char → Bool
  | [] => word.isEmpty
  | c :: rest => word.isPrefixOf (c :: rest) || occursIn word rest

/-- The schema names of a payload: none, or the one it refers to.  A payload that is no mapping has
no reference, unless it holds the word `$ref` itself, where it cannot be read as one. -/
def payloadNames (v : Value) : Except Failure (List String) :=
  if !v.truthy then .ok []
  else
    match v with
    | .mapping m _ =>
      match Mapping.field? m "$ref" with
      | some ref => (referencedName Reference.schemaRoot ref).map ([·])
      | none => .ok []
    | .scalar (.text s) =>
      if occursIn "$ref".toList s.toList then .error (.misplaced v) else .ok []
    | .list items _ => if items.any (·.isText "$ref") then .error (.misplaced v) else .ok []
    | _ => .error (.misplaced v)

structure Contribution where
  messages : List String
  payloads : List String

def contribution (doc : Document) (v : Value) : Except Failure Contribution := do
  let m ← asMapping v
  match Mapping.field? m "$ref" with
  | some ref =>
    let name ← referencedName Reference.messageRoot ref
    let declared ← doc.section? ["components", "messages"]
    let body ← asMapping ((Mapping.field? declared name).getD (.mapping []))
    return ⟨[name], ← payloadNames (Mapping.field body "payload")⟩
  | none =>
    let name := Mapping.field m "name"
    let messages ← if name.truthy then name.shown.map ([·]) else .ok []
    return ⟨messages, ← payloadNames (Mapping.field m "payload")⟩

/-- The messages that an operation chooses from. -/
def alternatives (v : Value) : Except Failure (List Value) :=
  if !v.truthy then .ok [.mapping []]
  else
    match v with
    | .mapping m _ =>
      match Mapping.field? m "oneOf" with
      | none => .ok [v]
      | some (.list items _) => .ok items
      | some (.mapping [] _) => .ok []
      | some (.scalar (.text "")) => .ok []
      | some other => .error (.misplaced other)
    | _ => .error (.misplaced v)

/-! ## Operations and channels -/

/-- An operation; null is no operation. -/
def operation (doc : Document) (v : Value) : Except Failure (Option Operation) :=
  if v.isNull then .ok none
  else do
    let m ← asMapping v
    let parts ← traverse doc.contribution (← alternatives (Mapping.field m "message"))
    let operationId ← Mapping.fieldText m "operationId"
    let summary ← Mapping.fieldText m "summary"
    return some {
      operationId := operationId
      summary := summary
      messages := parts.flatMap (·.messages)
      payloads := parts.flatMap (·.payloads) }

def parameterNames (v : Value) : Except Failure (List Scalar) :=
  if !v.truthy then .ok [] else (asMapping v).map Entries.keys

/-- One channel, which must be a mapping. -/
def channelEntry (doc : Document) : Scalar × Value → Except Failure (Scalar × Channel)
  | (name, .mapping m _) => do
    let description ← Mapping.fieldText m "description"
    let publish ← doc.operation (Mapping.field m "publish")
    let subscribe ← doc.operation (Mapping.field m "subscribe")
    let parameters ← parameterNames (Mapping.field m "parameters")
    return (name, {
      name := name
      description := description
      publish := publish
      subscribe := subscribe
      parameters := parameters })
  | (name, _) => Failure.raise (.document (.channelNotMapping name))

def channels (doc : Document) : Except Failure (Entries Scalar Channel) := do
  traverse doc.channelEntry (← doc.section? ["channels"])

end Document

end SchemaClasses
