import SchemaClasses.Document.Basic
import SchemaClasses.Value.Names

/-!
# Servers and their security schemes

A server lists security requirements, each a mapping whose keys name security schemes.  The
schemes a server requires are the declared schemes of those names, in the server's order and with
its repetitions.
-/

namespace SchemaClasses

structure Server where
  name : Scalar
  url : String
  protocol : String
  protocolVersion : String
  description : String
  security : List Scalar

structure SecurityScheme where
  name : Scalar
  type : String
  description : String

namespace Document

def requirementNames : Value → Except Failure (List Scalar)
  | .mapping m _ => .ok (Entries.keys m)
  | v => .error (.misplaced v)

def securityNames (v : Value) : Except Failure (List Scalar) :=
  if !v.truthy then .ok []
  else
    match v with
    | .list items _ => (traverse requirementNames items).map List.flatten
    | _ => .error (.misplaced v)

/-- One server, which must be a mapping. -/
def serverEntry : Scalar × Value → Except Failure (Scalar × Server)
  | (name, .mapping m _) => do
    let security ← securityNames (Mapping.field m "security")
    let url ← Mapping.fieldText m "url"
    let protocol ← Mapping.fieldText m "protocol"
    let protocolVersion ← Mapping.fieldText m "protocolVersion"
    let description ← Mapping.fieldText m "description"
    return (name, {
      name := name
      url := url
      protocol := protocol
      protocolVersion := protocolVersion
      description := description
      security := security })
  | (name, _) => Failure.raise (.document (.serverNotMapping name))

def servers (doc : Document) : Except Failure (Entries Scalar Server) := do
  traverse serverEntry (← doc.section? ["servers"])

def server (doc : Document) (name : Value) : Except Failure Server := do
  let servers ← doc.servers
  match name with
  | .scalar key =>
    match Entries.get? servers key with
    | some server => return server
    | none => throw (.document (.unknownServer key (← textNames (Entries.keys servers))))
  | v => throw (.misplaced v)

/-- One security scheme, which must be a mapping. -/
def schemeEntry : Scalar × Value → Except Failure (Scalar × SecurityScheme)
  | (name, .mapping m _) => do
    let type ← Mapping.fieldText m "type"
    let description ← Mapping.fieldText m "description"
    return (name, { name := name, type := type, description := description })
  | (_, v) => .error (.misplaced v)

def securitySchemes (doc : Document) : Except Failure (Entries Scalar SecurityScheme) := do
  traverse schemeEntry (← doc.section? ["components", "securitySchemes"])

def requiredSchemes (doc : Document) (name : Value) : Except Failure (List SecurityScheme) := do
  let server ← doc.server name
  let schemes ← doc.securitySchemes
  let missing := server.security.filter fun key => !Entries.contains schemes key
  if missing.isEmpty then
    return server.security.filterMap (Entries.get? schemes)
  else
    let asked := name.scalar?.getD server.name
    let _ ← asked.shown
    throw (.document (.undeclaredSchemes asked (← textNames missing)))

end Document

end SchemaClasses
