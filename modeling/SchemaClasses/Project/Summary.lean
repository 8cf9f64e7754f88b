import SchemaClasses.Document.Channel
import SchemaClasses.Document.Server
import SchemaClasses.Language.Member

/-!
# What a project file says

The files of a project besides its classes summarise the document and the class model.  A
`ProjectSummary` holds everything they show, in the form in which they show it.
-/

namespace SchemaClasses

/-- What the project files say about a class. -/
structure ClassSummary where
  name : String
  space : String
  superName : String
  discriminator : Option Scalar
  subclassNames : List String
  fieldNames : List Scalar

/-- The server a project talks to, with the security schemes it requires. -/
structure ServerSummary where
  server : Server
  schemes : List SecurityScheme

/-- What the project files say. -/
structure ProjectSummary where
  title : String
  version : String
  description : String
  server : Option ServerSummary
  channels : List Channel
  classes : List ClassSummary
  modelsNamespace : String
  servicesNamespace : String

namespace ProjectSummary

/-- The name of the server to describe: the chosen one, or else the first of the document. -/
def serverName (doc : Document) (choice : Value) : Except Failure Value :=
  if choice.truthy then .ok choice
  else doc.servers.map fun servers =>
    match servers with
    | [] => .text ""
    | (name, _) :: _ => .scalar name

/-- The server to describe.  An empty name stands for no server. -/
def serverSummary (doc : Document) (choice : Value) : Except Failure (Option ServerSummary) := do
  let name ← serverName doc choice
  if name.truthy then
    let server ← doc.server name
    let schemes ← doc.requiredSchemes name
    return some ⟨server, schemes⟩
  else return none

def classSummary (language : Language) (c : ClassDef) : Except Failure ClassSummary :=
  (language.typeNamespace c.type).map fun space => {
    name := c.name
    space := space
    superName := (c.superClass.map (·.name)).getD ""
    discriminator := c.discriminatorName
    subclassNames := c.subclasses.map (·.type.name)
    fieldNames := c.ownVariables.map (·.name) }

/-- The summary of a document and its classes. -/
def make (doc : Document) (model : ClassModel) (language : Language) (settings : Settings) :
    Except Failure ProjectSummary := do
  let server ← serverSummary doc settings.server
  let classes ← traverse (classSummary language) model.classes
  let title ← doc.title
  let version ← doc.version
  let description ← doc.description
  let channels ← doc.channels
  let modelsNamespace ← language.packageNamespace settings.modelsNamespace
  let servicesNamespace ← language.packageNamespace settings.servicesNamespace
  return {
    title := title
    version := version
    description := description
    server := server
    channels := channels.map (·.2)
    classes := classes
    modelsNamespace := modelsNamespace
    servicesNamespace := servicesNamespace }

end ProjectSummary

end SchemaClasses
