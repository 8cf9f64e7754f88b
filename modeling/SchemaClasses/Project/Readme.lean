import SchemaClasses.Language.Lines
import SchemaClasses.Project.Summary
import SchemaClasses.Text.ClassName

/-!
# The readme of a project

The readme is a list of sections: title, installation, server, channels, and models.  Sections
about things the document does not have are left out.
-/

namespace SchemaClasses.Readme

open Lines (enclosed)

/-- Items in one line, or a dash if there is nothing to show. -/
def listed (items : List String) : String :=
  let text := ", ".intercalate items
  if text = "" then "-" else text

def code (s : String) : String := "`" ++ s ++ "`"

/-! ## Sections about the document -/

/-- The title, the description and the version. -/
def titleSection (p : ProjectSummary) : String :=
  "# " ++ p.title ++ "\n" ++ enclosed "\n" p.description "\n" ++ "\n"
    ++ enclosed "Version: `" p.version "`\n\n"

def installCommand : Language → String
  | .php => "composer install"
  | .csharp => "dotnet restore"

/-- How to install the project. -/
def installSection (language : Language) : String :=
  "## Installation\n\n```\n" ++ installCommand language ++ "\n```\n"

/-- The library that talks to the server. -/
def clientLibrary : Language → String
  | .php => "php-amqplib"
  | .csharp => "RabbitMQ.Client"

/-- The protocol whose version matters. -/
def checkedProtocol : String := "amqp"

/-- The only version of that protocol the client libraries know. -/
def supportedVersion : String := "0.9.1"

def versionWarning (language : Language) (server : Server) : String :=
  if server.protocol = checkedProtocol && server.protocolVersion != supportedVersion then
    "\n> Only AMQP " ++ supportedVersion ++ " is supported by " ++ clientLibrary language ++ ".\n"
  else ""

/-- The kind of scheme that has a hint of its own. -/
def passwordScheme : String := "userPassword"

/-- One required security scheme. -/
def schemeLine (s : SecurityScheme) : Except Failure String :=
  s.name.shown.map fun name =>
    "- " ++ code name ++ " (" ++ s.type ++ ")"
      ++ (if s.type = passwordScheme then ": pass the user and password to the connection" else "")
      ++ "\n"

/-- The required security schemes. -/
def securitySection (schemes : List SecurityScheme) : Except Failure String :=
  (traverse schemeLine schemes).map fun lines =>
    enclosed "\n### Security\n\n" (String.join lines) ""

/-- The server. -/
def serverSection (language : Language) : Option ServerSummary → Except Failure String
  | none => .ok ""
  | some s => do
    let name ← s.server.name.shown
    let security ← securitySection s.schemes
    return "\n## Server\n\n" ++ code name ++ ": " ++ code s.server.url ++ " ("
      ++ s.server.protocol ++ enclosed " " s.server.protocolVersion "" ++ ")\n"
      ++ versionWarning language s.server ++ security

/-! ## Channels -/

/-- One operation of a channel. -/
def operationLine (label : String) (o : Operation) : String :=
  "\n- " ++ label ++ enclosed " (`" o.operationId "`)" ++ ": " ++ listed o.messages
    ++ enclosed ", payload " (", ".intercalate (o.payloads.map code)) "" ++ "\n"

/-- The operations of a channel. -/
def operationLines (c : Channel) : String :=
  (c.publish.map (operationLine "Publish")).getD ""
    ++ (c.subscribe.map (operationLine "Subscribe")).getD ""

/-- The name of the service of a channel; the name of the channel must be a text. -/
def serviceName (c : Channel) : Except Failure String :=
  match c.name with
  | .text s => .ok (Text.channelClassName s ++ "Service")
  | other => .error (.misplaced (.scalar other))

/-- One channel. -/
def channelSection (language : Language) (servicesNamespace : String) (c : Channel) :
    Except Failure String := do
  let name ← c.name.shown
  let service ← serviceName c
  return "### " ++ code name ++ "\n" ++ enclosed "\n" c.description "\n" ++ "\nService: "
    ++ code (servicesNamespace ++ language.separator.toString ++ service) ++ "\n"
    ++ operationLines c ++ "\n"

/-- The channels. -/
def channelsSection (language : Language) (p : ProjectSummary) : Except Failure String :=
  (traverse (channelSection language p.servicesNamespace) p.channels).map fun sections =>
    enclosed "\n## Channels\n\n" (String.join sections) ""

/-! ## Models -/

/-- The line of a class in the table. -/
def classRow (c : ClassSummary) : Except Failure String :=
  (traverse Scalar.shown c.fieldNames).map fun fields =>
    "| " ++ code c.name ++ " | " ++ (if c.superName = "" then "-" else code c.superName) ++ " | "
      ++ listed fields ++ " |\n"

/-- The sentence about a class with subclasses. -/
def polymorphismLine (c : ClassSummary) : Except Failure String :=
  if c.subclassNames.isEmpty then .ok ""
  else
    (c.discriminator.getD .null).shown.map fun discriminator =>
      "\n" ++ code c.name ++ " is polymorphic on " ++ code discriminator ++ ": "
        ++ ", ".intercalate c.subclassNames ++ ".\n"

/-- How to make an instance of a class. -/
def usage (language : Language) (c : ClassSummary) : String :=
  match language with
  | .php =>
    "use " ++ c.space ++ "\\" ++ c.name ++ ";\n\n" ++ Text.instanceVariable c.name ++ " = new "
      ++ c.name ++ "(/* ... */);\n"
  | .csharp =>
    "using " ++ c.space ++ ";\n\nvar " ++ Text.lowerFirst c.name ++ " = new " ++ c.name ++ "();\n"

def codeMark : Language → String
  | .php => "php"
  | .csharp => "csharp"

/-- The classes. -/
def modelsSection (language : Language) (p : ProjectSummary) : Except Failure String := do
  let rows ← traverse classRow p.classes
  let polymorphism ← traverse polymorphismLine p.classes
  return "## Models\n\nNamespace " ++ code p.modelsNamespace ++ ", sources in "
    ++ code (language.sourceDirectory ++ "/") ++ ".\n\n"
    ++ "| Class | Extends | Fields |\n| --- | --- | --- |\n"
    ++ String.join rows ++ String.join polymorphism
    ++ "\n```" ++ codeMark language ++ "\n"
    ++ String.join ((p.classes.take 1).map (usage language)) ++ "```\n"

/-! ## The whole readme -/

def text (language : Language) (p : ProjectSummary) : Except Failure String := do
  let server ← serverSection language p.server
  let channels ← channelsSection language p
  let models ← modelsSection language p
  return titleSection p ++ installSection language ++ server ++ channels ++ models

end SchemaClasses.Readme
