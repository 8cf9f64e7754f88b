import SchemaClasses.CommandLine.Help
import SchemaClasses.CommandLine.Printed
import SchemaClasses.CommandLine.Record
import SchemaClasses.Document.Source
import SchemaClasses.Files.Output
import SchemaClasses.Generation

/-!
# A run of the program

`CommandLine.run` is the whole program as a function: from a file tree, the working directory and
the arguments to the file tree afterwards and an `Ending`.  Nothing is written before the document
has been read, checked and rendered.
-/

namespace SchemaClasses.CommandLine

/-- What ends a run. -/
inductive Stop where
  | failure (f : Failure)
  | output (e : OutputError)

/-- How a run ends. -/
inductive Ending where
  | usage (e : UsageError)
  | help
  /-- The run was stopped. -/
  | stopped (s : Stop)
  /-- Files were written; some classes may have been left out. -/
  | finished (written : List Location) (failures : List (ClassFailure Failure))

namespace Stop

/-- Whether the program reports what stopped it; all else it does not handle. -/
def reported : Stop → Bool
  | failure (.unreadable _) => false
  | failure (.unsupported _) => false
  | failure (.unshown _) => false
  | failure _ => true
  | output (.outside _) => false
  | output (.occupied _) => true
  | output (.allOccupied _) => true
  | output (.system (.fileInPlace _)) => true
  | output (.system _) => false

/-- The wording of what stopped a run. -/
def message : Stop → String
  | failure f => f.message
  | output e => e.message

end Stop

/-! ## Parameters -/

/-- The location that a path means.  A path with names that cannot be asked for stops the run. -/
def place (here : Location) (path : String) : Except Ending Location :=
  (Output.resolve here path).mapError fun e => .stopped (.output (.system e))

/-- The location of a file that has to be there. -/
def existing (t : FileTree) (here : Location) (path : String) : Except Ending Location := do
  let l ← place here path
  if t.present l then return l else throw (.usage (.noSuchFile path))

/-- The location of the document, which has to be a file. -/
def documentPlace (t : FileTree) (here : Location) (path : String) : Except Ending Location := do
  let l ← existing t here path
  if t.isDirectory l then throw (.usage (.isDirectory path))
  return l

/-- The location of the output directory, which may be missing but not be a file. -/
def outputPlace (t : FileTree) (here : Location) (path : String) : Except Ending Location := do
  let l ← place here path
  if (t.content? l).isSome then throw (.usage (.isFile path))
  return l

/-- What a run is asked to do. -/
structure Request where
  config : Option Location
  language : Language
  document : Location
  output : Location
  parameters : Parameters

/-- The location of the settings file, if one is given. -/
def configPlace (t : FileTree) (here : Location) (g : Given) :
    Except Ending (Option Location) :=
  match g.field? .config with
  | some path => (existing t here path).map some
  | none => .ok none

def languageCode (g : Given) : String := (g.field? .language).getD defaultLanguage

/-- The language, if its code is known. -/
def chosenLanguage (g : Given) : Except Ending Language :=
  (Language.ofCode (languageCode g)).mapError fun _ => .usage (.unknownLanguage (languageCode g))

/-- Check the value of an option. -/
def checkField (t : FileTree) (here : Location) (g : Given) : Field → Except Ending Unit
  | .config => (configPlace t here g).map fun _ => ()
  | .language => (chosenLanguage g).map fun _ => ()
  | .server | .modelsNamespace | .servicesNamespace => .ok ()

/-- The request that a command line makes; paths are understood from the working directory.  The
options are checked in the order in which they first stand on the command line, and the arguments
after them. -/
def request (t : FileTree) (here : Location) (g : Given) : Except Ending Request := do
  let _ ← traverse (checkField t here g) (g.fields.reverse.map (·.1))
  let config ← configPlace t here g
  let language ← chosenLanguage g
  let missing : Ending := .usage .missingArgument
  let path :: rest := g.arguments.reverse | throw missing
  let document ← documentPlace t here path
  let output :: more := rest | throw missing
  let output ← outputPlace t here output
  unless more.isEmpty do throw (.usage .extraArgument)
  return {
    config := config
    language := language
    document := document
    output := output
    parameters := {
      config := config.map Location.text
      language := some (languageCode g)
      server := g.field? .server
      modelsNamespace := g.field? .modelsNamespace
      servicesNamespace := g.field? .servicesNamespace
      force := g.isOn .force
      verbose := g.isOn .verbose
      path := Location.text document
      output := Location.text output } }

/-! ## Settings -/

def fileText (t : FileTree) (l : Location) : Except Stop String :=
  match t.content? l with
  | some text => .ok text
  | none => .error (.output (.system .isDirectory))

/-- The settings of the settings file, if there is one. -/
def fileSettings (t : FileTree) : Option Location → Except Stop Settings
  | none => .ok {}
  | some l => do
    let text ← fileText t l
    let v ← (Format.json.readFile text).mapError fun u => .failure (.unreadable u)
    (Settings.ofValue v).mapError .failure

/-- A setting that the command line may override; an empty value does not. -/
def overridden (setting : Value) (given : Option String) : Value :=
  match given with
  | some s => if s = "" then setting else .text s
  | none => setting

/-- The settings with what the command line says. -/
def withParameters (settings : Settings) (p : Parameters) : Settings :=
  { settings with
    server := overridden settings.server p.server
    modelsNamespace := overridden settings.modelsNamespace p.modelsNamespace
    servicesNamespace := overridden settings.servicesNamespace p.servicesNamespace
    outputMode := if p.force then .force else settings.outputMode
    generationCommand := .text p.record }

/-! ## The run -/

/-- Everything a run does before it writes: settings, document, classes and project files. -/
def prepare (t : FileTree) (r : Request) : Except Stop (Settings × Generated Failure) := do
  let settings ← fileSettings t r.config
  let settings := withParameters settings r.parameters
  let text ← fileText t r.document
  let doc ← (Document.ofFile (r.document.getLast?.getD "") text).mapError .failure
  let generated ← (Generation.ofDocument doc {} r.language settings).mapError .failure
  return (settings, generated)

/-- Do what is asked. -/
def perform (t : FileTree) (r : Request) : FileTree × Ending :=
  match prepare t r with
  | .error s => (t, .stopped s)
  | .ok (settings, generated) =>
    match Output.writeArtifacts t r.output settings.outputRule generated.artifacts with
    | (t, .error e) => (t, .stopped (.output e))
    | (t, .ok written) => (t, .finished written generated.failures)

def run (t : FileTree) (here : Location) (args : List String) : FileTree × Ending :=
  match readArguments args {} with
  | .error e => (t, .usage e)
  | .ok g =>
    if g.isOn .help then (t, .help)
    else
      match request t here g with
      | .error ending => (t, ending)
      | .ok r => perform t r

/-! ## What the caller sees -/

namespace Ending

def writtenLine (l : Location) : String := "Wrote " ++ Location.text l ++ "\n"

/-- What stopped the run, if the program does not handle it.  A line that cannot be printed stops it
after everything has been written. -/
def unhandled? : Ending → Option Stop
  | stopped s => if s.reported then none else some s
  | finished written _ =>
    if written.all (printable ∘ writtenLine) then none
    else some (.output (.system .halfCharacter))
  | usage _ | help => none

def exitCode (ending : Ending) : Nat :=
  if ending.unhandled?.isSome then 1
  else
    match ending with
    | usage _ => 2
    | help => 0
    | stopped _ => 1
    | finished _ failures => if failures.isEmpty then 0 else 1

/-- A report of an error. -/
def errorLine (message : String) : String := "Error: " ++ message ++ "\n"

/-- The lines about a class that was left out. -/
def failureLine (f : ClassFailure Failure) : String :=
  "Failed to render " ++ f.className ++ ": " ++ f.error.message ++ "\n"

def output : Ending → String
  | finished written _ =>
    printed (String.join ((written.map writtenLine).takeWhile printable))
  | help => helpText
  | usage _ | stopped _ => ""

def reports : Ending → String
  | usage e => errorLine e.message
  | stopped s => errorLine s.message
  | finished _ failures =>
    if failures.isEmpty then ""
    else String.join (failures.map failureLine) ++ errorLine (failureCount failures.length)
  | help => ""

def errorOutput (ending : Ending) : String :=
  if ending.unhandled?.isSome then "" else reportedText ending.reports

end Ending

end SchemaClasses.CommandLine
