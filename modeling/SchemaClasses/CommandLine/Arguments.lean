import SchemaClasses.Language.Basic

/-!
# The arguments of a command line

Options may stand before, between and after the two arguments.  A long option takes its value from
behind an equals sign or from the next argument; a short one from the characters that follow it or
from the next argument, and short options without a value can be written together.  Two dashes end
the options.  Of several values for one option the last counts.
-/

namespace SchemaClasses.CommandLine

/-- The options that take a value. -/
inductive Field where
  | config
  | language
  | server
  | modelsNamespace
  | servicesNamespace
  deriving DecidableEq, Repr

/-- The options that take no value. -/
inductive Switch where
  | force
  | verbose
  | help
  deriving DecidableEq, Repr

/-- An option. -/
inductive CliOption where
  | field (f : Field)
  | switch (s : Switch)
  deriving DecidableEq, Repr

def Field.longName : Field → String
  | config => "--config"
  | language => "--language"
  | server => "--server"
  | modelsNamespace => "--models-namespace"
  | servicesNamespace => "--services-namespace"

def longOptions : List (String × CliOption) :=
  [Field.config, .language, .server, .modelsNamespace, .servicesNamespace].map
      (fun f => (f.longName, .field f))
    ++ [("--force", .switch .force), ("--verbose", .switch .verbose), ("--help", .switch .help)]

/-- The options by their letters. -/
def shortOptions : List (Char × CliOption) :=
  [('c', .field .config), ('l', .field .language), ('s', .field .server), ('v', .switch .verbose)]

/-- Why a command line is refused. -/
inductive UsageError where
  | unknownOption (name : String)
  | missingValue (name : String)
  | unexpectedValue (name : String)
  | missingArgument
  | extraArgument
  | unknownLanguage (code : String)
  | noSuchFile (path : String)
  | isDirectory (path : String)
  | isFile (path : String)
  deriving DecidableEq, Repr

/-- The wording of a usage error. -/
def UsageError.message : UsageError → String
  | unknownOption name => "No such option: " ++ name
  | missingValue name => "Option '" ++ name ++ "' requires an argument."
  | unexpectedValue name => "Option '" ++ name ++ "' does not take a value."
  | missingArgument => "Missing argument."
  | extraArgument => "Got unexpected extra argument."
  | unknownLanguage code => "'" ++ code ++ "' is not one of the languages."
  | noSuchFile path => "File '" ++ path ++ "' does not exist."
  | isDirectory path => "File '" ++ path ++ "' is a directory."
  | isFile path => "Directory '" ++ path ++ "' is a file."

structure Given where
  /-- The options with their values, the last one first. -/
  fields : List (Field × String) := []
  switches : List Switch := []
  /-- The arguments that are no options, the last one first. -/
  arguments : List String := []

namespace Given

/-- Give a value to an option. -/
def setField (g : Given) (f : Field) (value : String) : Given :=
  { g with fields := (f, value) :: g.fields }

def turnOn (g : Given) (s : Switch) : Given := { g with switches := s :: g.switches }

def addArgument (g : Given) (a : String) : Given := { g with arguments := a :: g.arguments }

/-- The value of an option, if one was given. -/
def field? (g : Given) (f : Field) : Option String := g.fields.lookup f

/-- Whether an option was turned on. -/
def isOn (g : Given) (s : Switch) : Bool := g.switches.contains s

end Given

/-! ## Reading -/

/-- What is left to do after an argument. -/
inductive Pending where
  | done (g : Given)
  /-- The next argument is the value of an option. -/
  | value (f : Field) (name : String) (g : Given)

def readLetters : List Char → Given → Except UsageError Pending
  | [], g => .ok (.done g)
  | c :: rest, g =>
    match shortOptions.lookup c with
    | none => .error (.unknownOption ("-" ++ c.toString))
    | some (.switch s) => readLetters rest (g.turnOn s)
    | some (.field f) =>
      if rest.isEmpty then .ok (.value f ("-" ++ c.toString) g)
      else .ok (.done (g.setField f (String.ofList rest)))

/-- The name of a long option, and the value behind an equals sign if there is one. -/
def splitOption (arg : String) : String × Option String :=
  let cs := arg.toList
  let name := cs.takeWhile (· ≠ '=')
  (String.ofList name,
    if name.length < cs.length then some (String.ofList (cs.drop (name.length + 1))) else none)

/-- Read an argument that begins with a dash. -/
def readOption (arg : String) (g : Given) : Except UsageError Pending :=
  let (name, value) := splitOption arg
  match longOptions.lookup name, value with
  | some (.field f), some v => .ok (.done (g.setField f v))
  | some (.field f), none => .ok (.value f name g)
  | some (.switch s), none => .ok (.done (g.turnOn s))
  | some (.switch _), some _ => .error (.unexpectedValue name)
  | none, _ =>
    if "--".toList.isPrefixOf arg.toList then .error (.unknownOption name)
    else readLetters (arg.toList.drop 1) g

/-- Whether an argument is an option: a dash with something behind it. -/
def isOption (arg : String) : Bool := arg.toList.head? == some '-' && arg ≠ "-"

def readArguments : List String → Given → Except UsageError Given
  | [], g => .ok g
  | arg :: rest, g =>
    if arg = "--" then .ok (rest.foldl Given.addArgument g)
    else if isOption arg then
      match readOption arg g, rest with
      | .error e, _ => .error e
      | .ok (.done g), rest => readArguments rest g
      | .ok (.value _ name _), [] => .error (.missingValue name)
      | .ok (.value f _ g), v :: rest => readArguments rest (g.setField f v)
    else readArguments rest (g.addArgument arg)

end SchemaClasses.CommandLine
