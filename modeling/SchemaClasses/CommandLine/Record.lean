import SchemaClasses.CommandLine.Arguments
import SchemaClasses.Files.Location

/-!
# The recorded command line

Generated files name the command they were made by.  What is recorded must not depend on the
machine, so paths are cut down to their last names, and the settings file, the switches and
everything that is left at its default are not recorded.
-/

namespace SchemaClasses.CommandLine

structure Parameters where
  config : Option String := none
  language : Option String := none
  server : Option String := none
  modelsNamespace : Option String := none
  servicesNamespace : Option String := none
  force : Bool := false
  verbose : Bool := false
  path : String := ""
  output : String := ""
  deriving DecidableEq, Repr

def programName : String := "asyncapi_to_code"

/-- The code of the language that is used if none is given. -/
def defaultLanguage : String := Language.php.code

namespace Parameters

/-- The values that are recorded if they are given and not the default, with their options. -/
def recordable (p : Parameters) : List (Field × Option String) :=
  [(.language, p.language.filter (· ≠ defaultLanguage)), (.server, p.server),
    (.modelsNamespace, p.modelsNamespace), (.servicesNamespace, p.servicesNamespace)]

/-- The words of one option; an option without a value or with an empty one is left out. -/
def optionWords : Field × Option String → List String
  | (f, some value) => if value = "" then [] else [f.longName, value]
  | (_, none) => []

def argumentWords (path : String) : List String :=
  if path = "" then [] else [(WrittenPath.ofText path).name]

def record (p : Parameters) : String :=
  " ".intercalate ([programName] ++ argumentWords p.path ++ argumentWords p.output
    ++ p.recordable.flatMap optionWords)

end Parameters

end SchemaClasses.CommandLine
