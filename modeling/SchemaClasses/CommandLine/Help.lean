import SchemaClasses.CommandLine.Arguments

/-!
# The help text

The text that is printed when help is asked for: how the program is called, what it does, and a
table of its options.  The descriptions stand in a column of their own, and a long one goes on in
the next line.
-/

namespace SchemaClasses.CommandLine

/-- An option as it is called, with the lines of its description. -/
structure HelpEntry where
  call : String
  description : List String

/-- The options in the order in which they are described. -/
def helpEntries : List HelpEntry := [
  ⟨"-c, --config PATH", ["JSON configuration file"]⟩,
  ⟨"-l, --language [" ++ "|".intercalate Language.codes ++ "]", []⟩,
  ⟨"-s, --server TEXT", ["Server described in the README (default: first", "server)"]⟩,
  ⟨"--models-namespace TEXT", ["Namespace of the generated model classes"]⟩,
  ⟨"--services-namespace TEXT", ["Namespace of the services, for the README"]⟩,
  ⟨"--force", ["Overwrite existing files"]⟩,
  ⟨"-v, --verbose", ["Log every generation step"]⟩,
  ⟨"--help", ["Show this message and exit."]⟩]

/-- The column in which descriptions begin, behind the longest call. -/
def descriptionColumn : Nat := (helpEntries.map (·.call.length)).foldl max 0 + 2

/-- A text filled up with blanks to the column of the descriptions. -/
def padded (s : String) : String :=
  s ++ String.ofList (List.replicate (descriptionColumn - s.length) ' ')

def HelpEntry.lines (e : HelpEntry) : List String :=
  match e.description with
  | [] => [e.call]
  | first :: more => (padded e.call ++ first) :: more.map (padded "" ++ ·)

/-- A line that belongs under a heading. -/
def indented (line : String) : String := "  " ++ line

def helpText : String :=
  "\n".intercalate (["Usage: asyncapi-to-code [OPTIONS] PATH OUTPUT", ""]
    ++ ["Generate model classes from the AsyncAPI document PATH into the OUTPUT",
        "directory."].map indented
    ++ ["", "Options:"] ++ (helpEntries.flatMap HelpEntry.lines).map indented) ++ "\n"

end SchemaClasses.CommandLine
