import SchemaClasses.CommandLine.Run

/-!
# The program

The program itself is `CommandLine.run`.  Here the file system is looked at where the run can
reach it, the run is computed, and what it changed is written.  The run is computed twice: the
first time shows which files it would write, so that these places can be looked at as well.
-/

namespace SchemaClasses.Program

/-- The text that stands for what was read. -/
def received (s : String) : String := Text.ofChars s.toList

/-- What a text stands for. -/
def sent (s : String) : String := String.ofList (Text.plainChars s)

def look (t : FileTree) (l : Location) : IO FileTree := do
  if l.isEmpty || t.present l then return t
  let place := (← IO.currentDir) / sent (Location.text l)
  if ← place.isDir then return t.put l .directory
  if ← place.pathExists then
    let bytes ← IO.FS.readBinFile place
    return t.put l (.file (received ((String.fromUTF8? bytes).getD "\uFFFD")))
  return t

/-- Look at a place and at the directories above it. -/
def lookAlong (t : FileTree) (l : Location) : IO FileTree :=
  ((List.range (l.length + 1)).map l.take).foldlM look t

def namedPlaces (here : Location) (args : List String) : List Location :=
  match CommandLine.readArguments args {} with
  | .ok g => ((g.field? .config).toList ++ g.arguments).map (Location.ofText here)
  | .error _ => []

/-- Write what a run changed, directories before the files in them. -/
def apply (before after : FileTree) : IO Unit := do
  for (l, node) in after.entries do
    unless before.node? l == some node do
      let place := (← IO.currentDir) / sent (Location.text l)
      match node with
      | .directory => IO.FS.createDirAll place
      | .file content => IO.FS.writeFile place (sent content)

/-- Run the program on the file system. -/
def start (args : List String) : IO UInt32 := do
  let args := args.map received
  let here := Location.ofText [] (received (← IO.currentDir).toString)
  let known ← (here :: namedPlaces here args).foldlM lookAlong {}
  let reached := (CommandLine.run known here args).1
  let known ← (reached.entries.map (·.1)).foldlM lookAlong known
  let (after, ending) := CommandLine.run known here args
  apply known after
  IO.print (sent ending.output)
  IO.eprint (sent ending.errorOutput)
  if let some stop := ending.unhandled? then IO.eprintln (sent (CommandLine.reportedText stop.message))
  return ending.exitCode.toUInt32

end SchemaClasses.Program

/-- The program. -/
def main (args : List String) : IO UInt32 := SchemaClasses.Program.start args
