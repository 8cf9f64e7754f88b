import SchemaClasses.Accessibility
import SchemaClasses.Failure

/-!
# Settings of a run

Settings come from a JSON object.  Members that are no setting are ignored, and the settings are
checked once, after all members have been read: the default accessibility must be one of the three
keywords, the namespace of the models must not be empty, and an output mode that is a text must be
`error` or `force`.  The remaining settings are values of any kind; the place that uses one decides
what it can be.

A few names are taken.  `validate` and `to_dict` name the check and the description of the settings
themselves, and a member of that name leaves the settings without them.  `allMembers` names the
members all at once: an object under this name replaces what was read before it, unchecked.  The
`reservedNames` cannot be written at all.
-/

namespace SchemaClasses

/-- What to do when an output file already exists. -/
inductive OutputMode where
  | error
  | force
  /-- A mode that is not a text is kept; it is not `error`, so existing files are overwritten. -/
  | other (v : Value)

/-- The word of an output mode; a mode that is not a text has none. -/
def OutputMode.word? : OutputMode → Option String
  | .error => some "error"
  | .force => some "force"
  | .other _ => none

structure Settings where
  modelsNamespace : Value := .text "App\\Models"
  servicesNamespace : Value := .text "App\\Services"
  server : Value := .text ""
  defaultAccessibility : Accessibility := .owner
  addGenerationComment : Value := .scalar (.bool true)
  generationCommand : Value := .text "asyncapi_to_code"
  outputMode : OutputMode := .error
  atomicWrite : Value := .scalar (.bool true)
  /-- Whether the settings can still be written back. -/
  describable : Bool := true

namespace Settings

/-! ## Reading -/

/-- The output settings before they are checked. -/
inductive OutputDraft where
  | fields (mode atomicWrite : Value)
  /-- Not an object, so it has neither a mode nor a way of writing. -/
  | other (v : Value)

/-- Settings before they are checked. -/
structure Draft where
  modelsNamespace : Value := .text "App\\Models"
  servicesNamespace : Value := .text "App\\Services"
  server : Value := .text ""
  defaultAccessibility : Value := .text "private"
  addGenerationComment : Value := .scalar (.bool true)
  generationCommand : Value := .text "asyncapi_to_code"
  output : OutputDraft := .fields (.text "error") (.scalar (.bool true))
  checkable : Bool := true
  describable : Bool := true

/-- Names that no settings can write. -/
def reservedNames : List String := ["__class__", "__weakref__"]

def allMembers : String := "__dict__"

/-- The draft that has exactly these members.  Its output settings are a plain value, which is no
way of writing output. -/
def Draft.ofMembers (m : Mapping) : Draft :=
  let defaults : Draft := {}
  { modelsNamespace := (Mapping.field? m "models_namespace").getD defaults.modelsNamespace
    servicesNamespace := (Mapping.field? m "services_namespace").getD defaults.servicesNamespace
    server := (Mapping.field? m "server").getD defaults.server
    defaultAccessibility :=
      (Mapping.field? m "default_accessibility").getD defaults.defaultAccessibility
    addGenerationComment :=
      (Mapping.field? m "add_generation_comment").getD defaults.addGenerationComment
    generationCommand := (Mapping.field? m "generation_command").getD defaults.generationCommand
    output := .other (Mapping.field m "output")
    checkable := !Mapping.hasField m "validate"
    describable := !Mapping.hasField m "to_dict" }

/-- Read the output settings: an object may hold a mode and a way of writing, and nothing else. -/
def readOutput : Value → Except Failure OutputDraft
  | .mapping m _ =>
    if (Entries.keys m).all fun k => k == .text "mode" || k == .text "atomic_write" then
      .ok (.fields ((Mapping.field? m "mode").getD (.text "error"))
        ((Mapping.field? m "atomic_write").getD (.scalar (.bool true))))
    else .error (.misplaced (.mapping m))
  | v => .ok (.other v)

/-- Write one setting into a draft; `none` if the name is not that of a setting. -/
def Draft.set? (d : Draft) (name : String) (v : Value) : Option (Except Failure Draft) :=
  match name with
  | "models_namespace" => some (.ok { d with modelsNamespace := v })
  | "services_namespace" => some (.ok { d with servicesNamespace := v })
  | "server" => some (.ok { d with server := v })
  | "default_accessibility" => some (.ok { d with defaultAccessibility := v })
  | "add_generation_comment" => some (.ok { d with addGenerationComment := v })
  | "generation_command" => some (.ok { d with generationCommand := v })
  | "output" => some ((readOutput v).map fun output => { d with output := output })
  | _ => none

/-- Write one member into a draft, ignoring a name that is no setting. -/
def Draft.write (d : Draft) (name : String) (v : Value) : Except Failure Draft :=
  match d.set? name v with
  | some result => result
  | none =>
    if name = allMembers then
      match v with
      | .mapping m _ => .ok (Draft.ofMembers m)
      | _ => .error (.misplaced v)
    else if name ∈ reservedNames then .error (.misplaced v)
    else if name = "validate" then .ok { d with checkable := false }
    else if name = "to_dict" then .ok { d with describable := false }
    else .ok d

/-- Write one member into a draft, refusing a name that is no setting. -/
def Draft.writeStrict (d : Draft) (name : String) (v : Value) : Except Failure Draft :=
  (d.set? name v).getD (.error (.misplaced v))

/-- Write the members of an object in order. -/
def Draft.writeAll (write : Draft → String → Value → Except Failure Draft) :
    Draft → Mapping → Except Failure Draft
  | d, [] => .ok d
  | d, (key, v) :: rest =>
    match write d key.display v with
    | .ok d' => Draft.writeAll write d' rest
    | .error e => .error e

/-- The output mode that a value stands for. -/
def readMode : Value → Except Failure OutputMode
  | .scalar (.text "error") => .ok .error
  | .scalar (.text "force") => .ok .force
  | .scalar (.text s) => .error (.settings (.unknownOutputMode s))
  | v => .ok (.other v)

def Draft.check (d : Draft) : Except Failure Settings :=
  if !d.checkable then .error (.misplaced .null)
  else
    match Accessibility.ofValue? d.defaultAccessibility with
    | none => .error (.settings (.unknownAccessibility d.defaultAccessibility))
    | some accessibility =>
      if !d.modelsNamespace.truthy then .error (.settings .emptyModelsNamespace)
      else
        match d.output with
        | .other v => .error (.misplaced v)
        | .fields mode atomicWrite =>
          match readMode mode with
          | .error e => .error e
          | .ok outputMode =>
            .ok {
              modelsNamespace := d.modelsNamespace
              servicesNamespace := d.servicesNamespace
              server := d.server
              defaultAccessibility := accessibility
              addGenerationComment := d.addGenerationComment
              generationCommand := d.generationCommand
              outputMode := outputMode
              atomicWrite := atomicWrite
              describable := d.describable }

/-- The settings that an object describes.  Members that are no setting are ignored. -/
def ofObject (m : Mapping) : Except Failure Settings :=
  match Draft.writeAll Draft.write {} m with
  | .ok d => d.check
  | .error e => .error e

/-- The settings that named arguments describe.  Every name must be that of a setting. -/
def ofArguments (m : Mapping) : Except Failure Settings :=
  match Draft.writeAll Draft.writeStrict {} m with
  | .ok d => d.check
  | .error e => .error e

/-- The settings that a JSON value describes: it must be an object. -/
def ofValue : Value → Except Failure Settings
  | .mapping m _ => ofObject m
  | v => .error (.misplaced v)

/-! ## Writing back -/

def describe (c : Settings) : Except Failure Mapping :=
  match c.outputMode.word? with
  | some mode =>
    if c.describable then
      .ok [
        (.text "models_namespace", c.modelsNamespace),
        (.text "services_namespace", c.servicesNamespace),
        (.text "server", c.server),
        (.text "default_accessibility", .text c.defaultAccessibility.keyword),
        (.text "add_generation_comment", c.addGenerationComment),
        (.text "generation_command", c.generationCommand),
        (.text "output", .mapping [
          (.text "mode", .text mode),
          (.text "atomic_write", c.atomicWrite)])]
    else .error (.misplaced .null)
  | none => .error (.misplaced .null)

end Settings

end SchemaClasses
