import StepLocator.CommandLine.Arguments
import StepLocator.CommandLine.Question
import StepLocator.Number.Numeral
import StepLocator.Settings.Layered

/-!
The commands of the program and their reading from arguments. What is said about a parameter is
read in the order of first mention, then the positional arguments in their order, so of several
faults the first of these counts.
-/
namespace StepLocator
namespace CommandLine

inductive Parameter
  | config
  | logLevel
  | logFile
  | transport
  | host
  | port
  | document
  | line
  | character
  | root
  | direct
  | timeout
  deriving DecidableEq, Repr

inductive Datum
  | truth (on : Bool)
  | text (t : Text)
  | path (p : Path)
  | integer (i : Int)
  | number (x : Real64)
  deriving DecidableEq, Repr

/-- What a command is told, in the order in which it was read. -/
abbrev Told := List (Parameter × Datum)

namespace Parameter

/-- Read a path; the character number zero is in none. -/
def readPath (t : Text) : Except UsageFault Datum :=
  if '\x00' ∈ t then .error (.notPath t) else .ok (.path (Path.ofText t))

/-- Read an integer, in any of the forms that count in settings. -/
def readInteger (t : Text) : Except UsageFault Datum :=
  match Shape.integerText t with
  | .ok i => .ok (.integer i)
  | .error _ => .error (.notInteger t)

def readNumber (t : Text) : Except UsageFault Datum :=
  match Real64.read? t with
  | some x => .ok (.number x)
  | none => .error (.notNumber t)

def readValue (t : Text) : Parameter → Except UsageFault Datum
  | .config | .logFile | .document | .root => readPath t
  | .port | .line | .character => readInteger t
  | .timeout => readNumber t
  | .logLevel | .host | .transport | .direct => .ok (.text t)

def read (p : Parameter) : Said → Except UsageFault (Parameter × Datum)
  | .switched on => .ok (p, .truth on)
  | .value t => (p.readValue t).map fun datum => (p, datum)

def label : Parameter → Text
  | .document => "DOCUMENT"
  | _ => "LINE"

def readPositional : List Parameter → List Text → Except UsageFault Told
  | [], [] => .ok []
  | [], text :: _ => .error (.argumentUnexpected text)
  | p :: _, [] => .error (.argumentMissing p.label)
  | p :: parameters, text :: rest => do
    let datum ← p.read (.value text)
    return datum :: (← readPositional parameters rest)

end Parameter

namespace Told

def truth? (told : Told) (p : Parameter) : Option Bool :=
  match told.lookup p with
  | some (.truth on) => some on
  | _ => none

def text? (told : Told) (p : Parameter) : Option Text :=
  match told.lookup p with
  | some (.text t) => some t
  | _ => none

def path? (told : Told) (p : Parameter) : Option Path :=
  match told.lookup p with
  | some (.path p) => some p
  | _ => none

def integer? (told : Told) (p : Parameter) : Option Int :=
  match told.lookup p with
  | some (.integer i) => some i
  | _ => none

def number? (told : Told) (p : Parameter) : Option Real64 :=
  match told.lookup p with
  | some (.number x) => some x
  | _ => none

end Told

def readArguments (spellings : List (Spelling Parameter)) (positional : List Parameter)
    (texts : List Text) : Except UsageFault Told := do
  let arguments ← Arguments.split spellings texts
  let told ← (Arguments.settle arguments.options).mapM fun (p, said) => p.read said
  return told ++ (← Parameter.readPositional positional arguments.positional)

inductive Command
  | serve (config : Option Path) (given : Settings.Given)
  | definition (question : Question)
  deriving DecidableEq, Repr

namespace Command

def serveOptions : List (Spelling Parameter) := [
  ⟨"--config", .config, .valued⟩, ⟨"--log-level", .logLevel, .valued⟩,
  ⟨"--log-file", .logFile, .valued⟩, ⟨"--tcp", .transport, .switch true⟩,
  ⟨"--stdio", .transport, .switch false⟩, ⟨"--host", .host, .valued⟩, ⟨"--port", .port, .valued⟩]

def definitionOptions : List (Spelling Parameter) := [
  ⟨"--character", .character, .valued⟩, ⟨"--root", .root, .valued⟩,
  ⟨"--direct", .direct, .switch true⟩, ⟨"--no-direct", .direct, .switch false⟩,
  ⟨"--timeout", .timeout, .valued⟩]

def readServe (texts : List Text) : Except UsageFault Command := do
  let told ← readArguments serveOptions [] texts
  return .serve (told.path? .config) {
    logLevel := told.text? .logLevel
    logFile := told.path? .logFile
    transport := (told.truth? .transport).map fun tcp => if tcp then .tcp else .stdio
    host := told.text? .host
    port := told.integer? .port }

def readDefinition (texts : List Text) : Except UsageFault Command := do
  let told ← readArguments definitionOptions [.document, .line] texts
  return .definition {
    query := {
      document := (told.path? .document).getD (Path.ofText [])
      line := (told.integer? .line).getD 0
      character := (told.integer? .character).getD 0 }
    root := told.path? .root
    direct := (told.truth? .direct).getD false
    timeout := ((told.number? .timeout).map Timeout.real).getD Timeout.standard }

def readNamed : List Text → Except UsageFault Command
  | [] => .error .commandMissing
  | name :: rest =>
    if name = "serve".toList then readServe rest
    else if name = "definition".toList then readDefinition rest
    else .error (.unknownCommand name)

/-- Read a command. The program itself has no options. -/
def read : List Text → Except UsageFault Command
  | [] => .error .commandMissing
  | text :: rest =>
    if text = Arguments.endMark then readNamed rest
    else if Arguments.looksLikeOption text then .error (.unknownOption text)
    else readNamed (text :: rest)

end Command

/-- The paths of what a command looks at, seen from the current directory. -/
def Command.paths : Command → List Path
  | .serve config _ => [config.getD (Path.ofText Configuration.standardName)]
  | .definition question => [question.query.document, question.root.getD (Path.ofText [])]

/-- What comes of arguments before anything is started: a report of wrong usage, a failure that is
not foreseen, a server to start, or the end of a question. -/
inductive Result
  | usage (fault : UsageFault)
  | configuration (fault : Configuration.Fault)
  | serve (settings : Settings)
  | answered (ending : Ending Unforeseen)

def findingsText (findings : List Shape.Finding) : Text :=
  List.intercalate ("; " : Text) (findings.map fun f => f.complaint.message)

def Command.run (fs : FileSystem) : Command → Result
  | .serve config given =>
    match Settings.resolve fs config given with
    | .ok settings => .serve settings
    | .error (.configuration fault) => .configuration fault
    | .error (.shape findings) => .usage (.settings (findingsText findings))
    | .error (.level fault) => .usage (.settings fault.message)
  | .definition question => .answered (question.run fs)

def run (fs : FileSystem) (texts : List Text) : Result :=
  match Command.read texts with
  | .error fault => .usage fault
  | .ok command => command.run fs

def Result.errors : Result → Text
  | .usage fault => fault.message ++ "\n"
  | .configuration fault => fault.message ++ "\n"
  | .serve _ => []
  | .answered (.misshapen findings) => findingsText findings ++ "\n"
  | .answered (.unforeseen cause) => cause.message ++ "\n"
  | .answered ending => ending.errors

/-- The exit code of a result; a server that has started ends well. -/
def Result.exitCode : Result → Nat
  | .usage _ => 2
  | .configuration _ => 1
  | .serve _ => 0
  | .answered ending => ending.exitCode

end CommandLine
end StepLocator
