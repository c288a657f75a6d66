import StepLocator.Agent.Scan
import StepLocator.Log.Record
import StepLocator.Nesting

/-!
Agents. An agent holds a snapshot of the files below its root and a generation, which grows by one
whenever a scan finds another snapshot. Failures that a scan meets go to a hook; a hook may itself
fail, and then the agent stays as it was.
-/
namespace StepLocator

/-- What is told of the failures that a scan meets: `none` to go on, or the text of a failure of
its own. -/
abbrev Hook := Files.Fault → Option Text

def Hook.calm : Hook := fun _ => none

/-- An agent over a directory tree. -/
structure Agent where
  kind : AgentKind
  root : Path
  recursive : Bool
  snapshot : Snapshot
  generation : Nat
  deriving DecidableEq, Repr

namespace Agent

inductive Fault
  | root (fault : Files.Fault)
  | hook (text : Text)
  | tooDeep
  deriving DecidableEq, Repr

def Fault.message : Fault → Text
  | .root fault => fault.message
  | .hook text => text
  | .tooDeep => Nesting.message

def Fault.kindName : Fault → Text
  | .root fault => fault.kindName
  | .hook _ => "RuntimeError"
  | .tooDeep => "RecursionError"

/-- What comes of a scan: a snapshot or a failure, and the failures reported to the hook. -/
structure Scanned where
  outcome : Except Fault Snapshot
  reports : List Files.Fault

/-- Report the failed accesses among the events to the hook, up to one for which the hook fails, or
up to a directory that lies too deep. -/
def report (hook : Hook) : List Scan.Event → List Files.Fault × Option Fault
  | [] => ([], none)
  | .file _ _ :: rest => report hook rest
  | .tooDeep _ :: _ => ([], some .tooDeep)
  | .unread _ fault :: rest | .unlisted fault :: rest =>
    match hook fault with
    | some text => ([fault], some (.hook text))
    | none =>
      let (reports, failure) := report hook rest
      (fault :: reports, failure)

def scan (a : Agent) (fs : FileSystem) (hook : Hook) : Scanned :=
  match Scan.events fs a.kind a.recursive a.root with
  | .error fault => ⟨.error (.root fault), []⟩
  | .ok events =>
    match report hook events with
    | (reports, some fault) => ⟨.error fault, reports⟩
    | (reports, none) => ⟨.ok (Scan.snapshotOf events), reports⟩

def faultRecord (a : Agent) (fault : Files.Fault) : Log.Record :=
  Log.record Log.warning "agents"
    (a.kind.name ++ " agent failed to read " ++ a.root.toText ++ ": " ++ fault.message)

def loadedRecord (a : Agent) : Log.Record :=
  Log.record Log.debug "agents"
    (a.kind.name ++ " agent loaded " ++ natText a.snapshot.length ++ " files from " ++
      a.root.toText ++ " (generation " ++ natText a.generation ++ ")")

/-- What comes of a reload: whether the snapshot has changed, or a failure; the agent afterwards;
the failures reported to the hook; and the log. -/
structure Reloaded where
  outcome : Except Fault Bool
  agent : Agent
  reports : List Files.Fault
  records : List Log.Record

/-- Scan again; another snapshot than before begins a new generation. -/
def reload (a : Agent) (fs : FileSystem) (hook : Hook) : Reloaded :=
  let scanned := a.scan fs hook
  let records := scanned.reports.map a.faultRecord
  match scanned.outcome with
  | .error fault => ⟨.error fault, a, scanned.reports, records⟩
  | .ok snapshot =>
    if snapshot = a.snapshot then ⟨.ok false, a, scanned.reports, records⟩
    else
      let next := { a with snapshot, generation := a.generation + 1 }
      ⟨.ok true, next, scanned.reports, records ++ [next.loadedRecord]⟩

def fresh (kind : AgentKind) (root : Path) (recursive : Bool) : Agent :=
  ⟨kind, root, recursive, [], 0⟩

structure Started where
  outcome : Except Fault Agent
  reports : List Files.Fault
  records : List Log.Record

/-- Start an agent. A flat registry keeps all its files in the root; of the configuration the whole
tree counts. -/
def start (kind : AgentKind) (root : Path) (flat : Bool) (fs : FileSystem) (hook : Hook) :
    Started :=
  let first := (fresh kind root (kind == .config || !flat)).reload fs hook
  ⟨first.outcome.map fun _ => first.agent, first.reports, first.records⟩

def files (a : Agent) : List Path := a.snapshot.files

end Agent
end StepLocator
