import StepLocator.Agent.Basic
import StepLocator.Session.Folders
import StepLocator.Session.Layout

/-!
The session of a server. A controller holds none until a handshake succeeds; from then on it holds
the same session, and every further handshake is rejected. A handshake that fails, at whatever
step, leaves the controller as it was.
-/
namespace StepLocator

structure Session where
  layout : Layout
  configAgent : Agent
  registryAgent : Agent
  deriving DecidableEq, Repr

def Session.registryRoot (s : Session) : Path := s.layout.registryRoot

structure Controller where
  session : Option Session
  deriving DecidableEq, Repr

namespace Controller

def fresh : Controller := ⟨none⟩

def ready (c : Controller) : Bool := c.session.isSome

inductive NotReady
  | notReady
  deriving DecidableEq, Repr

def NotReady.message : NotReady → Text
  | .notReady => "server has not been initialized"

def requireSession (c : Controller) : Except NotReady Session :=
  match c.session with
  | some session => .ok session
  | none => .error .notReady

inductive Rejection
  | alreadyReady
  | folders (findings : List Shape.Finding)
  | inaccessible (root : Path) (cause : Files.Cause) (path : Text)
  | agent (kind : AgentKind) (failure : Text)
  deriving DecidableEq, Repr

def Rejection.message : Rejection → Text
  | .alreadyReady => "session already initialized"
  | .folders _ => Folders.shapeMessage
  | .inaccessible root cause path => Folders.inaccessibleMessage root cause path
  | .agent kind failure => "failed to start " ++ kind.name ++ " agent: " ++ failure

/-- How a handshake fails. A root that holds the character number zero is not even tried. -/
inductive Fault
  | rejected (rejection : Rejection)
  | nulInPath
  deriving DecidableEq, Repr

/-- The failures that come in place of starting an agent. -/
structure Obstacles where
  config : Option Text
  registry : Option Text
  deriving DecidableEq, Repr

def Obstacles.clear : Obstacles := ⟨none, none⟩

def Obstacles.of (o : Obstacles) : AgentKind → Option Text
  | .config => o.config
  | .registry => o.registry

structure Attempt where
  kind : AgentKind
  root : Path
  deriving DecidableEq, Repr

structure Attempted where
  outcome : Except Text Agent
  reports : List (AgentKind × Files.Fault)
  records : List Log.Record

/-- Start an agent over its root, unless something is in the way. The registry of a session is not
flat. -/
def Attempt.run (a : Attempt) (fs : FileSystem) (obstacles : Obstacles) (hook : Hook) :
    Attempted :=
  match obstacles.of a.kind with
  | some failure => ⟨.error failure, [], []⟩
  | none =>
    let started := Agent.start a.kind a.root false fs hook
    ⟨started.outcome.mapError Agent.Fault.message,
      started.reports.map fun fault => (a.kind, fault), started.records⟩

/-- What comes of a handshake: the session or a failure, the controller afterwards, the attempts to
start agents, the failures reported to the hook, and the log. -/
structure Handshake where
  outcome : Except Fault Session
  controller : Controller
  attempts : List Attempt
  reports : List (AgentKind × Files.Fault)
  records : List Log.Record

def readyRecord (s : Session) : Log.Record :=
  Log.record Log.info "session"
    ("session ready: root=" ++ s.layout.root.toText ++ " registry=" ++
      s.layout.registryRoot.toText ++ " (config generation " ++
      natText s.configAgent.generation ++ ", registry generation " ++
      natText s.registryAgent.generation ++ ")")

def establish (c : Controller) (fs : FileSystem) (obstacles : Obstacles) (hook : Hook)
    (root : Path) : Handshake :=
  let layout := Layout.ofRoot root
  let first : Attempt := ⟨.config, layout.configRoot⟩
  let config := first.run fs obstacles hook
  match config.outcome with
  | .error failure =>
    ⟨.error (.rejected (.agent .config failure)), c, [first], config.reports, config.records⟩
  | .ok configAgent =>
    let second : Attempt := ⟨.registry, layout.registryRoot⟩
    let registry := second.run fs obstacles hook
    let reports := config.reports ++ registry.reports
    let records := config.records ++ registry.records
    match registry.outcome with
    | .error failure =>
      ⟨.error (.rejected (.agent .registry failure)), c, [first, second], reports, records⟩
    | .ok registryAgent =>
      let session : Session := ⟨layout, configAgent, registryAgent⟩
      ⟨.ok session, ⟨some session⟩, [first, second], reports, records ++ [readyRecord session]⟩

def handshake (c : Controller) (fs : FileSystem) (obstacles : Obstacles) (hook : Hook)
    (folders : Value) : Handshake :=
  if c.ready then ⟨.error (.rejected .alreadyReady), c, [], [], []⟩
  else
    match Folders.root fs folders with
    | .ok root => c.establish fs obstacles hook root
    | .error (.shape findings) => ⟨.error (.rejected (.folders findings)), c, [], [], []⟩
    | .error (.inaccessible root cause path) =>
      ⟨.error (.rejected (.inaccessible root cause path)), c, [], [], []⟩
    | .error .nulInPath => ⟨.error .nulInPath, c, [], [], []⟩

end Controller
end StepLocator
