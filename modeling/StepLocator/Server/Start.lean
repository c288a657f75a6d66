import StepLocator.Log.Router
import StepLocator.Server.Answer
import StepLocator.Settings.Basic

/-!
Starting the server: its log is routed, the start is announced, and then the server listens.
-/
namespace StepLocator
namespace Server

/-- Where a server listens: at its own input, or at a port of a host. -/
inductive Listening
  | stdio
  | tcp (host : Text) (port : Int)
  deriving DecidableEq, Repr

def Listening.ofSettings (s : Settings) : Listening :=
  match s.transport with
  | .stdio => .stdio
  | .tcp => .tcp s.host s.port

def startRecord (s : Settings) : Log.Record :=
  Log.record Log.info "cli"
    ("starting " ++ name ++ " " ++ version ++ " over " ++ s.transport.name)

/-- The log file of a server; an empty text names none. -/
def logFile (s : Settings) : Option Path :=
  match s.logFile with
  | none | some [] => none
  | some text => some (Path.ofText text)

structure Started where
  listening : Listening
  router : Log.Router
  outputs : Log.Outputs

/-- What comes of a start: the server or a failure, and the files. -/
structure Starting where
  outcome : Except Log.Router.Fault Started
  files : FileSystem

def start (r : Log.Router) (fs : FileSystem) (s : Settings) : Starting :=
  let configured := r.configure fs s.logLevel (logFile s)
  match configured.outcome with
  | .error fault => ⟨.error fault, configured.files⟩
  | .ok _ =>
    let outputs := configured.router.emit (startRecord s) ⟨[], [], configured.files⟩
    ⟨.ok ⟨.ofSettings s, configured.router, outputs⟩, outputs.files⟩

end Server
end StepLocator
