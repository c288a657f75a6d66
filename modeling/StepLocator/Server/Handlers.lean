import StepLocator.Document
import StepLocator.Server.Watching

/-!
The handlers of the server. Each takes the file system as it is at that moment and the controller,
and gives an outcome, the controller afterwards, the requests to the client, and the log. Before a
session exists every request is refused before anything else is looked at.
-/
namespace StepLocator
namespace Server

inductive Call
  | handshake (folders : Value)
  | initialized (watching : Bool)
  | definition (uri : Text) (line : Int)
  | hover (uri : Text) (line : Int)
  | completion (uri : Text) (line : Int)
  | formatting (uri : Text)
  | filesChanged (count : Nat)
  | generations

structure Handled where
  outcome : Except Failure Answer
  controller : Controller
  requests : List Value
  records : List Log.Record

namespace Handled

/-- A call that leaves the controller as it is and asks nothing of the client. -/
def quiet (c : Controller) (outcome : Except Failure Answer) (records : List Log.Record) :
    Handled :=
  ⟨outcome, c, [], records⟩

/-- The same call where every request to the client has its outcome at once. -/
def settled (h : Handled) (outcome : Watching.Outcome) : Handled :=
  { h with records := h.records ++ h.requests.map fun _ => outcome.record }

end Handled

def serverRecord (level : Int) (message : Text) : Log.Record := Log.record level "server" message

def spotText (uri : Text) (line : Int) : Text := uri ++ ":" ++ intText line

def handshake (c : Controller) (fs : FileSystem) (folders : Value) : Handled :=
  let done := c.handshake fs Controller.Obstacles.clear Hook.calm folders
  match done.outcome with
  | .ok _ => ⟨.ok .nothing, done.controller, [], done.records⟩
  | .error (.rejected rejection) =>
    ⟨.error (.refused (.rejected rejection)), done.controller, [],
      done.records ++
        [serverRecord Log.error ("initialize rejected: " ++ rejection.message)]⟩
  | .error .nulInPath => ⟨.error .nulInPath, done.controller, [], done.records⟩

def initialized (c : Controller) (watching : Bool) : Handled :=
  match c.session with
  | none => .quiet c (.ok .nothing) []
  | some _ =>
    if watching then ⟨.ok .nothing, c, [Watching.registration], []⟩
    else
      .quiet c (.ok .nothing) [serverRecord Log.info
        "client cannot register file watchers; agents keep their initial snapshot"]

def withSession (c : Controller) (next : Session → Handled) : Handled :=
  match c.requireSession with
  | .ok session => next session
  | .error cause => .quiet c (.error (.refused (.notReady cause))) []

def withLines (c : Controller) (fs : FileSystem) (uri : Text) (next : List Text → Handled) :
    Handled :=
  match Document.readLines fs uri with
  | .ok lines => next lines
  | .error .nulInPath => .quiet c (.error .nulInPath) []
  | .error (.unreadable document) =>
    .quiet c (.error (.refused (.unreadable document.message document.path)))
      [serverRecord Log.warning document.message]

def definition (c : Controller) (fs : FileSystem) (uri : Text) (line : Int) : Handled :=
  withSession c fun session =>
    withLines c fs uri fun lines =>
      let found := Registry.definitions lines line session.registryRoot.toText
      match found.value with
      | .error fault => .quiet c (.error (.refused (.outOfRange fault))) found.records
      | .ok [] =>
        .quiet c (.ok .nothing)
          (found.records ++ [serverRecord Log.debug ("no definition at " ++ spotText uri line)])
      | .ok (target :: more) =>
        .quiet c (.ok (.locations ((target :: more).map Location.ofTarget)))
          (found.records ++
            [serverRecord Log.debug ("definition at " ++ spotText uri line ++ " -> " ++ target)])

/-- A fixed text; the generations go to the log. -/
def hover (c : Controller) (uri : Text) (line : Int) : Handled :=
  withSession c fun session =>
    .quiet c (.ok .hover) [serverRecord Log.info
      ("hover: " ++ spotText uri line ++ " (config generation " ++
        natText session.configAgent.generation ++ ", registry generation " ++
        natText session.registryAgent.generation ++ ")")]

def completion (c : Controller) (uri : Text) (line : Int) : Handled :=
  withSession c fun _ =>
    .quiet c (.ok .completion) [serverRecord Log.info ("completion: " ++ spotText uri line)]

def formatting (c : Controller) (fs : FileSystem) (uri : Text) : Handled :=
  withSession c fun _ =>
    let rest := withLines c fs uri fun _ => .quiet c (.ok .noEdits) []
    { rest with records := serverRecord Log.info ("format: " ++ uri) :: rest.records }

def changeText (changed : Bool) : Text := if changed then "changed" else "unchanged"

def reloadedRecord (count : Nat) (configChanged registryChanged : Bool) (s : Session) :
    Log.Record :=
  serverRecord Log.info
    ("reloaded agents after " ++ natText count ++ " file events: config " ++
      changeText configChanged ++ " (generation " ++ natText s.configAgent.generation ++
      "), registry " ++ changeText registryChanged ++ " (generation " ++
      natText s.registryAgent.generation ++ ")")

/-- Files have changed: both agents scan again, the one over the configuration first. A failure of
the first keeps the second from its turn. -/
def filesChanged (c : Controller) (fs : FileSystem) (count : Nat) : Handled :=
  match c.session with
  | none =>
    .quiet c (.ok .nothing) [serverRecord Log.debug
      ("ignoring " ++ natText count ++ " file events before initialize")]
  | some session =>
    let config := session.configAgent.reload fs Hook.calm
    let session := { session with configAgent := config.agent }
    match config.outcome with
    | .error fault => .quiet ⟨some session⟩ (.error (.agent fault)) config.records
    | .ok configChanged =>
      let registry := session.registryAgent.reload fs Hook.calm
      let session := { session with registryAgent := registry.agent }
      let records := config.records ++ registry.records
      match registry.outcome with
      | .error fault => .quiet ⟨some session⟩ (.error (.agent fault)) records
      | .ok registryChanged =>
        .quiet ⟨some session⟩ (.ok .nothing)
          (records ++ [reloadedRecord count configChanged registryChanged session])

def generations (c : Controller) : Handled :=
  withSession c fun session =>
    .quiet c (.ok (.generations session.configAgent.generation session.registryAgent.generation)) []

def Call.perform (c : Controller) (fs : FileSystem) : Call → Handled
  | .handshake folders => Server.handshake c fs folders
  | .initialized watching => Server.initialized c watching
  | .definition uri line => Server.definition c fs uri line
  | .hover uri line => Server.hover c uri line
  | .completion uri line => Server.completion c uri line
  | .formatting uri => Server.formatting c fs uri
  | .filesChanged count => Server.filesChanged c fs count
  | .generations => Server.generations c

end Server
end StepLocator
