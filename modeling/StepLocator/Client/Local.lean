import StepLocator.Client.Consultation
import StepLocator.Server.Endpoint

/-!
Asking without a process of its own: the handlers of a server in the same program are called
directly, or its endpoint takes the place of the process at the other end of a channel.
-/
namespace StepLocator
namespace Local

def greatestNumber : Int := 2147483647

inductive Fault
  | noPath (fault : Files.CanonicalFault)
  | handshake (fault : Controller.Fault)
  | position (field : Text) (number : Int)
  | refused (refusal : Server.Refusal)
  | unforeseen (failure : Server.Failure)

def positionMessage (field : Text) (number : Int) : Text :=
  "Position." ++ field ++ " should be in range [0:" ++ intText greatestNumber ++ "], but was " ++
    intText number ++ "."

def handshakeMessage : Controller.Fault → Text
  | .rejected rejection => rejection.message
  | .nulInPath => Files.nulMessage

def Fault.message : Fault → Text
  | .noPath fault => fault.message
  | .handshake fault => handshakeMessage fault
  | .position field number => positionMessage field number
  | .refused refusal => "LSP error: " ++ refusal.message
  | .unforeseen failure => failure.message

/-- Whether a failure is one of the client or of the handshake, to be reported to the user. -/
def Fault.isReported : Fault → Bool
  | .handshake (.rejected _) | .refused _ => true
  | .handshake .nulInPath | .noPath _ | .position _ _ | .unforeseen _ => false

structure Asked where
  outcome : Except Fault (List Value)
  controller : Controller
  records : List Log.Record

def inRange (number : Int) : Bool := 0 ≤ number && number ≤ greatestNumber

/-- The first number of a position that is out of range, with its name. -/
def badNumber? (q : Query) : Option (Text × Int) :=
  if ¬ inRange q.line then some ("line", q.line)
  else if ¬ inRange q.character then some ("character", q.character)
  else none

def places : Server.Answer → List Value
  | .locations places => places.map Server.Location.toValue
  | _ => []

/-- Ask the handlers, after a handshake for the workspace. -/
def ask (c : Controller) (fs : FileSystem) (root : Option Path) (query : Query) : Asked :=
  match Query.workspace fs root with
  | .error fault => ⟨.error (.noPath fault), c, []⟩
  | .ok workspace =>
    let welcome :=
      c.handshake fs Controller.Obstacles.clear Hook.calm (Query.folders workspace)
    let fail (fault : Fault) : Asked := ⟨.error fault, welcome.controller, welcome.records⟩
    match welcome.outcome with
    | .error fault => fail (.handshake fault)
    | .ok _ =>
      match query.documentUri fs with
      | .error fault => fail (.noPath fault)
      | .ok uri =>
        match badNumber? query with
        | some (field, number) => fail (.position field number)
        | none =>
          let found := Server.definition welcome.controller fs uri query.line
          let records := welcome.records ++ found.records
          match found.outcome with
          | .ok answer => ⟨.ok (places answer), found.controller, records⟩
          | .error (.refused refusal) => ⟨.error (.refused refusal), found.controller, records⟩
          | .error failure => ⟨.error (.unforeseen failure), found.controller, records⟩

structure State where
  endpoint : Server.Endpoint
  records : List Log.Record

namespace State

def receive (s : State) (fs : FileSystem) (message : Value) : State × List Value :=
  match message with
  | .table entries =>
    let served := s.endpoint.receive fs entries
    (⟨served.endpoint, s.records ++ served.records⟩, served.sent)
  | _ => (s, [])

end State

/-- The server as a peer: what it sends goes out in frames. -/
def peer (fs : FileSystem) : Peer State where
  hear message s :=
    let (s, sent) := s.receive fs message
    (s, sent.flatMap Frame.encode)
  learn message s := (s.receive fs message).1

def requestMark : Text := "server-request-"

/-- A server has ended once it was told to leave, and waits for that as long as it is not killed. -/
def life : Process State where
  poll s := s.endpoint.exitCode
  kill s := { s with endpoint := { s.endpoint with exitCode := some Process.killedCode } }
  communicate s := if s.endpoint.exitCode.isSome then (some [], s) else (none, s)
  ends _ := rfl

def child (fs : FileSystem) : Child State where
  peer := peer fs
  process := life
  state := ⟨Server.Endpoint.fresh requestMark, []⟩
  output := ⟨[], [], some Incoming.wordLimit, false, false⟩
  hasInput := true
  hasOutput := true
  writes := none
  patience := .ofSystem

end Local
end StepLocator
