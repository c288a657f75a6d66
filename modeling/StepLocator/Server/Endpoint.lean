import StepLocator.Server.Arrival
import StepLocator.Server.Capabilities
import StepLocator.Server.Command
import StepLocator.Server.Handlers

/-!
The server as an endpoint for messages. A request is answered with a result or an error, a notice
with nothing, and a reply of the client settles the request that it belongs to. After `shutdown`
only `exit` counts. With `exit` the server says with which code it leaves; should it be kept running
all the same, it goes on as before.
-/
namespace StepLocator
namespace Server

/-- The state of the server between messages: the controller, the capabilities that the client
announces, its editor once a handshake has come, the mark that the ids of the requests to the client
begin with, the numbers of those that wait for a reply, how many were made, whether the server was
shut down, and the exit code once it was told to leave. -/
structure Endpoint where
  controller : Controller
  client : Value
  editor : Option Editor
  mark : Text
  waiting : List Nat
  made : Nat
  shutDown : Bool
  exitCode : Option Int

namespace Endpoint

def fresh (mark : Text) : Endpoint := ⟨Controller.fresh, .null, none, mark, [], 0, false, none⟩

def requestId (e : Endpoint) (number : Nat) : Text := e.mark ++ natText number

structure Served where
  endpoint : Endpoint
  sent : List Value
  records : List Log.Record

def silent (e : Endpoint) (records : List Log.Record) : Served := ⟨e, [], records⟩

def documentUri (params : Value) : Text := textPart params ["textDocument", "uri"]

def positionLine (params : Value) : Int := intPart params ["position", "line"]

def requestCall? (method : Text) (params : Value) : Option Call :=
  if method = "textDocument/definition".toList then
    some (.definition (documentUri params) (positionLine params))
  else if method = "textDocument/hover".toList then
    some (.hover (documentUri params) (positionLine params))
  else if method = "textDocument/completion".toList then
    some (.completion (documentUri params) (positionLine params))
  else if method = "textDocument/formatting".toList then some (.formatting (documentUri params))
  else none

def noticeCall? (e : Endpoint) (method : Text) (params : Value) : Option Call :=
  if method = "initialized".toList then
    some (.initialized (Watching.announced Watching.messageNames e.client))
  else if method = "workspace/didChangeWatchedFiles".toList then
    some (.filesChanged (itemsPart params ["changes"]).length)
  else none

/-- The result of a call as a reply holds it: a handshake is answered with the capabilities. -/
def resultOf (e : Endpoint) (call : Call) (answer : Answer) : Value :=
  match call with
  | .handshake _ => Capabilities.answer e.client
  | _ => answer.toValue

/-- Carry out a call; requests to the client wait for their replies from then on. -/
def perform (e : Endpoint) (fs : FileSystem) (call : Call) : Served × Except Failure Value :=
  let handled := call.perform e.controller fs
  let numbers := List.range' e.made handled.requests.length
  let after := { e with
    controller := handled.controller
    waiting := e.waiting ++ numbers
    made := e.made + handled.requests.length }
  let sent := (numbers.zip handled.requests).map fun (number, params) =>
    Message.registration (e.requestId number) params
  (⟨after, sent, handled.records⟩, handled.outcome.map (e.resultOf call))

def answer (e : Endpoint) (fs : FileSystem) (id : Value) (method : Text) (call : Call) : Served :=
  let (served, outcome) := e.perform fs call
  { served with sent := served.sent ++ [Message.outcomeReply id method outcome] }

def checkRoot (params : Value) : Except Uri.AddressFault Unit :=
  match part params ["rootUri"], part params ["rootPath"] with
  | .text uri, _ => Uri.check uri
  | _, .text path => Uri.checkDirectory path
  | _, _ => .ok ()

/-- Answer a handshake. What the client announces counts from then on, even if the handshake is
rejected; with a root that leads somewhere, nothing is open in its editor. -/
def meet (e : Endpoint) (fs : FileSystem) (id : Value) (method : Text) (params : Value) : Served :=
  let e := { e with client := part params ["capabilities"] }
  match checkRoot params with
  | .error fault => ⟨e, [Message.outcomeReply id method (.error (.address fault))], []⟩
  | .ok () =>
    { e with editor := some Editor.idle }.answer fs id method
      (.handshake (part params ["workspaceFolders"]))

/-- Shut down: the requests to the client that still wait are given up. -/
def shutdown (e : Endpoint) (id : Value) : Served :=
  ⟨{ e with shutDown := true, waiting := [] }, [Message.resultReply id .null],
    e.waiting.map fun _ => Watching.Outcome.cancelled.record⟩

def execute (e : Endpoint) (fs : FileSystem) (id : Value) (method : Text) (params : Value) :
    Served :=
  match Command.check (textPart params ["command"]) (part params ["arguments"]) with
  | .ok () => e.answer fs id method .generations
  | .error fault => ⟨e, [Message.refusedCommand id fault.message], []⟩

def request (e : Endpoint) (fs : FileSystem) (id : Value) (method : Text) (params : Value) :
    Served :=
  if method = "shutdown".toList then e.shutdown id
  else if method = "initialize".toList then e.meet fs id method params
  else if method = "workspace/executeCommand".toList then e.execute fs id method params
  else
    match requestCall? method params with
    | some call => e.answer fs id method call
    | none => ⟨e, [Message.unknownMethod id method], []⟩

/-- The request to the client with an id has its outcome, if it still waits for one. -/
def settle (e : Endpoint) (id : Value) (outcome : Watching.Outcome) : Served :=
  match e.waiting.find? fun number => Value.same (.text (e.requestId number)) id with
  | none => e.silent []
  | some number => { e with waiting := e.waiting.filter (· ≠ number) }.silent [outcome.record]

def follow (e : Endpoint) (acts : List Editor.Act) : Served :=
  let (editor, outcome) := Editor.followAll e.editor acts
  let e := { e with editor := editor }
  match outcome with
  | .ok () => e.silent []
  | .error fault => ⟨e, [Message.showError fault.report], []⟩

/-- Take note of a notice. A failure is shown to the user of the client. -/
def note (e : Endpoint) (fs : FileSystem) (method : Text) (params : Value) : Served :=
  if method = "$/cancelRequest".toList then e.settle (part params ["id"]) .cancelled
  else
    match e.noticeCall? method params with
    | none => e.follow (Notice.acts method params)
    | some call =>
      let (served, outcome) := e.perform fs call
      match outcome with
      | .ok _ => served
      | .error failure =>
        { served with sent := served.sent ++ [Message.showError failure.report] }

/-- Leave: in order after a shutdown only. -/
def leave (e : Endpoint) : Endpoint := { e with exitCode := some (if e.shutDown then 0 else 1) }

def serve (e : Endpoint) (fs : FileSystem) : Arrival → Served
  | .leave => e.leave.silent []
  | .notice method params => e.note fs method params
  | .request id method params => e.request fs id method params
  | .reply id outcome => e.settle id outcome
  | .other => e.silent []

/-- Whether a message still counts. -/
def heeds (e : Endpoint) : Arrival → Bool
  | .leave => true
  | _ => !e.shutDown

def receive (e : Endpoint) (fs : FileSystem) (message : Entries) : Served :=
  let arrival := Arrival.ofEntries message
  if e.heeds arrival then e.serve fs arrival else e.silent []

end Endpoint
end Server
end StepLocator
