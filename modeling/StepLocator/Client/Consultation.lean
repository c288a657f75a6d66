import StepLocator.Client.Channel
import StepLocator.Client.Process
import StepLocator.Client.Query
import StepLocator.Contract
import StepLocator.Text.Blank

/-!
Asking a server process. The client starts the process, shakes hands, asks its question, tells the
server to shut down and to leave, and waits for its end. Whatever goes wrong, a process that has
not ended is killed.
-/
namespace StepLocator

/-- A process that a client starts: its end of the channel, what can be done with it, its state,
what it has said beforehand, whether its pipes are there, how many writes to it succeed, and how
long it can be waited for. -/
structure Child (σ : Type) where
  peer : Peer σ
  process : Process σ
  state : σ
  output : Incoming
  hasInput : Bool
  hasOutput : Bool
  writes : Option Nat
  patience : Patience

/-- Whom the client tells of what it hears: of the messages of the server, and of the result of the
handshake. -/
structure Listeners where
  notification : Option Callback
  greeting : Option Callback

inductive Timeout
  | whole (seconds : Int)
  | real (seconds : Real64)
  deriving DecidableEq, Repr

namespace Timeout

def toText : Timeout → Text
  | .whole seconds => intText seconds
  | .real seconds => seconds.toText

def isNonPositive : Timeout → Bool
  | .whole seconds => seconds ≤ 0
  | .real seconds => seconds.isNonPositive

def standard : Timeout := .real (Real64.ofInt 10)

end Timeout

namespace Consultation

inductive Fault
  | invalidTimeout (timeout : Timeout)
  | noPath (fault : Files.CanonicalFault)
  | timeoutNotANumber
  | timeoutInfinite
  | timeoutTooLong (excess : Patience.Excess)
  | breach (breach : Breach)
  | channel (fault : Channel.Fault)
  | rejected (text : Text)
  | refused (text : Text)
  | exited (code : Int) (words : Text)
  | result (fault : Reply.Fault)

def Fault.message : Fault → Text
  | .invalidTimeout timeout => "invalid timeout: " ++ timeout.toText
  | .noPath fault => fault.message
  | .timeoutNotANumber => "cannot convert float NaN to integer"
  | .timeoutInfinite => "cannot convert float infinity to integer"
  | .timeoutTooLong excess => excess.message
  | .breach promise => promise.reason
  | .channel fault => fault.message
  | .rejected text => "initialize rejected: " ++ text
  | .refused text => "LSP error: " ++ text
  | .exited code words => "LSP server failed (exit " ++ intText code ++ "): " ++ words
  | .result fault => fault.message

/-- Whether a failure is one of the client, to be reported to its user. -/
def Fault.isReported : Fault → Bool
  | .invalidTimeout _ | .rejected _ | .refused _ | .exited _ _ | .result _ => true
  | .channel fault => fault.isReported
  | .noPath _ | .timeoutNotANumber | .timeoutInfinite | .timeoutTooLong _ | .breach _ => false

abbrev Talk (σ : Type) := ExceptT Fault (StateM (Channel σ))

def lift {σ α : Type} (x : Exchange σ α) : Talk σ α := ExceptT.adapt Fault.channel x

def handshakeParams (workspace : Path) : Value :=
  .table [
    ("processId", .null),
    ("rootUri", .text (Uri.ofPath workspace)),
    ("workspaceFolders", Query.folders workspace),
    ("capabilities", .table [("workspace", .table [("didChangeWatchedFiles",
      .table [("dynamicRegistration", .bool true)])])])]

/-- Tell of the result of the handshake; a result that is no table counts as an empty one. -/
def greet {σ : Type} (greeting : Option Callback) (reply : Entries) : Exchange σ Unit := do
  match greeting with
  | none => return
  | some told => do
    let result : Entries :=
      match Reply.member "result" reply with
      | .table entries => entries
      | _ => []
    Channel.note (.greeted result)
    match told result with
    | none => return
    | some text => throw (.callback text)

/-- Talk to the server up to its leave; gives the reply to the question. -/
def converse {σ : Type} (peer : Peer σ) (listeners : Listeners) (fs : FileSystem)
    (workspace : Path) (query : Query) : Talk σ Entries := do
  let ask (id : Int) (method : Text) (params : Option Value) : Talk σ Entries :=
    lift (Channel.request peer listeners.notification (.int id) method params)
  let welcome ← ask 1 "initialize" (some (handshakeParams workspace))
  if Reply.hasError welcome then throw (.rejected (Reply.errorText welcome))
  lift (greet listeners.greeting welcome)
  lift (Channel.tell peer "initialized" .null)
  match query.params fs with
  | .error fault => throw (.noPath fault)
  | .ok params => do
    let response ← ask 2 "textDocument/definition" (some params)
    let _ ← ask 3 "shutdown" none
    lift (Channel.tell peer "exit" .null)
    return response

/-- Ask for the handshake, when no word of the server can be waited for. -/
def callInVain {σ : Type} (peer : Peer σ) (workspace : Path) (excess : Patience.Excess) :
    Talk σ Entries := do
  lift (Channel.write peer
    (Channel.requestMessage (.int 1) "initialize" (some (handshakeParams workspace))))
  throw (.timeoutTooLong excess)

structure Consulted (σ : Type) where
  outcome : Except Fault (List Value)
  fate : Option Fate
  trace : List Channel.Event
  state : Option σ

def Consulted.ofHeld {σ : Type} (p : Process σ) (held : Held σ)
    (outcome : Except Fault (List Value)) (trace : List Channel.Event) : Consulted σ :=
  ⟨outcome, some (p.fate held), trace, some held.state⟩

/-- The answer in a reply, once the process has ended. -/
def answerOf (response : Entries) (fate : Fate) (words : Bytes) :
    Except Fault (List Value) :=
  if Reply.hasError response then .error (.refused (Reply.errorText response))
  else
    match fate.exitCode with
    | some code =>
      if code = 0 then (Reply.locations (Reply.member "result" response)).mapError .result
      else .error (.exited code (Text.strip (Utf8.decodeLenient words)))
    | none => (Reply.locations (Reply.member "result" response)).mapError .result

def requirePipes {σ : Type} (child : Child σ) : Except Fault Unit :=
  if ¬ child.hasInput then .error (.breach (.marker "server stdin pipe missing" []))
  else if ¬ child.hasOutput then .error (.breach (.marker "server stdout pipe missing" []))
  else .ok ()

/-- A span of fewer nanoseconds is over before a process says its first word. -/
def shortestSpan : Int := 20000

def channelTo {σ : Type} (child : Child σ) (span : Int) : Channel σ :=
  Channel.begin child.state { child.output with expired := span < shortestSpan } child.writes

def talk {σ : Type} (child : Child σ) (listeners : Listeners) (fs : FileSystem)
    (workspace : Path) (query : Query) (span : Int) : Talk σ Entries :=
  match child.patience.wordExcess? span with
  | some excess => callInVain child.peer workspace excess
  | none => converse child.peer listeners fs workspace query

/-- Talk to a process that has been started, and see to its end, within a span of nanoseconds. How
long to wait for the end is found out last. -/
def attend {σ : Type} (child : Child σ) (listeners : Listeners) (fs : FileSystem)
    (workspace : Path) (query : Query) (span : Int) : Consulted σ :=
  match requirePipes child with
  | .error fault => .ofHeld child.process (child.process.reap ⟨child.state, []⟩) (.error fault) []
  | .ok () =>
    let (outcome, channel) :=
      ((talk child listeners fs workspace query span).run (channelTo child span)).run
    let held : Held σ := ⟨channel.peer, []⟩
    match outcome with
    | .error fault =>
      .ofHeld child.process (child.process.reap held) (.error fault) channel.trace
    | .ok response =>
      match child.patience.endExcess? span with
      | some excess =>
        .ofHeld child.process (child.process.reap held) (.error (.timeoutTooLong excess))
          channel.trace
      | none =>
        let (words, held) := child.process.await held
        let held := child.process.reap held
        .ofHeld child.process held (answerOf response (child.process.fate held) words)
          channel.trace

def nanoseconds : Timeout → Except Fault Int
  | .whole seconds => .ok (seconds * 1000000000)
  | .real seconds =>
    match seconds.timesNat 1000000000 with
    | .nan => .error .timeoutNotANumber
    | .infinite _ => .error .timeoutInfinite
    | x => .ok (x.truncate?.getD 0)

/-- Ask a server process. Without a positive timeout nothing is started. -/
def consult {σ : Type} (child : Child σ) (listeners : Listeners) (fs : FileSystem)
    (root : Option Path) (timeout : Timeout) (query : Query) : Consulted σ :=
  let fail (fault : Fault) : Consulted σ := ⟨.error fault, none, [], none⟩
  if timeout.isNonPositive then fail (.invalidTimeout timeout)
  else
    match Query.workspace fs root with
    | .error fault => fail (.noPath fault)
    | .ok workspace =>
      match nanoseconds timeout with
      | .error fault => fail fault
      | .ok span => attend child listeners fs workspace query span

end Consultation
end StepLocator
