import StepLocator.Client.Frame
import StepLocator.Client.Incoming
import StepLocator.Client.Reply

/-!
A channel to a server: messages go out one by one, and what comes in is read from a stream. While a
reply is awaited the server may send messages of its own; those with an id are acknowledged, and
all of them go to a callback. What happens is kept in a trace.
-/
namespace StepLocator

/-- The other end of a channel. It answers messages by adding octets to the stream; what it learns
from an acknowledgement it keeps to itself. -/
structure Peer (σ : Type) where
  hear : Value → σ → σ × Bytes
  learn : Value → σ → σ

def Peer.silent {σ : Type} : Peer σ := ⟨fun _ s => (s, []), fun _ s => s⟩

/-- What is told of the messages of the server: `none` to go on, or the text of a failure. -/
abbrev Callback := Entries → Option Text

namespace Channel

inductive Event
  | wrote (message : Value)
  | acknowledged (message : Value)
  | received (message : Entries)
  | notified (message : Entries)
  | greeted (result : Entries)

inductive Fault
  | read (fault : Incoming.Fault)
  | brokenPipe
  | callback (text : Text)
  deriving DecidableEq, Repr

def Fault.isReported : Fault → Bool
  | .read fault => fault.isReported
  | .brokenPipe => true
  | .callback _ => false

def Fault.message : Fault → Text
  | .read fault => fault.message
  | .brokenPipe => "LSP stream closed: [Errno 32] Broken pipe"
  | .callback text => text

end Channel

/-- A channel: the state of the peer, the stream, the number of writes that still succeed (if not
all do), and the trace, in order. -/
structure Channel (σ : Type) where
  peer : σ
  incoming : Incoming
  writesLeft : Option Nat
  trace : List Channel.Event

abbrev Exchange (σ : Type) := ExceptT Channel.Fault (StateM (Channel σ))

namespace Channel

def begin {σ : Type} (peer : σ) (incoming : Incoming) (writesLeft : Option Nat) : Channel σ :=
  ⟨peer, incoming, writesLeft, []⟩

def note {σ : Type} (event : Event) : Exchange σ Unit :=
  modify fun ch => { ch with trace := ch.trace ++ [event] }

/-- Count one write, or fail if no more succeed. -/
def spendWrite {σ : Type} : Exchange σ Unit := do
  match (← get).writesLeft with
  | none => return
  | some 0 => throw .brokenPipe
  | some (n + 1) => modify fun ch => { ch with writesLeft := some n }

/-- Write a message; the answers of the peer come to the end of the stream. -/
def write {σ : Type} (peer : Peer σ) (message : Value) : Exchange σ Unit := do
  spendWrite
  note (.wrote message)
  modify fun ch =>
    let (state, answer) := peer.hear message ch.peer
    { ch with
      peer := state
      incoming := { ch.incoming with bytes := ch.incoming.bytes ++ answer } }

def acknowledgement (id : Value) : Value :=
  .table [("jsonrpc", .text "2.0"), ("id", id), ("result", .null)]

def acknowledge {σ : Type} (peer : Peer σ) (id : Value) : Exchange σ Unit := do
  spendWrite
  note (.acknowledged (acknowledgement id))
  modify fun ch => { ch with peer := peer.learn (acknowledgement id) ch.peer }

def receive {σ : Type} : Exchange σ Entries := do
  let ch ← get
  let (outcome, incoming) := ch.incoming.readMessage
  set { ch with incoming }
  match outcome with
  | .error fault => throw (.read fault)
  | .ok message => do
    note (.received message)
    return message

def notify {σ : Type} (callback : Option Callback) (message : Entries) : Exchange σ Unit := do
  match callback with
  | none => return
  | some told => do
    note (.notified message)
    match told message with
    | none => return
    | some text => throw (.callback text)

/-- Read messages up to the reply with the given id. Messages of the server itself, which name a
method, are taken care of on the way; replies with other ids are passed over. The fuel bounds the
number of messages. -/
def awaitReply {σ : Type} (peer : Peer σ) (callback : Option Callback) (id : Value) :
    Nat → Exchange σ Entries
  | 0 => throw (.read .closed)
  | fuel + 1 => do
    let message ← receive
    match Entries.find? "method" message with
    | some _ => do
      match Entries.find? "id" message with
      | some other => acknowledge peer other
      | none => pure ()
      notify callback message
      awaitReply peer callback id fuel
    | none =>
      if Value.same (Reply.member "id" message) id then return message
      else awaitReply peer callback id fuel

def requestMessage (id : Value) (method : Text) (params : Option Value) : Value :=
  .table <| [("jsonrpc".toList, .text "2.0"), ("id", id), ("method", .text method)] ++
    match params with
    | some v => [("params", v)]
    | none => []

/-- A message that asks for no reply. Parameters that say nothing become an empty table. -/
def notificationMessage (method : Text) (params : Value) : Value :=
  .table [("jsonrpc", .text "2.0"), ("method", .text method),
    ("params", if params.isVoid then .table [] else params)]

/-- Send a request and wait for its reply. Every message takes octets of the stream, so their
number bounds the number of messages. -/
def request {σ : Type} (peer : Peer σ) (callback : Option Callback) (id : Value) (method : Text)
    (params : Option Value) : Exchange σ Entries := do
  write peer (requestMessage id method params)
  awaitReply peer callback id ((← get).incoming.bytes.length + 1)

def tell {σ : Type} (peer : Peer σ) (method : Text) (params : Value) : Exchange σ Unit :=
  write peer (notificationMessage method params)

def Event.sent? : Event → Option Text
  | .wrote message => some (Frame.ofMessage message)
  | .acknowledged message => some (Frame.ofMessage message)
  | _ => none

def Event.notification? : Event → Option Entries
  | .notified message => some message
  | _ => none

def sentText (trace : List Event) : Text := (trace.filterMap Event.sent?).flatten

end Channel
end StepLocator
