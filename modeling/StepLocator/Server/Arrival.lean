import StepLocator.Client.Reply
import StepLocator.Server.Message
import StepLocator.Server.Notice
import StepLocator.Server.Watching

/-!
The messages that the server receives. A reply has an id and says what became of a request of the
server; a notice is never answered, whether it has an id or not; all else with an id is a request.
-/
namespace StepLocator
namespace Server

inductive Arrival
  | leave
  | notice (method : Text) (params : Value)
  | request (id : Value) (method : Text) (params : Value)
  | reply (id : Value) (outcome : Watching.Outcome)
  | other

namespace Arrival

def codeWords (code : Int) : Text :=
  if code = -32700 then "Parse Error"
  else if code = -32600 then "Invalid Request"
  else if code = Message.methodNotFound then "Method Not Found"
  else if code = Refusal.invalidParams then "Invalid Params"
  else if code = Message.internalError then "Internal Error"
  else if code = -32800 then "Request Cancelled"
  else []

/-- The reason that an error of the client gives: its message, or the words for its code where that
is empty. An error without a message or without a code that is a number is none. -/
def reason? (error : Value) : Option Text := do
  let message ← error.get? "message"
  let .int code ← error.get? "code" | none
  return if message.plainText = [] then codeWords code else message.plainText

/-- What a reply of the client says of the request that it belongs to, if it says anything. -/
def outcome? (reply : Entries) : Option Watching.Outcome :=
  match Reply.member "error" reply with
  | .null => some .accepted
  | error => (reason? error).map .rejected

def ofMethod (method : Text) (id : Option Value) (params : Value) : Arrival :=
  if method = "exit".toList then .leave
  else if Notice.methods.contains method then .notice method params
  else
    match id with
    | some id => .request id method params
    | none => .other

def ofReply (id : Value) (message : Entries) : Arrival :=
  match outcome? message with
  | some outcome => .reply id outcome
  | none => .other

/-- A message by its entries. With an id and an error it is a reply, even if it has a method. -/
def ofEntries (message : Entries) : Arrival :=
  match Entries.find? "id" message, Entries.find? "method" message with
  | some id, some (.text method) =>
    if (Entries.find? "error" message).isSome then ofReply id message
    else ofMethod method (some id) (Reply.member "params" message)
  | some id, _ => ofReply id message
  | none, some (.text method) => ofMethod method none (Reply.member "params" message)
  | none, _ => .other

end Arrival
end Server
end StepLocator
