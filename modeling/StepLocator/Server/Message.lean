import StepLocator.Server.Answer

/-!
The messages that the server sends: replies, requests to the client, and news of its failures. Each
is a table with the version of the protocol.
-/
namespace StepLocator
namespace Server
namespace Message

def ofEntries (entries : List (Text × Value)) : Value :=
  object (("jsonrpc", .text "2.0") :: entries)

def resultReply (id result : Value) : Value := ofEntries [("id", id), ("result", result)]

def dataEntries : Value → Entries
  | .null => []
  | data => [("data", data)]

def errorReply (id : Value) (code : Int) (message : Text) (data : Value) : Value :=
  let error : Entries := [("code", .int code), ("message", .text message)]
  ofEntries [("id", id), ("error", .table (error ++ dataEntries data))]

def registration (id : Text) (params : Value) : Value :=
  ofEntries [("id", .text id), ("method", .text "client/registerCapability"), ("params", params)]

def showError (report : Text) : Value :=
  ofEntries [("method", .text "window/showMessage"),
    ("params", object [("type", .int 1), ("message", .text ("Error in server: " ++ report))])]

def internalError : Int := -32603

def methodNotFound : Int := -32601

def unknownMethod (id : Value) (method : Text) : Value :=
  errorReply id methodNotFound ("Method Not Found: " ++ method) .null

def refusedCommand (id : Value) (reason : Text) : Value :=
  errorReply id Refusal.invalidParams ("Invalid Params: " ++ reason) .null

/-- The reply to a request. A failure that is not foreseen names the method that it arose in. -/
def outcomeReply (id : Value) (method : Text) (outcome : Except Failure Value) : Value :=
  match outcome with
  | .ok result => resultReply id result
  | .error (.refused refusal) => errorReply id refusal.code refusal.message refusal.data
  | .error failure =>
    errorReply id internalError failure.report (object [("traceback", .list [.text method])])

end Message
end Server
end StepLocator
