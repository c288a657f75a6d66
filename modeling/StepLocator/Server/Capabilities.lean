import StepLocator.Server.Notice

/-!
What the server answers a handshake with. Some of it follows what the client announces: the unit in
which positions are counted, and whether news of a save to come are worth sending.
-/
namespace StepLocator
namespace Server
namespace Capabilities

def encodings : List Text := ["utf-8", "utf-16", "utf-32"]

def standardEncoding : Text := "utf-16"

/-- The unit to count positions in: the first that the client announces and the server knows. -/
def encodingFor (client : Value) : Text :=
  match (itemsPart client ["general", "positionEncodings"]).find? fun v =>
    encodings.any fun encoding => Value.same v (.text encoding) with
  | some (.text encoding) => encoding
  | _ => standardEncoding

/-- A client that can tell of a save to come, in either way, learns that the server does not
care. -/
def saveEntries (client : Value) : Entries :=
  (["willSave", "willSaveWaitUntil"] : List Text).filterMap fun name =>
    match part client ["textDocument", "synchronization", name] with
    | .bool _ => some (name, .bool false)
    | _ => none

def answer (client : Value) : Value :=
  object [
    ("capabilities", object [
      ("positionEncoding", .text (encodingFor client)),
      ("textDocumentSync", .table
        (([("openClose", .bool true), ("change", .int 2), ("save", .bool false)] : Entries) ++
          saveEntries client)),
      ("completionProvider", object [("triggerCharacters", .list [.text "-"])]),
      ("hoverProvider", .bool true),
      ("definitionProvider", .bool true),
      ("documentFormattingProvider", .bool true),
      ("executeCommandProvider", object [("commands", .list [.text "ciOperator.generations"])]),
      ("workspace", object [
        ("workspaceFolders",
          object [("supported", .bool true), ("changeNotifications", .bool true)]),
        ("fileOperations", object [])])]),
    ("serverInfo", object [("name", .text name), ("version", .text version)])]

end Capabilities
end Server
end StepLocator
