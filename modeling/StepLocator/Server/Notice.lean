import StepLocator.Server.Editor

/-!
Messages that are never answered. The protocol names them; the server follows what they say about
the editor, and a client that gives up a request says so in one of them.
-/
namespace StepLocator
namespace Server

/-- The part of a value that a list of names leads to, null where there is none. -/
def part (v : Value) : List Text → Value
  | [] => v
  | name :: rest => part ((v.get? name).getD .null) rest

def textPart (v : Value) (names : List Text) : Text :=
  match part v names with
  | .text t => t
  | _ => []

def intPart (v : Value) (names : List Text) : Int :=
  match part v names with
  | .int i => i
  | _ => 0

def itemsPart (v : Value) (names : List Text) : List Value :=
  match part v names with
  | .list items => items
  | _ => []

namespace Notice

/-- The names of the messages that are never answered, whether they have an id or not. -/
def methods : List Text := [
  "exit", "initialized", "$/cancelRequest", "$/logTrace", "$/progress", "$/setTrace",
  "notebookDocument/didChange", "notebookDocument/didClose", "notebookDocument/didOpen",
  "notebookDocument/didSave", "telemetry/event", "textDocument/didChange",
  "textDocument/didClose", "textDocument/didOpen", "textDocument/didSave",
  "textDocument/publishDiagnostics", "textDocument/willSave", "window/logMessage",
  "window/showMessage", "window/workDoneProgress/cancel", "workspace/didChangeConfiguration",
  "workspace/didChangeWatchedFiles", "workspace/didChangeWorkspaceFolders",
  "workspace/didCreateFiles", "workspace/didDeleteFiles", "workspace/didRenameFiles"]

def openAll (items : List Value) : List Editor.Act :=
  items.map fun item => .openDocument (textPart item ["uri"])

def closeAll (items : List Value) : List Editor.Act :=
  items.map fun item => .closeDocument (textPart item ["uri"])

/-- Edits of the document that an item names, one for each of its changes. -/
def editAll (item : Value) (document changes : Text) : List Editor.Act :=
  (itemsPart item [changes]).map fun _ => .editDocument (textPart item [document, "uri"])

/-- The acts behind an edited notebook: cells come and go before the text of others changes. -/
def notebookActs (params : Value) : List Editor.Act :=
  let cells := part params ["change", "cells"]
  .editNotebook (textPart params ["notebookDocument", "uri"]) ::
    openAll (itemsPart cells ["structure", "didOpen"]) ++
    closeAll (itemsPart cells ["structure", "didClose"]) ++
    (itemsPart cells ["textContent"]).flatMap fun item => editAll item "document" "changes"

def acts (method : Text) (params : Value) : List Editor.Act :=
  if method = "textDocument/didOpen".toList then
    [.openDocument (textPart params ["textDocument", "uri"])]
  else if method = "textDocument/didChange".toList then
    editAll params "textDocument" "contentChanges"
  else if method = "textDocument/didClose".toList then
    [.closeDocument (textPart params ["textDocument", "uri"])]
  else if method = "workspace/didChangeWorkspaceFolders".toList then
    (itemsPart params ["event", "added"] ++ itemsPart params ["event", "removed"]).map fun _ =>
      .changeFolders
  else if method = "notebookDocument/didOpen".toList then
    .openNotebook (textPart params ["notebookDocument", "uri"]) ::
      openAll (itemsPart params ["cellTextDocuments"])
  else if method = "notebookDocument/didChange".toList then notebookActs params
  else if method = "notebookDocument/didClose".toList then
    .closeNotebook (textPart params ["notebookDocument", "uri"]) ::
      closeAll (itemsPart params ["cellTextDocuments"])
  else []

end Notice
end Server
end StepLocator
