import StepLocator.Server.Answer

/-!
What the client has open in its editor. The server answers from the disk, so of an open document
only its key counts, the URI without escapes: a document that is edited must have been opened
before, under whatever spelling of the same key.
-/
namespace StepLocator
namespace Server

/-- The keys of the documents and of the notebooks that the client has open. -/
structure Editor where
  documents : List Text
  notebooks : List Text
  deriving DecidableEq, Repr

namespace Editor

def idle : Editor := ⟨[], []⟩

/-- The key of a document or a notebook: its URI without escapes. -/
def key (uri : Text) : Text := Percent.decode uri

inductive Act
  | openDocument (uri : Text)
  | editDocument (uri : Text)
  | closeDocument (uri : Text)
  | openNotebook (uri : Text)
  | editNotebook (uri : Text)
  | closeNotebook (uri : Text)
  | changeFolders
  deriving DecidableEq, Repr

/-- Why an act cannot be followed: no handshake has come before, nothing is open under the key, or
the URI leads nowhere. -/
inductive Fault
  | noWorkspace
  | notOpen (key : Text)
  | address (fault : Uri.AddressFault)
  deriving DecidableEq, Repr

def Fault.report : Fault → Text
  | .noWorkspace =>
    "RuntimeError: The workspace is not available - has the server been initialized?"
  | .notOpen key => "KeyError: " ++ Text.quoted key
  | .address fault => (Failure.address fault).report

/-- The editor after an act. The URI of a document that is opened is checked as it is written. -/
def follow (e : Editor) : Act → Except Fault Editor
  | .openDocument uri =>
    match Uri.check uri with
    | .ok () => .ok { e with documents := key uri :: e.documents }
    | .error fault => .error (.address fault)
  | .editDocument uri =>
    if e.documents.contains (key uri) then .ok e else .error (.notOpen (key uri))
  | .closeDocument uri => .ok { e with documents := e.documents.filter (· ≠ key uri) }
  | .openNotebook uri => .ok { e with notebooks := key uri :: e.notebooks }
  | .editNotebook uri =>
    if e.notebooks.contains (key uri) then .ok e else .error (.notOpen (key uri))
  | .closeNotebook uri => .ok { e with notebooks := e.notebooks.filter (· ≠ key uri) }
  | .changeFolders => .ok e

/-- The editor after several acts, up to one that cannot be followed. Without a handshake there is
no editor, and no act can be followed. -/
def followAll : Option Editor → List Act → Option Editor × Except Fault Unit
  | e, [] => (e, .ok ())
  | none, _ :: _ => (none, .error .noWorkspace)
  | some e, act :: rest =>
    match e.follow act with
    | .ok next => followAll (some next) rest
    | .error fault => (some e, .error fault)

end Editor
end Server
end StepLocator
