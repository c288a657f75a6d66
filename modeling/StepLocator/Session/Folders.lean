import StepLocator.Files.Access
import StepLocator.Path.Uri
import StepLocator.Shape.Finding

/-!
The workspace folders that a client offers. Exactly one is accepted: a table with the URI of the
folder and perhaps its name, and there must be something at the path of the URI.
-/
namespace StepLocator
namespace Folders

structure Folder where
  uri : Text
  name : Option Text
  deriving DecidableEq, Repr

def folder : Value → Shape.Checked Folder
  | .table entries =>
    (Shape.Checked.both (Shape.field "uri" Shape.text entries)
      (Shape.fieldOr "name" Shape.textOrNull none entries)).map fun (uri, name) => ⟨uri, name⟩
  | _ => Shape.Checked.refuse .notFolder

/-- Read the one folder of a list. The length is judged before the folders are. -/
def single : Value → Shape.Checked Folder
  | .list [] => Shape.Checked.refuse .tooShort
  | .list [v] => Shape.Checked.under (.item 0) (folder v)
  | .list items => Shape.Checked.refuse (.tooLong items.length)
  | _ => Shape.Checked.refuse .notList

def read (folders : Value) : Shape.Checked Folder :=
  Shape.Checked.under (.field "workspace_folders") (single folders)

inductive Fault
  | shape (findings : List Shape.Finding)
  | inaccessible (root : Path) (cause : Files.Cause) (path : Text)
  | nulInPath
  deriving DecidableEq, Repr

def shapeMessage : Text := "expected exactly one workspace folder with a string uri"

def inaccessibleMessage (root : Path) (cause : Files.Cause) (path : Text) : Text :=
  "workspace root " ++ root.toText ++ " is not accessible: " ++
    (Files.Fault.refused cause path).message

def root (fs : FileSystem) (folders : Value) : Except Fault Path :=
  match read folders with
  | .error findings => .error (.shape findings)
  | .ok folder =>
    let root := Uri.folderPath folder.uri
    match fs.entry root.toText with
    | .ok _ => .ok root
    | .error (.refused cause path) => .error (.inaccessible root cause path)
    | .error .nulInPath => .error .nulInPath

end Folders
end StepLocator
