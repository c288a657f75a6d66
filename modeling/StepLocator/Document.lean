import StepLocator.Files.Access
import StepLocator.Path.Uri
import StepLocator.Text.Lines

/-!
Documents: the lines of the file behind a URI, as the file is on disk at that moment.
-/
namespace StepLocator
namespace Document

inductive Cause
  | access (cause : Files.Cause) (path : Text)
  | encoding (fault : Utf8.Fault)
  deriving DecidableEq, Repr

def Cause.message : Cause → Text
  | .access cause path => (Files.Fault.refused cause path).message
  | .encoding fault => fault.message

/-- A document that cannot be read: its URI, the path that the URI leads to, and the cause. -/
structure Unreadable where
  uri : Text
  path : Text
  cause : Cause
  deriving DecidableEq, Repr

def Unreadable.message (u : Unreadable) : Text :=
  "cannot read document " ++ u.uri ++ ": " ++ u.cause.message

/-- A failed reading. A path that holds the character number zero is not even tried. -/
inductive Fault
  | unreadable (document : Unreadable)
  | nulInPath
  deriving DecidableEq, Repr

/-- The text of a file, with one line feed for each line end. -/
def textOf (content : Bytes) : Except Utf8.Fault Text :=
  (Utf8.decode content).map Text.unifyLineEnds

def linesOf (content : Bytes) : Except Utf8.Fault (List Text) := (textOf content).map Text.lines

def readLines (fs : FileSystem) (uri : Text) : Except Fault (List Text) :=
  let path := (Uri.documentPath uri).toText
  match fs.read path with
  | .error .nulInPath => .error .nulInPath
  | .error (.refused cause path') => .error (.unreadable ⟨uri, path, .access cause path'⟩)
  | .ok content =>
    match linesOf content with
    | .error fault => .error (.unreadable ⟨uri, path, .encoding fault⟩)
    | .ok lines => .ok lines

end Document
end StepLocator
