import StepLocator.Number.Digits
import StepLocator.Text.Quoted

/-!
Why an access to a file fails.
-/
namespace StepLocator
namespace Files

inductive Cause
  | missing
  | denied
  | alreadyExists
  | notDirectory
  | isDirectory
  | withinItself
  | nameTooLong
  | notEmpty
  | linkLoop
  deriving DecidableEq, Repr

namespace Cause

def number : Cause → Nat
  | .missing => 2
  | .denied => 13
  | .alreadyExists => 17
  | .notDirectory => 20
  | .isDirectory => 21
  | .withinItself => 22
  | .nameTooLong => 36
  | .notEmpty => 39
  | .linkLoop => 40

def words : Cause → Text
  | .missing => "No such file or directory"
  | .denied => "Permission denied"
  | .alreadyExists => "File exists"
  | .notDirectory => "Not a directory"
  | .isDirectory => "Is a directory"
  | .withinItself => "Invalid argument"
  | .nameTooLong => "File name too long"
  | .notEmpty => "Directory not empty"
  | .linkLoop => "Too many levels of symbolic links"

def kindName : Cause → Text
  | .missing => "FileNotFoundError"
  | .denied => "PermissionError"
  | .alreadyExists => "FileExistsError"
  | .notDirectory => "NotADirectoryError"
  | .isDirectory => "IsADirectoryError"
  | .withinItself | .nameTooLong | .notEmpty | .linkLoop => "OSError"

end Cause

/-- A failed access: refused for a cause at a path, or not even tried since the path holds the
character that ends a path. -/
inductive Fault
  | refused (cause : Cause) (path : Text)
  | nulInPath
  deriving DecidableEq, Repr

def nulMessage : Text := "embedded null byte"

def Cause.report (cause : Cause) (paths : Text) : Text :=
  "[Errno " ++ natText cause.number ++ "] " ++ cause.words ++ ": " ++ paths

def Fault.message : Fault → Text
  | .refused cause path => cause.report (Text.quoted path)
  | .nulInPath => nulMessage

def Fault.kindName : Fault → Text
  | .refused cause _ => cause.kindName
  | .nulInPath => "ValueError"

structure PairFault where
  fault : Fault
  source : Text
  destination : Text
  deriving DecidableEq, Repr

def PairFault.message (f : PairFault) : Text :=
  match f.fault with
  | .refused cause _ =>
    cause.report (Text.quoted f.source ++ " -> " ++ Text.quoted f.destination)
  | .nulInPath => nulMessage

end Files
end StepLocator
