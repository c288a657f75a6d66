import StepLocator.Contract
import StepLocator.Path.Authority
import StepLocator.Session.Controller

/-!
What the server answers: results, and failures with their codes.
-/
namespace StepLocator
namespace Server

def name : Text := "ci-operator-lsp"

def version : Text := "0.1.0"

def object (entries : List (Text × Value)) : Value := .table entries

/-- A place in a file: its URI. Every place is the start of its file. -/
structure Location where
  uri : Text
  deriving DecidableEq, Repr

namespace Location

def ofTarget (target : Text) : Location := ⟨Uri.ofTarget target⟩

def origin : Value := object [("line", .int 0), ("character", .int 0)]

def toValue (l : Location) : Value :=
  object [("uri", .text l.uri), ("range", object [("start", origin), ("end", origin)])]

end Location

inductive Answer
  | nothing
  | locations (places : List Location)
  | hover
  | completion
  | noEdits
  | generations (config registry : Nat)
  deriving DecidableEq, Repr

def hoverText : Text := "hello world"

def completionLabel : Text := "code"

def completionText : Text := "Hello"

def Answer.toValue : Answer → Value
  | .nothing => .null
  | .locations places => .list (places.map Location.toValue)
  | .hover =>
    object [("contents", object [("kind", .text "plaintext"), ("value", .text hoverText)])]
  | .completion =>
    .list [object [("label", .text completionLabel), ("kind", .int 1),
      ("insertText", .text completionText)]]
  | .noEdits => .list []
  | .generations config registry =>
    object [("config", .int config), ("registry", .int registry)]

inductive Refusal
  | notReady (cause : Controller.NotReady)
  | rejected (rejection : Controller.Rejection)
  | unreadable (message path : Text)
  | outOfRange (fault : OutOfRange)
  deriving DecidableEq, Repr

namespace Refusal

def notInitialized : Int := -32002

def invalidParams : Int := -32602

def requestFailed : Int := -32803

def code : Refusal → Int
  | .notReady _ => notInitialized
  | .rejected _ => invalidParams
  | .unreadable _ _ => requestFailed
  | .outOfRange _ => invalidParams

def message : Refusal → Text
  | .notReady cause => cause.message
  | .rejected rejection => rejection.message
  | .unreadable message _ => message
  | .outOfRange fault => fault.breach.reason

def data : Refusal → Value
  | .notReady _ => .null
  | .rejected _ => object [("retry", .bool false)]
  | .unreadable _ path => object [("path", .text path)]
  | .outOfRange fault => .table fault.breach.env

end Refusal

/-- How a call fails: with a refusal that becomes a reply, or in a way that the server does not
foresee. -/
inductive Failure
  | refused (refusal : Refusal)
  | nulInPath
  | address (fault : Uri.AddressFault)
  | agent (fault : Agent.Fault)
  deriving DecidableEq, Repr

def Failure.message : Failure → Text
  | .refused refusal => refusal.message
  | .nulInPath => Files.nulMessage
  | .address fault => fault.message
  | .agent fault => fault.message

def Failure.report : Failure → Text
  | .refused refusal => refusal.message
  | .nulInPath => Files.Fault.nulInPath.kindName ++ ": " ++ Files.nulMessage
  | .address fault => "ValueError: " ++ fault.message
  | .agent fault => fault.kindName ++ ": " ++ fault.message

end Server
end StepLocator
