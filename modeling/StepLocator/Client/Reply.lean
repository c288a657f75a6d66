import StepLocator.Data.Value

/-!
What a reply says: the text of its error, or the places in its result.
-/
namespace StepLocator
namespace Reply

/-- The value under a key, null where there is none. -/
def member (key : Text) (reply : Entries) : Value := (Entries.find? key reply).getD .null

def hasError (reply : Entries) : Bool := !(member "error" reply).isVoid

/-- The text of the error of a reply: its message if it has one. -/
def errorText (reply : Entries) : Text :=
  match member "error" reply with
  | .table error => ((Entries.find? "message" error).getD (.table error)).plainText
  | error => error.plainText

inductive Fault
  | unexpected (kind : Text)
  deriving DecidableEq, Repr

def Fault.message : Fault → Text
  | .unexpected kind => "Unexpected definition result payload: " ++ kind

/-- The places in a result: none for null, one for a table, all of a list of tables. -/
def locations : Value → Except Fault (List Value)
  | .null => .ok []
  | .table entries => .ok [.table entries]
  | .list items => if items.all Value.isTable then .ok items else .error (.unexpected "list")
  | v => .error (.unexpected v.kindName)

end Reply
end StepLocator
