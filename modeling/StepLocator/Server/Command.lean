import StepLocator.Server.Answer

/-!
The argument of a command: a table, or what can be made into one, or nothing. A list can if its
items are pairs, each with a key that is no list or table; a text counts as the list of its
characters.
-/
namespace StepLocator
namespace Server
namespace Command

def generationsName : Text := "ciOperator.generations"

inductive Fault
  | unknown (name : Text)
  | argumentCount (count : Nat)
  | notIterable (kind : Text)
  | notPair (index length : Nat)
  | notSequence (index : Nat)
  | badKey (kind : Text)
  deriving DecidableEq, Repr

def Fault.message : Fault → Text
  | .unknown name => "Command name " ++ Text.quoted name ++ " is not defined"
  | .argumentCount count => "Expected 1 arguments, got " ++ natText count
  | .notIterable kind => Text.quoted kind ++ " object is not iterable"
  | .notPair index length =>
    "dictionary update sequence element #" ++ natText index ++ " has length " ++ natText length ++
      "; 2 is required"
  | .notSequence index =>
    "cannot convert dictionary update sequence element #" ++ natText index ++ " to a sequence"
  | .badKey kind => "unhashable type: " ++ Text.quoted kind

/-- What a value holds, in order; of a table its keys. -/
def members? : Value → Option (List Value)
  | .text t => some (t.map fun c => .text [c])
  | .list items => some items
  | .table entries => some (entries.map fun (key, _) => .text key)
  | _ => none

def isKey : Value → Bool
  | .list _ | .table _ => false
  | _ => true

/-- Check that items are pairs with keys. The first item has the given index. -/
def checkPairs : Nat → List Value → Except Fault Unit
  | _, [] => .ok ()
  | index, item :: rest =>
    match members? item with
    | none => .error (.notSequence index)
    | some [key, _] =>
      if isKey key then checkPairs (index + 1) rest else .error (.badKey key.kindName)
    | some members => .error (.notPair index members.length)

def checkArgument : Value → Except Fault Unit
  | .null | .table _ => .ok ()
  | v =>
    match members? v with
    | none => .error (.notIterable v.kindName)
    | some items => checkPairs 0 items

/-- Check a command with its arguments: the only one takes at most one argument, and where a list
of arguments is given, exactly one. -/
def check (name : Text) (arguments : Value) : Except Fault Unit :=
  if name ≠ generationsName then .error (.unknown name)
  else
    match arguments with
    | .list [argument] => checkArgument argument
    | .list items => .error (.argumentCount items.length)
    | _ => .ok ()

end Command
end Server
end StepLocator
