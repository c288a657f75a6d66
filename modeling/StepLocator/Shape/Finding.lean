import StepLocator.Data.Value

/-!
What a value is found to lack when it is read as data of a known shape. A reading goes through all
fields, so it may find several things at once, each at its place.
-/
namespace StepLocator
namespace Shape

inductive Step
  | field (name : Text)
  | item (index : Nat)
  deriving DecidableEq, Repr

inductive Complaint
  | missing
  | notText
  | notList
  | tooShort
  | tooLong (length : Nat)
  | notFolder
  | notShape (name : Text)
  | notTransport
  | notInteger
  | integerText
  | integerSize
  | fraction
  | notFinite
  | below (least : Int)
  | above (greatest : Int)
  deriving DecidableEq, Repr

structure Finding where
  place : List Step
  complaint : Complaint
  deriving DecidableEq, Repr

def Complaint.code : Complaint → Text
  | .missing => "missing"
  | .notText => "string_type"
  | .notList => "list_type"
  | .tooShort => "too_short"
  | .tooLong _ => "too_long"
  | .notFolder => "model_attributes_type"
  | .notShape _ => "model_type"
  | .notTransport => "literal_error"
  | .notInteger => "int_type"
  | .integerText => "int_parsing"
  | .integerSize => "int_parsing_size"
  | .fraction => "int_from_float"
  | .notFinite => "finite_number"
  | .below _ => "greater_than_equal"
  | .above _ => "less_than_equal"

def Complaint.message : Complaint → Text
  | .missing => "Field required"
  | .notText => "Input should be a valid string"
  | .notList => "Input should be a valid list"
  | .tooShort => "List should have at least 1 item after validation, not 0"
  | .tooLong length => "List should have at most 1 item after validation, not " ++ natText length
  | .notFolder => "Input should be a valid dictionary or object to extract fields from"
  | .notShape name => "Input should be a valid dictionary or instance of " ++ name
  | .notTransport => "Input should be \x27stdio\x27 or \x27tcp\x27"
  | .notInteger => "Input should be a valid integer"
  | .integerText => "Input should be a valid integer, unable to parse string as an integer"
  | .integerSize => "Unable to parse input string as an integer, exceeded maximum size"
  | .fraction => "Input should be a valid integer, got a number with a fractional part"
  | .notFinite => "Input should be a finite number"
  | .below least => "Input should be greater than or equal to " ++ intText least
  | .above greatest => "Input should be less than or equal to " ++ intText greatest

/-- A value of a shape, or all that is wrong with what was read. -/
abbrev Checked (α : Type) := Except (List Finding) α

namespace Checked

def refuse {α : Type} (complaint : Complaint) : Checked α := .error [⟨[], complaint⟩]

def under {α : Type} (step : Step) (x : Checked α) : Checked α :=
  x.mapError fun findings => findings.map fun f => { f with place := step :: f.place }

/-- Two readings; the findings of both count. -/
def both {α β : Type} (x : Checked α) (y : Checked β) : Checked (α × β) :=
  match x, y with
  | .ok a, .ok b => .ok (a, b)
  | .error e, .ok _ => .error e
  | .ok _, .error e => .error e
  | .error e, .error e' => .error (e ++ e')

def allFrom {α : Type} (read : Value → Checked α) : Nat → List Value → Checked (List α)
  | _, [] => .ok []
  | index, v :: rest =>
    (both (under (.item index) (read v)) (allFrom read (index + 1) rest)).map fun (a, as) => a :: as

end Checked

def field {α : Type} (name : Text) (read : Value → Checked α) (entries : Entries) : Checked α :=
  Checked.under (.field name) <|
    match entries.find? name with
    | some v => read v
    | none => Checked.refuse .missing

/-- A field that stands for a default where it is not there. -/
def fieldOr {α : Type} (name : Text) (read : Value → Checked α) (default : α)
    (entries : Entries) : Checked α :=
  match entries.find? name with
  | some v => Checked.under (.field name) (read v)
  | none => .ok default

def text : Value → Checked Text
  | .text t => .ok t
  | _ => Checked.refuse .notText

def textOrNull : Value → Checked (Option Text)
  | .null => .ok none
  | v => (text v).map some

def listOf {α : Type} (read : Value → Checked α) : Value → Checked (List α)
  | .list items => Checked.allFrom read 0 items
  | _ => Checked.refuse .notList

end Shape
end StepLocator
