import StepLocator.Data.Moment
import StepLocator.Number.Shortest
import StepLocator.Text.Quoted

/-!
The values of messages and configuration files. A table keeps its keys in the order in which they
were first entered.
-/
namespace StepLocator

inductive Value
  | null
  | bool (b : Bool)
  | int (i : Int)
  | num (x : Real64)
  | text (t : Text)
  | list (items : List Value)
  | table (entries : List (Text × Value))
  | moment (m : Moment)
  deriving Repr

abbrev Entries := List (Text × Value)

instance : Inhabited Value := ⟨.null⟩

namespace Entries

def find? (key : Text) : Entries → Option Value
  | [] => none
  | (k, v) :: rest => if k = key then some v else find? key rest

/-- Enter a value: under a new key at the end, under a known key in its place. -/
def insert (key : Text) (value : Value) : Entries → Entries
  | [] => [(key, value)]
  | (k, v) :: rest => if k = key then (key, value) :: rest else (k, v) :: insert key value rest

def insertAll (entries : Entries) (more : Entries) : Entries :=
  more.foldl (fun table (key, value) => table.insert key value) entries

theorem find?_insert (key other : Text) (value : Value) (entries : Entries) :
    (insert key value entries).find? other =
      if key = other then some value else entries.find? other := by
  induction entries with
  | nil => simp [insert, find?]
  | cons e rest ih =>
    obtain ⟨k, v⟩ := e
    by_cases hk : k = key
    · by_cases ho : key = other <;> simp [insert, find?, hk, ho]
    · by_cases ho : k = other
      · have hkey : key ≠ other := fun h => hk (ho.trans h.symm)
        rw [insert, if_neg hk, find?, find?, if_pos ho, if_pos ho, if_neg hkey]
      · simp [insert, find?, hk, ho, ih]

theorem find?_append (key : Text) (first second : Entries) :
    Entries.find? key (first ++ second) = (first.find? key).or (second.find? key) := by
  induction first with
  | nil => rfl
  | cons e rest ih =>
    obtain ⟨k, v⟩ := e
    by_cases h : k = key
    · simp [find?, h]
    · simp [find?, h, ih]

/-- Of the values entered under a key the last one counts. -/
theorem find?_insertAll (key : Text) (entries more : Entries) :
    (insertAll entries more).find? key =
      (Entries.find? key more.reverse).or (entries.find? key) := by
  induction more generalizing entries with
  | nil => rfl
  | cons e rest ih =>
    obtain ⟨k, v⟩ := e
    have step : insertAll entries ((k, v) :: rest) = insertAll (insert k v entries) rest := rfl
    rw [step, ih, find?_insert, List.reverse_cons, find?_append]
    cases Entries.find? key rest.reverse with
    | some found => rfl
    | none => by_cases h : k = key <;> simp [find?, h]

end Entries

namespace Value

def get? (key : Text) : Value → Option Value
  | .table entries => Entries.find? key entries
  | _ => none

def isTable : Value → Bool
  | .table _ => true
  | _ => false

def isNull : Value → Bool
  | .null => true
  | _ => false

/-- Whether a value says nothing: null, false, a zero, or an empty text, list or table. -/
def isVoid : Value → Bool
  | .null => true
  | .bool b => !b
  | .int i => i == 0
  | .num x => x.isZero
  | .text t => t.isEmpty
  | .list items => items.isEmpty
  | .table entries => entries.isEmpty
  | .moment _ => false

/-- The number that a value counts as: truth values count as one and zero. -/
def number? : Value → Option (Int ⊕ Real64)
  | .bool b => some (.inl (if b then 1 else 0))
  | .int i => some (.inl i)
  | .num x => some (.inr x)
  | _ => none

def sameNumber : Int ⊕ Real64 → Int ⊕ Real64 → Bool
  | .inl i, .inl j => i == j
  | .inl i, .inr x => x.equalsInt i
  | .inr x, .inl i => x.equalsInt i
  | .inr x, .inr y => x.equals y

mutual

/-- Whether two values are equal: numbers and truth values are compared as numbers, tables without
regard to the order of their keys. -/
def same : Value → Value → Bool
  | .null, .null => true
  | .text s, .text t => s == t
  | .list xs, .list ys => sameItems xs ys
  | .table xs, .table ys => xs.length == ys.length && sameEntries xs ys
  | .moment a, .moment b => a == b
  | a, b =>
    match a.number?, b.number? with
    | some x, some y => sameNumber x y
    | _, _ => false

def sameItems : List Value → List Value → Bool
  | [], [] => true
  | x :: xs, y :: ys => same x y && sameItems xs ys
  | _, _ => false

def sameEntries : List (Text × Value) → List (Text × Value) → Bool
  | [], _ => true
  | (k, v) :: rest, ys =>
    (match Entries.find? k ys with
      | some w => same v w
      | none => false) && sameEntries rest ys

end

def boolText (b : Bool) : Text := if b then "True" else "False"

mutual

/-- A value as messages show it, texts in quotes. -/
def shown : Value → Text
  | .null => "None"
  | .bool b => boolText b
  | .int i => intText i
  | .num x => x.toText
  | .text t => Text.quoted t
  | .list items => '[' :: shownItems items ++ "]"
  | .table entries => '\x7b' :: shownEntries entries ++ "\x7d"
  | .moment m => m.toText

def shownItems : List Value → Text
  | [] => []
  | x :: rest => shown x ++ (if rest.isEmpty then "" else ", " : Text) ++ shownItems rest

def shownEntries : List (Text × Value) → Text
  | [] => []
  | (k, v) :: rest =>
    Text.quoted k ++ ": " ++ shown v ++ (if rest.isEmpty then "" else ", " : Text) ++
      shownEntries rest

end

/-- A value as a message: a text stands for itself, all else is shown. -/
def plainText : Value → Text
  | .text t => t
  | value => shown value

def kindName : Value → Text
  | .null => "NoneType"
  | .bool _ => "bool"
  | .int _ => "int"
  | .num _ => "float"
  | .text _ => "str"
  | .list _ => "list"
  | .table _ => "dict"
  | .moment (.date _) => "date"
  | .moment (.time _) => "time"
  | .moment (.dateTime _ _ _) => "datetime"

end Value
end StepLocator
