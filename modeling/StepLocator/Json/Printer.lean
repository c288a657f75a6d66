import StepLocator.Data.Value

/-!
Values as JSON text. Every character outside ASCII is escaped, as the two halves of a surrogate
pair where it needs more than sixteen bits. One form stands on a single line, the other one puts
each item on a line of its own.
-/
namespace StepLocator
namespace Json

def escapeUnit (n : Nat) : Text := '\\' :: 'u' :: Text.hexPadded 4 n

def escapeChar (c : Char) : Text :=
  if c = '\x22' then ['\\', '\x22']
  else if c = '\\' then ['\\', '\\']
  else if c = '\n' then ['\\', 'n']
  else if c = '\r' then ['\\', 'r']
  else if c = '\t' then ['\\', 't']
  else if c = '\x08' then ['\\', 'b']
  else if c = '\x0c' then ['\\', 'f']
  else if 0x20 ≤ c.toNat ∧ c.toNat < 0x7F then [c]
  else if c.toNat < 0x10000 then escapeUnit c.toNat
  else
    let n := c.toNat - 0x10000
    escapeUnit (0xD800 + n / 0x400) ++ escapeUnit (0xDC00 + n % 0x400)

def quote (text : Text) : Text := '\x22' :: text.flatMap escapeChar ++ "\x22"

/-- A floating-point number; those that are not finite go by their names. -/
def numberText : Real64 → Text
  | .nan => "NaN"
  | .infinite false => "Infinity"
  | .infinite true => "-Infinity"
  | x => x.toText

def atomText : Value → Text
  | .bool true => "true"
  | .bool false => "false"
  | .int i => intText i
  | .num x => numberText x
  | .text t => quote t
  | .moment m => quote m.toText
  | _ => "null"

mutual

def print : Value → Text
  | .list items => '[' :: printItems items ++ "]"
  | .table entries => '\x7b' :: printEntries entries ++ "\x7d"
  | atom => atomText atom

def printItems : List Value → Text
  | [] => []
  | x :: rest => print x ++ (if rest.isEmpty then "" else ", " : Text) ++ printItems rest

def printEntries : List (Text × Value) → Text
  | [] => []
  | (k, v) :: rest =>
    quote k ++ ": " ++ print v ++ (if rest.isEmpty then "" else ", " : Text) ++
      printEntries rest

end

def newLine (depth : Nat) : Text := '\n' :: List.replicate (2 * depth) ' '

mutual

def printIndented (depth : Nat) : Value → Text
  | .list [] => "[]"
  | .list items => '[' :: printIndentedItems (depth + 1) items ++ newLine depth ++ "]"
  | .table [] => "\x7b\x7d"
  | .table entries =>
    '\x7b' :: printIndentedEntries (depth + 1) entries ++ newLine depth ++ "\x7d"
  | atom => atomText atom

def printIndentedItems (depth : Nat) : List Value → Text
  | [] => []
  | x :: rest =>
    newLine depth ++ printIndented depth x ++ (if rest.isEmpty then "" else "," : Text) ++
      printIndentedItems depth rest

def printIndentedEntries (depth : Nat) : List (Text × Value) → Text
  | [] => []
  | (k, v) :: rest =>
    newLine depth ++ quote k ++ ": " ++ printIndented depth v ++
      (if rest.isEmpty then "" else "," : Text) ++ printIndentedEntries depth rest

end

/-- Put an entry into a table that is ordered by key. -/
def insertSorted (entry : Text × Value) : Entries → Entries
  | [] => [entry]
  | other :: rest =>
    if Text.le entry.1 other.1 then entry :: other :: rest else other :: insertSorted entry rest

mutual

def sortKeys : Value → Value
  | .list items => .list (sortKeysItems items)
  | .table entries => .table (sortKeysEntries entries)
  | atom => atom

def sortKeysItems : List Value → List Value
  | [] => []
  | x :: rest => sortKeys x :: sortKeysItems rest

def sortKeysEntries : List (Text × Value) → List (Text × Value)
  | [] => []
  | (k, v) :: rest => insertSorted (k, sortKeys v) (sortKeysEntries rest)

end

end Json
end StepLocator
