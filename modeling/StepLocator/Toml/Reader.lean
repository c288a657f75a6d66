import StepLocator.Toml.Scalar

/-!
TOML documents. A document is a table, and its statements either enter a value under a key or turn
to another table. Tables must not be declared twice, values must not be overwritten, and lists and
tables written in place must not be extended; three sets of keys keep track of that.
-/
namespace StepLocator
namespace Toml

/-- A key: the names of the tables on the way, and the last name. -/
abbrev KeyPath := List Text

/-- Which keys can no longer be used in some ways: declared tables, values written in place with
all that is below them, and tables that count as declared from the next header on. -/
structure Locks where
  declared : List KeyPath
  frozen : List KeyPath
  pending : List KeyPath
  deriving DecidableEq, Repr

namespace Locks

def empty : Locks := ⟨[], [], []⟩

def isDeclared (l : Locks) (key : KeyPath) : Bool := l.declared.contains key

/-- Whether a key lies at or below a value that was written in place. -/
def isFrozen (l : Locks) (key : KeyPath) : Bool := l.frozen.any fun k => k.isPrefixOf key

def declare (l : Locks) (key : KeyPath) : Locks := { l with declared := key :: l.declared }

def freeze (l : Locks) (key : KeyPath) : Locks := { l with frozen := key :: l.frozen }

/-- Note that a table is declared from the next header on. -/
def postpone (l : Locks) (key : KeyPath) : Locks := { l with pending := key :: l.pending }

/-- A header begins: what was postponed counts from now on. -/
def settle (l : Locks) : Locks := { l with declared := l.pending ++ l.declared, pending := [] }

/-- Free a key and all that is below it: a new item of a list begins there. -/
def free (l : Locks) (key : KeyPath) : Locks :=
  { l with
    declared := l.declared.filter fun k => !key.isPrefixOf k
    frozen := l.frozen.filter fun k => !key.isPrefixOf k }

end Locks

/-- Change the table at a key, making the tables on the way. A list on the way stands for its last
table, if `lists` says so; any other value is in the way. -/
def inTable (lists : Bool) (change : Entries → Option Entries) : KeyPath → Entries → Option Entries
  | [], table => change table
  | name :: rest, table =>
    match table.find? name with
    | none => (inTable lists change rest []).map fun inner => table.insert name (.table inner)
    | some (.table inner) =>
      (inTable lists change rest inner).map fun inner => table.insert name (.table inner)
    | some (.list items) =>
      match lists, items.getLast? with
      | true, some (.table inner) =>
        (inTable lists change rest inner).map fun inner =>
          table.insert name (.list (items.dropLast ++ [.table inner]))
      | _, _ => none
    | some _ => none

def enter (name : Text) (value : Value) (table : Entries) : Option Entries :=
  match table.find? name with
  | some _ => none
  | none => some (table.insert name value)

def appendTable (name : Text) (table : Entries) : Option Entries :=
  match table.find? name with
  | none => some (table.insert name (.list [.table []]))
  | some (.list items) => some (table.insert name (.list (items ++ [.table []])))
  | some _ => none

/-- A change that may be impossible. -/
def orMalformed {α : Type} : Option α → Except Fault α
  | some a => .ok a
  | none => .error .malformed

def isNest : Value → Bool
  | .list _ => true
  | .table _ => true
  | _ => false

def listWeight : Nat := 2

/-- How much of the depth a table written in place takes: it has keys, which a list has not. -/
def tableWeight : Nat := 3

/-- The depth down to which lists and tables written in place may stand in each other. -/
def nestingLimit : Nat := 986

mutual

def readValue : Nat → Nat → Text → Except Fault (Value × Text)
  | 0, _, _ => .error .malformed
  | fuel + 1, depth, text =>
    match text with
    | '[' :: rest => do
      if depth < listWeight then throw .tooDeep
      match ← skipFiller false rest with
      | ']' :: after => return (.list [], after)
      | rest => do
        let (items, after) ← readItems fuel (depth - listWeight) rest
        return (.list items, after)
    | '\x7b' :: rest => do
      if depth < tableWeight then throw .tooDeep
      match skipBlanks rest with
      | '\x7d' :: after => return (.table [], after)
      | rest => do
        let (entries, after) ← readInline fuel (depth - tableWeight) Locks.empty [] rest
        return (.table entries, after)
    | text => readScalar text

/-- Read the items of a list up to its closing bracket; a comma may stand after the last one. -/
def readItems : Nat → Nat → Text → Except Fault (List Value × Text)
  | 0, _, _ => .error .malformed
  | fuel + 1, depth, text => do
    let (x, rest) ← readValue fuel depth text
    match ← skipFiller false rest with
    | ']' :: after => return ([x], after)
    | ',' :: after => do
      match ← skipFiller false after with
      | ']' :: after => return ([x], after)
      | rest => do
        let (more, after) ← readItems fuel depth rest
        return (x :: more, after)
    | _ => throw .malformed

def readPair : Nat → Nat → Text → Except Fault ((KeyPath × Value) × Text)
  | 0, _, _ => .error .malformed
  | fuel + 1, depth, text => do
    let (key, rest) ← readKey (text.length + 1) text
    match rest with
    | '=' :: rest => do
      let (v, rest) ← readValue fuel depth (skipBlanks rest)
      return ((key, v), rest)
    | _ => throw .malformed

def readInline : Nat → Nat → Locks → Entries → Text → Except Fault (Entries × Text)
  | 0, _, _, _, _ => .error .malformed
  | fuel + 1, depth, locks, table, text => do
    let ((key, v), rest) ← readPair fuel depth text
    if locks.isFrozen key then throw .malformed
    let table ← orMalformed (inTable false (enter (key.getLastD []) v) key.dropLast table)
    match skipBlanks rest with
    | '\x7d' :: after => return (table, after)
    | ',' :: after =>
      readInline fuel depth (if isNest v then locks.freeze key else locks) table (skipBlanks after)
    | _ => throw .malformed

end

/-- A document that is being read: the tables so far, the locks, and the table that statements
belong to. -/
structure Draft where
  table : Entries
  locks : Locks
  header : KeyPath

namespace Draft

def empty : Draft := ⟨[], Locks.empty, []⟩

/-- Enter a value. The tables on the way of a key with dots must not have been declared, and count
as declared from the next header on. -/
def enter (d : Draft) (key : KeyPath) (value : Value) : Except Fault Draft := do
  let onTheWay := (List.range (key.length - 1)).map fun i => d.header ++ key.take (i + 1)
  if onTheWay.any d.locks.isDeclared then throw .malformed
  let locks := onTheWay.foldl Locks.postpone d.locks
  let parent := d.header ++ key.dropLast
  if parent ≠ [] ∧ locks.isFrozen parent then throw .malformed
  let table ← orMalformed (inTable true (Toml.enter (key.getLastD []) value) parent d.table)
  return { d with
    table
    locks := if isNest value then locks.freeze (d.header ++ key) else locks }

def turnTo (d : Draft) (key : KeyPath) : Except Fault Draft := do
  if d.locks.isDeclared key ∨ d.locks.isFrozen key then throw .malformed
  let table ← orMalformed (inTable true some key d.table)
  return ⟨table, d.locks.declare key, key⟩

/-- Turn to a new table at the end of a list. -/
def openItem (d : Draft) (key : KeyPath) : Except Fault Draft := do
  if d.locks.isFrozen key then throw .malformed
  let table ← orMalformed (inTable true (appendTable (key.getLastD [])) key.dropLast d.table)
  return ⟨table, (d.locks.free key).declare key, key⟩

end Draft

def readHeader (d : Draft) (text : Text) : Except Fault (Draft × Text) :=
  let d := { d with locks := d.locks.settle }
  match text with
  | '[' :: rest => do
    let text := skipBlanks rest
    let (key, rest) ← readKey (text.length + 1) text
    let d ← d.openItem key
    match rest with
    | ']' :: ']' :: rest => return (d, rest)
    | _ => throw .malformed
  | _ => do
    let text := skipBlanks text
    let (key, rest) ← readKey (text.length + 1) text
    let d ← d.turnTo key
    match rest with
    | ']' :: rest => return (d, rest)
    | _ => throw .malformed

def readStatement (d : Draft) (text : Text) : Except Fault (Draft × Text) :=
  match text with
  | '[' :: rest => readHeader d rest
  | '#' :: _ => .ok (d, text)
  | c :: _ =>
    if isKeyChar c ∨ c = '\x22' ∨ c = '\x27' then do
      let ((key, value), rest) ← readPair (2 * text.length + 3) nestingLimit text
      let d ← d.enter key value
      return (d, rest)
    else .error .malformed
  | [] => .ok (d, [])

def readLines : Nat → Draft → Text → Except Fault Entries
  | 0, _, _ => .error .malformed
  | fuel + 1, d, text =>
    match skipBlanks text with
    | [] => .ok d.table
    | '\n' :: rest => readLines fuel d rest
    | text => do
      let (d, rest) ← readStatement d text
      match ← skipComment (skipBlanks rest) with
      | [] => return d.table
      | '\n' :: rest => readLines fuel d rest
      | _ => throw .malformed

def read (text : Text) : Except Fault Entries := readLines (text.length + 1) Draft.empty text

end Toml
end StepLocator
