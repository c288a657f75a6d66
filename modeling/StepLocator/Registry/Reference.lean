import StepLocator.Text.Blank

/-!
References to the step registry in a line of a configuration file: one of four keys before the
first colon, perhaps after list markers, and a name of hyphenated parts after it.
-/
namespace StepLocator

inductive Key
  | workflow
  | chain
  | ref
  | commands
  deriving DecidableEq, Repr

namespace Key

def toText : Key → Text
  | .workflow => "workflow"
  | .chain => "chain"
  | .ref => "ref"
  | .commands => "commands"

def extension : Key → Text
  | .commands => ".sh"
  | _ => ".yaml"

def all : List Key := [.workflow, .chain, .ref, .commands]

def ofText? (text : Text) : Option Key := all.find? fun key => key.toText == text

theorem ofText?_eq_some_iff {text : Text} {key : Key} :
    ofText? text = some key ↔ key.toText = text := by
  constructor
  · intro h
    have h' := List.find?_some h
    simpa using h'
  · rintro rfl
    cases key <;> decide

end Key

/-- A reference in a line: its key and the parts of its value. -/
structure Mention where
  key : Key
  components : List Text
  deriving DecidableEq, Repr

namespace Mention

/-- The key in the text before the colon: blanks and list markers around it do not count. -/
def keyText (fragment : Text) : Text :=
  Text.strip (Text.trimLeft (· == '-') (Text.strip fragment))

/-- The parts of a value. The last part of a value under the key for commands names a kind of
script, not a directory, and is left out. -/
def componentsOf (key : Key) (value : Text) : List Text :=
  let parts := (Text.strip value).splitOn '-'
  if key = .commands then parts.dropLast else parts

def ofLine? (line : Text) : Option Mention := do
  let (fragment, value) ← Text.cutAt ':' line
  let key ← Key.ofText? (keyText fragment)
  return ⟨key, componentsOf key value⟩

end Mention
end StepLocator
