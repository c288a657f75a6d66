import StepLocator.Log.Record
import StepLocator.Path.Basic
import StepLocator.Registry.Reference
import StepLocator.Text.Quoted

/-!
The file that a reference leads to. The parts of its name are directories below the root of the
registry, and the file is named by all parts and the key. The parts are joined to the root as text,
so a part that begins with a slash does not leave it; a target outside the root is no target.
-/
namespace StepLocator

structure OutOfRange where
  line : Int
  lineCount : Nat
  deriving DecidableEq, Repr

structure Reference where
  mention : Mention
  target : Path
  deriving DecidableEq, Repr

namespace Registry

def fileName (key : Text) (components : List Text) (extension : Text) : Text :=
  List.intercalate ['-'] (components ++ [key]) ++ extension

/-- The text of the way to that file: the root without the slashes at its end, the parts, and the
file name, with a slash before each. -/
def targetText (root key : Text) (components : List Text) (extension : Text) : Text :=
  List.intercalate ['/']
    (Text.trimRight (· == '/') root :: components ++ [fileName key components extension])

def target (root key : Text) (components : List Text) (extension : Text) : Path :=
  (Path.ofText (targetText root key components extension)).normalize

def targetOf (root : Text) (mention : Mention) : Path :=
  target root mention.key.toText mention.components mention.key.extension

def leavesMessage (mention : Mention) (line : Text) (target : Path) : Text :=
  mention.key.toText ++ " reference " ++ Text.quoted line ++ " leaves the registry: " ++
    target.toText

/-- The reference in one line, unless it leads out of the registry. -/
def resolveLine (root line : Text) : Logged (Option Reference) :=
  match Mention.ofLine? line with
  | none => pure none
  | some mention =>
    let target := targetOf root mention
    if target.isUnder (Path.ofText root).normalize then pure (some ⟨mention, target⟩)
    else do
      Logged.emit Log.debug "resolver" (leavesMessage mention line target)
      return none

def lineAt? (lines : List Text) : Int → Option Text
  | .ofNat n => lines[n]?
  | .negSucc _ => none

def resolve (lines : List Text) (line : Int) (root : Text) :
    Logged (Except OutOfRange (Option Reference)) :=
  match lineAt? lines line with
  | none => pure (.error ⟨line, lines.length⟩)
  | some text => do return .ok (← resolveLine root text)

/-- The definitions of a line: none, or the one file that its reference leads to. -/
def definitions (lines : List Text) (line : Int) (root : Text) :
    Logged (Except OutOfRange (List Text)) := do
  match ← resolve lines line root with
  | .error fault => return .error fault
  | .ok none => return .ok []
  | .ok (some reference) => return .ok [reference.target.toText]

theorem lineAt?_eq_none_iff {lines : List Text} {line : Int} :
    lineAt? lines line = none ↔ line < 0 ∨ (lines.length : Int) ≤ line := by
  cases line with
  | ofNat n =>
    rw [lineAt?, List.getElem?_eq_none_iff, Int.ofNat_eq_natCast]
    omega
  | negSucc n => simp [lineAt?, Int.negSucc_lt_zero]

end Registry
end StepLocator
