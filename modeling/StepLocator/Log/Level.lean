import StepLocator.Log.Record
import StepLocator.Text.Quoted

/-!
Levels by the names that people give them: blanks around a name and the case of its letters do not
count.
-/
namespace StepLocator
namespace Log

def choices : List (Text × Int) := [
  ("debug", debug), ("info", info), ("warning", warning), ("error", error),
  ("critical", critical)]

structure UnknownLevel where
  name : Text
  deriving DecidableEq, Repr

def UnknownLevel.message (u : UnknownLevel) : Text :=
  "invalid log level " ++ Text.quoted u.name ++ " (expected one of: " ++
    List.intercalate (", " : Text) (choices.map Prod.fst) ++ ")"

def levelOf (name : Text) : Except UnknownLevel Int :=
  match choices.lookup (Text.lower (Text.strip name)) with
  | some level => .ok level
  | none => .error ⟨name⟩

end Log
end StepLocator
