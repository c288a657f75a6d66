import StepLocator.Data.Value
import StepLocator.Registry.Target

/-!
Promises that callers make. A broken one is reported with a reason and with the values in play.
-/
namespace StepLocator

structure Breach where
  reason : Text
  env : Entries

namespace Breach

def markerReason : Text := "never() marker reached"

def missingReason : Text := "required value is None"

/-- A place that is never reached if all promises are kept. -/
def marker (reason : Text) (env : Entries) : Breach :=
  ⟨if reason = [] then markerReason else reason, env⟩

def require (value : Value) (reason : Text) (env : Entries) : Except Breach Value :=
  match value with
  | .null => .error (marker (if reason = [] then missingReason else reason) env)
  | value => .ok value

end Breach

def OutOfRange.breach (fault : OutOfRange) : Breach :=
  ⟨"definition line out of range",
    [("line", .int fault.line), ("line_count", .int fault.lineCount)]⟩

end StepLocator
