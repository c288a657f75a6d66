import StepLocator.Client.Local
import StepLocator.Shape.Place
import StepLocator.Text.Colour

/-!
The command that asks where a reference leads: it asks a server, in a process of its own or in the
same program, and prints the places. The client's own failures are reported in one line; all others
are left to whoever runs the command.
-/
namespace StepLocator
namespace CommandLine

/-- A question from the command line: in the same program or not, and how long to wait. -/
structure Question where
  query : Query
  root : Option Path
  direct : Bool
  timeout : Timeout
  deriving DecidableEq, Repr

inductive Call
  | direct (query : Query) (root : Option Path)
  | process (query : Query) (root : Option Path) (timeout : Timeout)
  deriving DecidableEq, Repr

def Question.call (q : Question) : Call :=
  if q.direct then .direct q.query q.root else .process q.query q.root q.timeout

/-- A failure to answer: one that the command reports, or one that it does not foresee. -/
inductive Failure (ε : Type)
  | reported (text : Text)
  | unforeseen (cause : ε)

/-- How the command ends: with the places in print, with a report, with an answer that is no list
of places, or with a failure that it does not foresee. -/
inductive Ending (ε : Type)
  | printed (text : Text)
  | reported (text : Text)
  | misshapen (findings : List Shape.Finding)
  | unforeseen (cause : ε)

namespace Ending

def ofAnswer {ε : Type} : Except (Failure ε) Value → Ending ε
  | .ok answer =>
    match Place.listOf answer with
    | .ok places => .printed (Place.printList places ++ "\n")
    | .error findings => .misshapen findings
  | .error (.reported text) => .reported (Text.plain text ++ "\n")
  | .error (.unforeseen cause) => .unforeseen cause

def exitCode {ε : Type} : Ending ε → Nat
  | .printed _ => 0
  | .reported _ => 2
  | .misshapen _ => 1
  | .unforeseen _ => 1

def output {ε : Type} : Ending ε → Text
  | .printed text => text
  | _ => []

def errors {ε : Type} : Ending ε → Text
  | .reported text => text
  | _ => []

end Ending

inductive Unforeseen
  | direct (fault : Local.Fault)
  | process (fault : Consultation.Fault)

def Unforeseen.message : Unforeseen → Text
  | .direct fault => fault.message
  | .process fault => fault.message

/-- Ask in one of the two ways; the process is a server of this program. -/
def Call.answer (fs : FileSystem) : Call → Except (Failure Unforeseen) Value
  | .direct query root =>
    match (Local.ask Controller.fresh fs root query).outcome with
    | .ok places => .ok (.list places)
    | .error fault =>
      .error (if fault.isReported then .reported fault.message else .unforeseen (.direct fault))
  | .process query root timeout =>
    match (Consultation.consult (Local.child fs) ⟨none, none⟩ fs root timeout query).outcome with
    | .ok places => .ok (.list places)
    | .error fault =>
      .error (if fault.isReported then .reported fault.message else .unforeseen (.process fault))

def Question.run (fs : FileSystem) (q : Question) : Ending Unforeseen :=
  .ofAnswer (q.call.answer fs)

end CommandLine
end StepLocator
