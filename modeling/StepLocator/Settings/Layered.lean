import StepLocator.Log.Level
import StepLocator.Settings.Basic
import StepLocator.Settings.Configuration

/-!
Settings in layers: what a caller gives goes before the configuration file, and that before the
standard values.
-/
namespace StepLocator
namespace Settings

/-- Lay values over a table. Null means that nothing is given. -/
def overlay (given defaults : Entries) : Entries :=
  defaults.insertAll (given.filter fun (_, value) => !value.isNull)

/-- What is given last goes before what was given earlier, and that before the table. -/
theorem find?_overlay (key : Text) (given defaults : Entries) :
    (overlay given defaults).find? key =
      (Entries.find? key (given.filter fun (_, value) => !value.isNull).reverse).or
        (defaults.find? key) :=
  Entries.find?_insertAll key defaults _

structure Given where
  logLevel : Option Text
  logFile : Option Path
  transport : Option Transport
  host : Option Text
  port : Option Int
  deriving DecidableEq, Repr

namespace Given

def nothing : Given := ⟨none, none, none, none, none⟩

def textOrNull : Option Text → Value
  | some t => .text t
  | none => .null

def entries (g : Given) : Entries := [
  ("log_level", textOrNull g.logLevel),
  ("log_file", textOrNull (g.logFile.map Path.toText)),
  ("transport", textOrNull (g.transport.map Transport.name)),
  ("host", textOrNull g.host),
  ("port", (g.port.map Value.int).getD .null)]

end Given

/-- Why there are no settings: the configuration file has a fault that is not forgiven, or what is
laid together has the wrong shape or names no level. -/
inductive Fault
  | configuration (fault : Configuration.Fault)
  | shape (findings : List Shape.Finding)
  | level (fault : Log.UnknownLevel)
  deriving DecidableEq, Repr

def accept (entries : Entries) : Except Fault Settings :=
  match ofEntries entries with
  | .error findings => .error (.shape findings)
  | .ok settings =>
    match Log.levelOf settings.logLevel with
    | .error fault => .error (.level fault)
    | .ok _ => .ok settings

def resolve (fs : FileSystem) (file : Option Path) (given : Given) : Except Fault Settings :=
  match Configuration.loadServer fs none file with
  | .error fault => .error (.configuration fault)
  | .ok defaults => accept (overlay given.entries defaults)

end Settings
end StepLocator
