import StepLocator.Shape.Integer

/-!
The settings of the server, and their reading from a table. Fields that are not there have their
standard values; entries that are no fields do not count.
-/
namespace StepLocator

/-- How the server is reached: over its own input and output, or over a network port. -/
inductive Transport
  | stdio
  | tcp
  deriving DecidableEq, Repr

def Transport.name : Transport → Text
  | .stdio => "stdio"
  | .tcp => "tcp"

structure Settings where
  logLevel : Text
  logFile : Option Text
  transport : Transport
  host : Text
  port : Int
  deriving DecidableEq, Repr

namespace Settings

def greatestPort : Int := 65535

def standard : Settings := ⟨"info", none, .stdio, "127.0.0.1", 8080⟩

def readTransport : Value → Shape.Checked Transport
  | .text t =>
    if t = Transport.stdio.name then .ok .stdio
    else if t = Transport.tcp.name then .ok .tcp
    else Shape.Checked.refuse .notTransport
  | _ => Shape.Checked.refuse .notTransport

def ofEntries (entries : Entries) : Shape.Checked Settings :=
  let logLevel := Shape.fieldOr "log_level" Shape.text standard.logLevel entries
  let logFile := Shape.fieldOr "log_file" Shape.textOrNull standard.logFile entries
  let transport := Shape.fieldOr "transport" readTransport standard.transport entries
  let host := Shape.fieldOr "host" Shape.text standard.host entries
  let port := Shape.fieldOr "port" (Shape.integerWithin 0 greatestPort) standard.port entries
  (logLevel.both (logFile.both (transport.both (host.both port)))).map
    fun (logLevel, logFile, transport, host, port) => ⟨logLevel, logFile, transport, host, port⟩

end Settings
end StepLocator
