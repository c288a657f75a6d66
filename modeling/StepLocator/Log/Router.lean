import StepLocator.Files.Change
import StepLocator.Log.Level

/-!
Where log records go. A router has a level and handlers; configuring it puts one new handler, to a
file or to the error output, in the place of all others. Handlers that the router did not make are
taken away but stay open.
-/
namespace StepLocator
namespace Log

/-- Where a handler writes: to the error output, to an open file by its number, or wherever another
part of the program wants it. -/
inductive Sink
  | errors
  | file (number : Nat)
  | foreign
  deriving DecidableEq, Repr

structure Handler where
  sink : Sink
  closed : Bool
  deriving DecidableEq, Repr

namespace Handler

def isOwn (h : Handler) : Bool := h.sink != .foreign

def isFile (h : Handler) : Bool :=
  match h.sink with
  | .file _ => true
  | _ => false

/-- A handler after it is taken away: closed, unless it belongs to someone else. -/
def release (h : Handler) : Handler := { h with closed := h.closed || h.isOwn }

end Handler

/-- A router: its level, all handlers that it has had, and the places among them of those that it
has now. -/
structure Router where
  level : Int
  handlers : List Handler
  active : List Nat
  deriving DecidableEq, Repr

inductive Router.Fault
  | level (fault : UnknownLevel)
  | files (fault : Files.Fault)
  deriving DecidableEq, Repr

def Router.Fault.message : Router.Fault → Text
  | .level fault => fault.message
  | .files fault => fault.message

/-- All that records are written to: the error output, what the handlers of others collect, and the
files. -/
structure Outputs where
  errors : Text
  foreign : Text
  files : FileSystem

def topLogger : Text := "root"

/-- A record as a line, without the time that stands in front. -/
def Record.line (r : Record) : Text :=
  "[" ++ levelName r.level ++ "] " ++ (if r.logger = [] then topLogger else r.logger) ++ ": " ++
    r.message ++ "\n"

def Record.bareLine (r : Record) : Text := r.message ++ "\n"

namespace Router

def bare (level : Int) : Router := ⟨level, [], []⟩

def activeHandlers (r : Router) : List Handler := r.active.filterMap (r.handlers[·]?)

def releaseAll (active : List Nat) (handlers : List Handler) : List Handler :=
  handlers.mapIdx fun i h => if i ∈ active then h.release else h

def replaceAll (r : Router) (level : Int) (sink : Sink) : Router where
  level := level
  handlers := releaseAll r.active r.handlers ++ [⟨sink, false⟩]
  active := [r.handlers.length]

def addForeign (r : Router) : Router :=
  { r with
    handlers := r.handlers ++ [⟨.foreign, false⟩]
    active := r.active ++ [r.handlers.length] }

@[simp] theorem replaceAll_activeHandlers (r : Router) (level : Int) (sink : Sink) :
    (r.replaceAll level sink).activeHandlers = [⟨sink, false⟩] := by
  have h : (releaseAll r.active r.handlers).length = r.handlers.length := by simp [releaseAll]
  simp [replaceAll, activeHandlers, ← h]

/-- The time of the last change of a log file; it is not kept. -/
def fileStamp : Int := 0

/-- The files after an attempt to open a log file, and the number of the open file or a failure.
Missing directories above it are made. -/
def openFile (fs : FileSystem) (file : Path) : FileSystem × Except Files.Fault Nat :=
  let made := fs.makeDirectories file.parent
  match made.fault with
  | some fault => (made.files, .error fault)
  | none =>
    match made.files.openToAppend (made.files.absolute file).toText fileStamp with
    | .ok (fs, number) => (fs, .ok number)
    | .error fault => (made.files, .error fault)

structure Configured where
  outcome : Except Fault Nat
  router : Router
  files : FileSystem

/-- Send all records of a level and above to a file, or to the error output where no file is
given. -/
def configure (r : Router) (fs : FileSystem) (level : Text) (file : Option Path) : Configured :=
  match levelOf level with
  | .error fault => ⟨.error (.level fault), r, fs⟩
  | .ok level =>
    match file with
    | none => ⟨.ok r.handlers.length, r.replaceAll level .errors, fs⟩
    | some file =>
      match openFile fs file with
      | (fs, .ok number) => ⟨.ok r.handlers.length, r.replaceAll level (.file number), fs⟩
      | (fs, .error fault) => ⟨.error (.files fault), r, fs⟩

def deliver (record : Record) (o : Outputs) (h : Handler) : Outputs :=
  match h.sink with
  | .errors => { o with errors := o.errors ++ record.line }
  | .file number => { o with files := o.files.appendTo number (Utf8.encode record.line) }
  | .foreign => { o with foreign := o.foreign ++ record.bareLine }

/-- Emit a record. What no handler takes is still said on the error output if it is a warning or
worse. -/
def emit (r : Router) (record : Record) (o : Outputs) : Outputs :=
  if record.level < r.level then o
  else if r.active.isEmpty then
    if record.level < warning then o else { o with errors := o.errors ++ record.bareLine }
  else r.activeHandlers.foldl (deliver record) o

theorem configure_of_levelOf_eq_error {r : Router} {fs : FileSystem} {level : Text}
    {file : Option Path}
    {fault : UnknownLevel} (h : levelOf level = .error fault) :
    r.configure fs level file = ⟨.error (.level fault), r, fs⟩ := by
  simp [configure, h]

end Router
end Log
end StepLocator
