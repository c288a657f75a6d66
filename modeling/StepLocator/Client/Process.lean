import StepLocator.Text.Utf8

/-!
Processes as the program that started them sees them. It can ask for the exit code, kill, and wait
for a limited time for the end. Before it lets go of a process it makes sure that it has ended.
-/
namespace StepLocator

/-- What can be done with a process in some state: ask for the exit code, which is there once the
process has ended; kill it; and wait for its end, which brings its last words unless the time is up
first. Whoever waits after a kill does not wait in vain. -/
structure Process (σ : Type) where
  poll : σ → Option Int
  kill : σ → σ
  communicate : σ → Option Bytes × σ
  ends : ∀ s, (communicate (kill s)).1.isSome = true

/-- A process in the hands of the program that started it: its state, and for each time that it was
killed the exit code it had until then. -/
structure Held (σ : Type) where
  state : σ
  kills : List (Option Int)

structure Fate where
  exitCode : Option Int
  kills : List (Option Int)
  deriving DecidableEq, Repr

namespace Process

variable {σ : Type}

def fate (p : Process σ) (h : Held σ) : Fate := ⟨p.poll h.state, h.kills⟩

/-- Kill a process and wait for its end; gives its last words. -/
def finish (p : Process σ) (h : Held σ) : Bytes × Held σ :=
  ((p.communicate (p.kill h.state)).1.get (p.ends h.state),
    ⟨(p.communicate (p.kill h.state)).2, h.kills ++ [p.poll h.state]⟩)

/-- Wait for the end of a process that is to leave by itself; one that does not in time is killed.
Gives its last words. -/
def await (p : Process σ) (h : Held σ) : Bytes × Held σ :=
  match p.communicate h.state with
  | (some words, after) => (words, { h with state := after })
  | (none, after) => p.finish { h with state := after }

def reap (p : Process σ) (h : Held σ) : Held σ :=
  if (p.poll h.state).isNone then (p.finish h).2 else h

def killedCode : Int := -9

end Process

/-- How long a process can be waited for, in nanoseconds, where there is a limit: for each of its
words, and for its end. -/
structure Patience where
  word : Option Int
  ending : Option Int
  deriving DecidableEq, Repr

namespace Patience

/-- What a span is too long for: to be a number of seconds, to be waited for while a pipe is empty,
or to be waited for until a process has ended. -/
inductive Excess
  | seconds
  | reading
  | ending
  deriving DecidableEq, Repr

def Excess.message : Excess → Text
  | .seconds => "integer division result too large for a float"
  | .reading => "timestamp too large to convert to C _PyTime_t"
  | .ending => "timeout is too large"

/-- The greatest number of nanoseconds that are still a floating-point number of seconds. -/
def longestSpan : Int := (Nat.pow 2 1024 - Nat.pow 2 970) * 1000000000

/-- The most nanoseconds that the system waits while a pipe is empty: they fit in a word of 64
bits. -/
def longestRead : Int := 9223372036854775807

/-- The most nanoseconds that the system waits for the end of a process: as milliseconds they fit in
a word of 32 bits. -/
def longestWait : Int := 2147483647 * 1000000

def ofSystem : Patience := ⟨some longestRead, some longestWait⟩

/-- Words and an end that are laid down in memory can be waited for at will. -/
def unlimited : Patience := ⟨none, none⟩

/-- Why a word cannot be waited for that long. Without a limit nobody looks at the time. -/
def wordExcess? (p : Patience) (span : Int) : Option Excess :=
  match p.word with
  | none => none
  | some most =>
    if longestSpan < span then some .seconds
    else if most < span then some .reading
    else none

def endExcess? (p : Patience) (span : Int) : Option Excess :=
  if longestSpan < span then some .seconds
  else if p.ending.any (· < span) then some .ending
  else none

end Patience

/-- A process whose end is laid down beforehand: the exit code once it has ended, the one that it
ends with, whether the first wait is in vain, and its last words. -/
structure Prepared where
  exitCode : Option Int
  code : Option Int
  lingers : Bool
  words : Bytes

def Prepared.process : Process Prepared where
  poll s := s.exitCode
  kill s := { s with code := some Process.killedCode, lingers := false }
  communicate s :=
    if s.lingers then (none, { s with lingers := false })
    else (some s.words, { s with exitCode := s.code })
  ends _ := rfl

end StepLocator
