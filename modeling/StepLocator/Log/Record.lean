import StepLocator.Number.Digits

/-!
Log records, their levels, and computations that emit them.
-/
namespace StepLocator
namespace Log

def debug : Int := 10

def info : Int := 20

def warning : Int := 30

def error : Int := 40

def critical : Int := 50

/-- The name of a level; the levels in between go by their numbers. -/
def levelName (level : Int) : Text :=
  if level = debug then "DEBUG"
  else if level = info then "INFO"
  else if level = warning then "WARNING"
  else if level = error then "ERROR"
  else if level = critical then "CRITICAL"
  else if level = 0 then "NOTSET"
  else "Level " ++ intText level

structure Record where
  level : Int
  logger : Text
  message : Text
  deriving DecidableEq, Repr

/-- The loggers of this program have a common beginning. -/
def loggerName (part : Text) : Text := "ci_operator_lsp." ++ part

def record (level : Int) (part message : Text) : Record := ⟨level, loggerName part, message⟩

end Log

/-- A value together with the records that were emitted on the way to it, in order. -/
structure Logged (α : Type) where
  value : α
  records : List Log.Record

namespace Logged

def emit (level : Int) (part message : Text) : Logged Unit :=
  ⟨(), [Log.record level part message]⟩

/-- Go on with the value; the records of both parts follow each other. -/
def andThen {α β : Type} (first : Logged α) (next : α → Logged β) : Logged β :=
  let second := next first.value
  ⟨second.value, first.records ++ second.records⟩

instance : Monad Logged where
  pure value := ⟨value, []⟩
  bind := andThen

@[simp] theorem pure_value {α : Type} (a : α) : (pure a : Logged α).value = a := rfl

@[simp] theorem pure_records {α : Type} (a : α) : (pure a : Logged α).records = [] := rfl

@[simp] theorem bind_value {α β : Type} (x : Logged α) (f : α → Logged β) :
    (x >>= f).value = (f x.value).value := rfl

@[simp] theorem bind_records {α β : Type} (x : Logged α) (f : α → Logged β) :
    (x >>= f).records = x.records ++ (f x.value).records := rfl

end Logged
end StepLocator
