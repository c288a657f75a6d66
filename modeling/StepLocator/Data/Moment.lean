import StepLocator.Number.Digits

/-!
Calendar dates and clock times, as configuration files may hold them.
-/
namespace StepLocator

structure Date where
  year : Nat
  month : Nat
  day : Nat
  deriving DecidableEq, Repr

structure Clock where
  hour : Nat
  minute : Nat
  second : Nat
  micro : Nat
  deriving DecidableEq, Repr

/-- A day, a time of day, or both, then perhaps with the distance to universal time in minutes. -/
inductive Moment
  | date (day : Date)
  | time (clock : Clock)
  | dateTime (day : Date) (clock : Clock) (offset : Option Int)
  deriving DecidableEq, Repr

def natPadded (width n : Nat) : Text :=
  let digits := natText n
  List.replicate (width - digits.length) '0' ++ digits

def isLeapYear (year : Nat) : Bool := year % 4 = 0 && (year % 100 ≠ 0 || year % 400 = 0)

def daysInMonth (year month : Nat) : Nat :=
  if month = 2 then if isLeapYear year then 29 else 28
  else if month = 4 ∨ month = 6 ∨ month = 9 ∨ month = 11 then 30
  else 31

/-- Whether a day exists: the calendar begins with the year one. -/
def Date.isValid (d : Date) : Bool :=
  1 ≤ d.year && 1 ≤ d.month && d.month ≤ 12 && 1 ≤ d.day && d.day ≤ daysInMonth d.year d.month

def Date.toText (d : Date) : Text :=
  natPadded 4 d.year ++ '-' :: natPadded 2 d.month ++ '-' :: natPadded 2 d.day

/-- A time of day; the microseconds stand after a point unless there are none. -/
def Clock.toText (t : Clock) : Text :=
  natPadded 2 t.hour ++ ':' :: natPadded 2 t.minute ++ ':' :: natPadded 2 t.second ++
    if t.micro = 0 then [] else '.' :: natPadded 6 t.micro

def offsetText (minutes : Int) : Text :=
  (if minutes < 0 then '-' else '+') :: natPadded 2 (minutes.natAbs / 60) ++
    ':' :: natPadded 2 (minutes.natAbs % 60)

def Moment.toText : Moment → Text
  | .date d => d.toText
  | .time t => t.toText
  | .dateTime d t offset => d.toText ++ 'T' :: t.toText ++ (offset.map offsetText).getD []

end StepLocator
