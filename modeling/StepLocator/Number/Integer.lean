import StepLocator.Number.Digits

/-!
Integers as headers hold them: a sign in front, digits, and single underscores between the digits.
A numeral with very many digits is refused rather than read.
-/
namespace StepLocator

inductive IntegerFault
  | malformed
  | tooLong (digits : Nat)
  deriving DecidableEq, Repr

def digitLimit : Nat := 4300

def tooLongMessage (digits : Nat) : Text :=
  "Exceeds the limit (4300 digits) for integer string conversion: value has " ++ natText digits ++
    " digits; use sys.set_int_max_str_digits() to increase the limit"

namespace Digits

/-- The digit values of a run of digits in which single underscores may stand between digits;
`afterDigit` tells whether a digit has just been read. -/
def grouped? (afterDigit : Bool) : Text → Option (List Nat)
  | [] => if afterDigit then some [] else none
  | c :: rest =>
    if c = '_' then if afterDigit then grouped? false rest else none
    else do return (← value? c) :: (← grouped? true rest)

def ofValues (values : List Nat) : Nat := values.foldl (fun n d => n * 10 + d) 0

end Digits

namespace Integer

def splitSign : Text → Bool × Text
  | '-' :: rest => (true, rest)
  | '+' :: rest => (false, rest)
  | text => (false, text)

def signed (negative : Bool) (n : Nat) : Int := if negative then -(n : Int) else n

/-- Read an integer. The count of digits is judged before what follows them. -/
def read (text : Text) : Except IntegerFault Int :=
  let (negative, body) := splitSign text
  let inNumeral (c : Char) : Bool := c == '_' || Digits.isAscii c
  match Digits.grouped? false (body.takeWhile inNumeral) with
  | none => .error .malformed
  | some values =>
    if values.length > digitLimit then .error (.tooLong values.length)
    else if body.dropWhile inNumeral = [] then .ok (signed negative (Digits.ofValues values))
    else .error .malformed

end Integer
end StepLocator
