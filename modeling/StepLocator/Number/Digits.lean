import StepLocator.Text.Blank

/-!
Decimal digits, and the underscores that may group them.
-/
namespace StepLocator
namespace Digits

def isAscii (c : Char) : Bool := '0' ≤ c && c ≤ '9'

def value? (c : Char) : Option Nat := if isAscii c then some (c.toNat - '0'.toNat) else none

def toNat (digits : Text) : Nat := Nat.ofDigitChars 10 digits 0

def hasDoubleUnderscore : Text → Bool
  | '_' :: '_' :: _ => true
  | _ :: rest => hasDoubleUnderscore rest
  | [] => false

/-- The text without its underscores, if it has any and none of them stands at an end or next to
another one. -/
def ungrouped? (t : Text) : Option Text :=
  if '_' ∉ t ∨ t.head? = some '_' ∨ t.getLast? = some '_' ∨ hasDoubleUnderscore t then none
  else some (t.filter (· != '_'))

end Digits

def natText (n : Nat) : Text := Nat.toDigits 10 n

def intText : Int → Text
  | .ofNat n => natText n
  | .negSucc n => '-' :: natText (n + 1)

end StepLocator
