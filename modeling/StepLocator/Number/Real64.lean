import StepLocator.Number.Integer

/-!
Floating-point numbers with a significand of 53 bits, as exact values: a finite number is its sign,
its significand and its power of two. A decimal or a ratio is rounded to the nearest such number,
a tie to the even significand.
-/
namespace StepLocator

/-- A floating-point number; `finite negative m q` is `m * 2 ^ q` with its sign. -/
inductive Real64
  | finite (negative : Bool) (significand : Nat) (exponent : Int)
  | infinite (negative : Bool)
  | nan
  deriving DecidableEq, Repr

namespace Real64

def leastExponent : Int := -1074

def greatestExponent : Int := 971

/-- The least significand of 53 bits. -/
def leastFull : Nat := 4503599627370496

def zero (negative : Bool) : Real64 := .finite negative 0 leastExponent

/-- The quotient of two naturals, rounded to the nearest natural, a tie to the even one. -/
def roundQuotient (a b : Nat) : Nat :=
  let k := a / b
  let r := a % b
  if 2 * r < b then k else if b < 2 * r then k + 1 else k + k % 2

def scale (q : Int) : Nat × Nat := (Nat.pow 2 q.toNat, Nat.pow 2 (-q).toNat)

def ofRatio (negative : Bool) (a b : Nat) : Real64 :=
  let guess : Int := (Nat.log2 a : Int) - Nat.log2 b
  let (up, down) := scale guess
  let top := if b * up ≤ a * down then guess else guess - 1
  let q := max (top - 52) leastExponent
  let (up, down) := scale q
  let m := roundQuotient (a * down) (b * up)
  let (m, q) := if m = 2 * leastFull then (leastFull, q + 1) else (m, q)
  if q > greatestExponent then .infinite negative else .finite negative m q

/-- The number nearest to `digits * 10 ^ exponent`. Exponents far outside the range are settled
without computing the power. -/
def ofDecimal (negative : Bool) (digits : Nat) (exponent : Int) : Real64 :=
  let size : Int := (natText digits).length + exponent
  if digits = 0 then zero negative
  else if size > 310 then .infinite negative
  else if size < -330 then zero negative
  else if exponent ≥ 0 then ofRatio negative (digits * Nat.pow 10 exponent.toNat) 1
  else ofRatio negative digits (Nat.pow 10 (-exponent).toNat)

def ofInt (i : Int) : Real64 := ofDecimal (i < 0) i.natAbs 0

def ratio? : Real64 → Option (Int × Nat)
  | .finite negative m q =>
    let (up, down) := scale q
    some (Integer.signed negative (m * up), down)
  | _ => none

def isZero : Real64 → Bool
  | .finite _ 0 _ => true
  | _ => false

def equalsInt (x : Real64) (i : Int) : Bool :=
  match x.ratio? with
  | some (a, b) => a == i * b
  | none => false

/-- Whether two numbers are equal as numbers: the zeros are equal, and nothing is equal to a
number that is none. -/
def equals : Real64 → Real64 → Bool
  | .finite n m q, .finite n' m' q' => m == m' && q == q' && (m == 0 || n == n')
  | .infinite n, .infinite n' => n == n'
  | _, _ => false

/-- Whether the number is zero or below it; a number that is none is not. -/
def isNonPositive : Real64 → Bool
  | .finite negative m _ => negative || m == 0
  | .infinite negative => negative
  | .nan => false

def timesNat (x : Real64) (n : Nat) : Real64 :=
  match x with
  | .finite negative m q =>
    if m = 0 then zero negative
    else
      let (up, down) := scale q
      ofRatio negative (m * up * n) down
  | other => other

/-- The integer part of a finite number, cut toward zero. -/
def truncate? (x : Real64) : Option Int := x.ratio?.map fun (a, b) => a.tdiv b

def toInt? (x : Real64) : Option Int :=
  x.ratio?.bind fun (a, b) => if a % b = 0 then some (a / b) else none

def isFinite (x : Real64) : Bool := x.ratio?.isSome

def ofNumeral (negative : Bool) (whole fraction : List Nat) (exponent : Int) : Real64 :=
  ofDecimal negative (Digits.ofValues (whole ++ fraction)) (exponent - fraction.length)

end Real64
end StepLocator
