import StepLocator.Number.Real64

/-!
The shortest text of a floating-point number: the fewest digits that read back as the same number,
and of those the nearest to it. Numbers from 0.0001 up to below 10^16 are written positionally,
others with an exponent of at least two digits.
-/
namespace StepLocator
namespace Real64

/-- Factors that bring a multiple of `2 ^ q` and a multiple of `10 ^ p` to one unit: the first for
the binary side, the second for the decimal side. -/
def commonUnit (q p : Int) : Nat × Nat :=
  (Nat.pow 2 q.toNat * Nat.pow 10 (-p).toNat, Nat.pow 10 p.toNat * Nat.pow 2 (-q).toNat)

def powerAtMost (p : Int) (m : Nat) (q : Int) : Bool :=
  let (a, b) := commonUnit q p
  b ≤ m * a

/-- The exponent of the greatest power of ten that is at most `m * 2 ^ q`, for positive `m`. -/
def decimalExponent (m : Nat) (q : Int) : Int :=
  let guess := ((Nat.log2 m : Int) + q) * 30103 / 100000
  if powerAtMost (guess + 1) m q then guess + 1
  else if powerAtMost guess m q then guess
  else guess - 1

/-- The best numeral with `count` digits for `m * 2 ^ q`, as a multiple of `10 ^ p`: one of the two
neighbours on that grid, if it reads back as the number. All lengths are in quarters of `2 ^ q`, so
that the bounds of the numbers that round to this one are whole. -/
def onGrid (m : Nat) (q : Int) (count : Nat) : Option (Nat × Int) :=
  let p := decimalExponent m q - count + 1
  let (a, b) := commonUnit (q - 2) p
  let middle := 4 * m * a
  let low := (if m = leastFull ∧ q > leastExponent then 4 * m - 1 else 4 * m - 2) * a
  let high := (4 * m + 2) * a
  let readsBack (c : Nat) : Bool :=
    if m % 2 = 0 then low ≤ c * b && c * b ≤ high else low < c * b && c * b < high
  let below := middle / b
  let above := below + 1
  match readsBack below, readsBack above with
  | false, false => none
  | true, false => some (below, p)
  | false, true => some (above, p)
  | true, true =>
    let down := middle - below * b
    let up := above * b - middle
    if down < up then some (below, p)
    else if up < down then some (above, p)
    else some (if below % 2 = 0 then below else above, p)

/-- The digits of the shortest numeral, without zeros at the end, and the place of the point: the
number is the digits after a point, times that power of ten. Seventeen digits always suffice. -/
def shortest (m : Nat) (q : Int) : Text × Int :=
  let (c, p) := ((List.range 17).findSome? fun i => onGrid m q (i + 1)).getD (m, 0)
  let digits := natText c
  (Text.trimRight (· == '0') digits, digits.length + p)

def layout (digits : Text) (point : Int) : Text :=
  if point ≤ -4 ∨ 16 < point then
    let exponent := point - 1
    let size := natText exponent.natAbs
    digits.take 1 ++ (if digits.length > 1 then '.' :: digits.drop 1 else []) ++
      (if exponent < 0 then "e-" else "e+") ++ List.replicate (2 - size.length) '0' ++ size
  else if point ≤ 0 then "0." ++ List.replicate (-point).toNat '0' ++ digits
  else
    let whole := point.toNat
    digits.take whole ++ List.replicate (whole - digits.length) '0' ++ '.' ::
      (if digits.length > whole then digits.drop whole else "0")

def toText : Real64 → Text
  | .nan => "nan"
  | .infinite negative => if negative then "-inf" else "inf"
  | .finite negative m q =>
    let sign : Text := if negative then "-" else ""
    if m = 0 then sign ++ "0.0"
    else
      let (digits, point) := shortest m q
      sign ++ layout digits point

end Real64
end StepLocator
