import StepLocator.Shape.Finding

/-!
Integers read from values of several kinds: truth values count as one and zero, floating-point
numbers count if they have no fractional part, and texts count if they write an integer, perhaps
with a sign, zeros in front, single underscores between the digits and a fraction of zeros.
-/
namespace StepLocator
namespace Shape

/-- Skip zeros and underscores after a leading zero, up to the first other digit or a minus sign.
`last` is the character before. A zero stays where nothing but a fraction or the end follows. -/
def afterZeros (last : Char) : Text → Option Text
  | [] => some [last]
  | c :: rest =>
    if c = '0' ∨ c = '_' then afterZeros c rest
    else if Digits.isAscii c ∨ c = '-' then some (c :: rest)
    else if c = '.' then some (last :: c :: rest)
    else none

/-- The text without zeros in front; it must begin with a digit. -/
def withoutZeros : Text → Option Text
  | [] => none
  | c :: rest =>
    if c = '0' then afterZeros c rest
    else if Digits.isAscii c then some (c :: rest)
    else none

/-- The text without a fraction of zeros; a point alone is no fraction. -/
def withoutFraction (t : Text) : Text :=
  match Text.cutAt '.' t with
  | some (whole, fraction) => if fraction ≠ [] ∧ fraction.all (· == '0') then whole else t
  | none => t

/-- The plain form of an integer text: blanks, a plus sign and what else does not count removed. -/
def plainInteger (t : Text) : Option Text := do
  let t ←
    match Text.trim Text.isNumberBlank t with
    | '+' :: '-' :: _ => none
    | '+' :: rest => withoutZeros rest
    | '-' :: rest => (withoutZeros rest).map ('-' :: ·)
    | rest => withoutZeros rest
  let t := withoutFraction t
  return (Digits.ungrouped? t).getD t

/-- Read an integer in plain form: no sign but a minus, no zero in front of other digits. The length
of the sign and the digits is judged before what follows them. -/
def readPlain (t : Text) : Except IntegerFault Int :=
  let (negative, body) :=
    match t with
    | '-' :: rest => (true, rest)
    | _ => (false, t)
  let digits := body.takeWhile Digits.isAscii
  let length := t.length - body.length + digits.length
  if digits = [] ∨ (digits.head? = some '0' ∧ digits ≠ ['0']) then .error .malformed
  else if digitLimit < length then .error (.tooLong length)
  else if digits = body then .ok (Integer.signed negative (Digits.toNat digits))
  else .error .malformed

/-- An integer from a text: as it stands, or else from its plain form. Only a text that is too long
as it stands is refused for its length. -/
def integerText (t : Text) : Checked Int :=
  match readPlain t with
  | .ok i => .ok i
  | .error (.tooLong _) => Checked.refuse .integerSize
  | .error .malformed =>
    match (plainInteger t).map readPlain with
    | some (.ok i) => .ok i
    | _ => Checked.refuse .integerText

def wordLimit : Nat := 9223372036854775808

/-- A floating-point number without fractional part. Numbers that need more than 64 bits are
refused. -/
def integerNumber (x : Real64) : Checked Int :=
  if ¬ x.isFinite then Checked.refuse .notFinite
  else
    match x.toInt? with
    | none => Checked.refuse .fraction
    | some i => if i.natAbs < wordLimit then .ok i else Checked.refuse .integerSize

def integer : Value → Checked Int
  | .bool b => .ok (if b then 1 else 0)
  | .int i => .ok i
  | .num x => integerNumber x
  | .text t => integerText t
  | _ => Checked.refuse .notInteger

def integerWithin (least greatest : Int) (v : Value) : Checked Int :=
  match integer v with
  | .error e => .error e
  | .ok i =>
    if greatest < i then Checked.refuse (.above greatest)
    else if i < least then Checked.refuse (.below least)
    else .ok i

end Shape
end StepLocator
