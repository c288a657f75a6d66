import StepLocator.Number.Real64

/-!
Floating-point numbers as people write them: blanks around, a sign in front, digits, a point, an
exponent; or a word for an infinite number or for none at all. What does not read this way may
still do so without its underscores.
-/
namespace StepLocator
namespace Real64

def digitRun (text : Text) : List Nat × Text :=
  ((text.takeWhile Digits.isAscii).filterMap Digits.value?, text.dropWhile Digits.isAscii)

/-- The exponent that makes up the rest of a numeral; zero where nothing is left. -/
def exponent? : Text → Option Int
  | [] => some 0
  | c :: rest =>
    if c = 'e' ∨ c = 'E' then
      let (negative, body) := Integer.splitSign rest
      match digitRun body with
      | ([], _) => none
      | (digits, []) => some (Integer.signed negative (Digits.ofValues digits))
      | _ => none
    else none

def ofNumeralText? (negative : Bool) (text : Text) : Option Real64 :=
  let (whole, rest) := digitRun text
  let (fraction, rest) :=
    match rest with
    | '.' :: rest => digitRun rest
    | rest => ([], rest)
  if whole = [] ∧ fraction = [] then none
  else (exponent? rest).map (ofNumeral negative whole fraction)

def infiniteWords : List Text := ["inf", "infinity"]

def nanWord : Text := "nan"

def readPlain? (text : Text) : Option Real64 :=
  let (negative, body) := Integer.splitSign text
  let word := Text.lower body
  if word ∈ infiniteWords then some (.infinite negative)
  else if word = nanWord then some .nan
  else ofNumeralText? negative body

/-- Read a number. Blanks around it are allowed, or single underscores inside it. -/
def read? (text : Text) : Option Real64 :=
  (readPlain? (Text.trim Text.isNumberBlank text)).orElse fun _ =>
    (Digits.ungrouped? text).bind readPlain?

end Real64
end StepLocator
