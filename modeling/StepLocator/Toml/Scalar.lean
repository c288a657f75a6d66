import StepLocator.Data.Value
import StepLocator.Text.Percent

/-!
The parts of a TOML document that hold no other parts: blanks and comments, strings, keys, numbers,
dates and times. A reading gives what it has read and the text after it.
-/
namespace StepLocator
namespace Toml

/-- Why a text is not a TOML document. An integer with too many digits and values that are nested
too deeply are cases of their own. -/
inductive Fault
  | malformed
  | longInteger (digits : Nat)
  | tooDeep
  deriving DecidableEq, Repr

def isBlank (c : Char) : Bool := c == ' ' || c == '\t'

def skipBlanks (text : Text) : Text := text.dropWhile isBlank

def isControl (c : Char) : Bool := (c.toNat < 0x20 && c != '\t') || c.toNat == 0x7F

def isControlInLines (c : Char) : Bool := isControl c && c != '\n'

def skipComment : Text → Except Fault Text
  | '#' :: rest =>
    if (rest.takeWhile (· != '\n')).any isControl then .error .malformed
    else .ok (rest.dropWhile (· != '\n'))
  | text => .ok text

def skipFiller (inComment : Bool) : Text → Except Fault Text
  | [] => .ok []
  | c :: rest =>
    if inComment then
      if c = '\n' then skipFiller false rest
      else if isControl c then .error .malformed
      else skipFiller true rest
    else if isBlank c ∨ c = '\n' then skipFiller false rest
    else if c = '#' then skipFiller true rest
    else .ok (c :: rest)

def isKeyChar (c : Char) : Bool := c.isAlphanum || c == '_' || c == '-'

/-! ## Strings -/

def hexNumber? (digits : Text) : Option Nat :=
  digits.foldl (fun n c => do return (← n) * 16 + (← Percent.hexValue? c)) (some 0)

def readHexChar (count : Nat) (text : Text) : Except Fault (Char × Text) :=
  let digits := text.take count
  if digits.length ≠ count then .error .malformed
  else
    match hexNumber? digits with
    | none => .error .malformed
    | some n => if n.isValidChar then .ok (Char.ofNat n, text.drop count) else .error .malformed

def escaped? : Char → Option Char
  | 'b' => some '\x08'
  | 't' => some '\t'
  | 'n' => some '\n'
  | 'f' => some '\x0c'
  | 'r' => some '\r'
  | '\x22' => some '\x22'
  | '\\' => some '\\'
  | _ => none

/-- What is left after a backslash at the end of a line: all blanks and line ends are skipped.
Blanks may stand before the line end. -/
def skipLineEnd (text : Text) : Except Fault Text :=
  match skipBlanks text with
  | [] => .ok []
  | '\n' :: rest => .ok (rest.dropWhile fun c => isBlank c || c == '\n')
  | _ => .error .malformed

def readEscape (inLines : Bool) : Text → Except Fault (Text × Text)
  | 'u' :: rest => do
    let (c, rest) ← readHexChar 4 rest
    return ([c], rest)
  | 'U' :: rest => do
    let (c, rest) ← readHexChar 8 rest
    return ([c], rest)
  | c :: rest =>
    if inLines ∧ (isBlank c ∨ c = '\n') then (skipLineEnd (c :: rest)).map fun rest => ([], rest)
    else
      match escaped? c with
      | some e => .ok ([e], rest)
      | none => .error .malformed
  | [] => .error .malformed

def readEscapedString (inLines : Bool) : Nat → Text → Except Fault (Text × Text)
  | 0, _ => .error .malformed
  | fuel + 1, text =>
    match text with
    | [] => .error .malformed
    | '\\' :: rest => do
      let (part, rest) ← readEscape inLines rest
      let (more, rest) ← readEscapedString inLines fuel rest
      return (part ++ more, rest)
    | c :: rest =>
      if c = '\x22' ∧ (¬ inLines ∨ rest.take 2 = ['\x22', '\x22']) then
        .ok ([], if inLines then rest.drop 2 else rest)
      else if (if inLines then isControlInLines c else isControl c) then .error .malformed
      else do
        let (more, rest) ← readEscapedString inLines fuel rest
        return (c :: more, rest)

def readPlainString (text : Text) : Except Fault (Text × Text) :=
  let content := text.takeWhile (· != '\x27')
  match text.dropWhile (· != '\x27') with
  | [] => .error .malformed
  | _ :: rest => if content.any isControl then .error .malformed else .ok (content, rest)

def cutAtThree : Text → Option (Text × Text)
  | '\x27' :: '\x27' :: '\x27' :: rest => some ([], rest)
  | c :: rest => (cutAtThree rest).map fun (before, after) => (c :: before, after)
  | [] => none

/-- Up to two more quotes at the end of a string of several lines belong to it. -/
def withExtraQuotes (quote : Char) (content rest : Text) : Text × Text :=
  let extra := (rest.take 2).takeWhile (· == quote)
  (content ++ extra, rest.drop extra.length)

/-- A line end at once after the opening quotes does not count. -/
def skipFirstLineEnd : Text → Text
  | '\n' :: rest => rest
  | text => text

def readPlainLines (text : Text) : Except Fault (Text × Text) :=
  match cutAtThree (skipFirstLineEnd text) with
  | none => .error .malformed
  | some (content, rest) =>
    if content.any isControlInLines then .error .malformed
    else .ok (withExtraQuotes '\x27' content rest)

def readEscapedLines (text : Text) : Except Fault (Text × Text) := do
  let (content, rest) ← readEscapedString true (text.length + 1) (skipFirstLineEnd text)
  return withExtraQuotes '\x22' content rest

def readString? : Text → Option (Except Fault (Text × Text))
  | '\x22' :: '\x22' :: '\x22' :: rest => some (readEscapedLines rest)
  | '\x22' :: rest => some (readEscapedString false (rest.length + 1) rest)
  | '\x27' :: '\x27' :: '\x27' :: rest => some (readPlainLines rest)
  | '\x27' :: rest => some (readPlainString rest)
  | _ => none

/-! ## Keys -/

def readKeyPart (text : Text) : Except Fault (Text × Text) :=
  match text with
  | '\x22' :: rest => readEscapedString false (rest.length + 1) rest
  | '\x27' :: rest => readPlainString rest
  | _ =>
    match text.takeWhile isKeyChar with
    | [] => .error .malformed
    | part => .ok (part, text.dropWhile isKeyChar)

def readKey : Nat → Text → Except Fault (List Text × Text)
  | 0, _ => .error .malformed
  | fuel + 1, text => do
    let (part, rest) ← readKeyPart text
    match skipBlanks rest with
    | '.' :: rest => do
      let (more, rest) ← readKey fuel (skipBlanks rest)
      return (part :: more, rest)
    | rest => return ([part], rest)

/-! ## Dates and times -/

def digits? (count : Nat) (text : Text) : Option (Nat × Text) :=
  let digits := text.take count
  if digits.length = count ∧ digits.all Digits.isAscii then
    some (Digits.toNat digits, text.drop count)
  else none

def pair? (least greatest : Nat) (text : Text) : Option (Nat × Text) := do
  let (n, rest) ← digits? 2 text
  if least ≤ n ∧ n ≤ greatest then some (n, rest) else none

def expect? (c : Char) : Text → Option Text
  | d :: rest => if c = d then some rest else none
  | [] => none

/-- The microseconds that a fraction of a second gives; further digits are cut off. -/
def micros? (text : Text) : Option (Nat × Text) := do
  let rest ← expect? '.' text
  match rest.takeWhile Digits.isAscii with
  | [] => none
  | digits =>
    let six := digits.take 6
    some (Digits.toNat (six ++ List.replicate (6 - six.length) '0'),
      rest.dropWhile Digits.isAscii)

def clock? (text : Text) : Option (Clock × Text) := do
  let (hour, rest) ← pair? 0 23 text
  let rest ← expect? ':' rest
  let (minute, rest) ← pair? 0 59 rest
  let rest ← expect? ':' rest
  let (second, rest) ← pair? 0 59 rest
  let (micro, rest) := (micros? rest).getD (0, rest)
  return (⟨hour, minute, second, micro⟩, rest)

/-- A day; whether it exists is not judged. -/
def day? (text : Text) : Option (Date × Text) := do
  let (year, rest) ← digits? 4 text
  let rest ← expect? '-' rest
  let (month, rest) ← pair? 1 12 rest
  let rest ← expect? '-' rest
  let (day, rest) ← pair? 1 31 rest
  return (⟨year, month, day⟩, rest)

def offset? : Text → Option (Int × Text)
  | 'Z' :: rest => some (0, rest)
  | 'z' :: rest => some (0, rest)
  | c :: rest =>
    if c = '+' ∨ c = '-' then do
      let (hour, rest) ← pair? 0 23 rest
      let rest ← expect? ':' rest
      let (minute, rest) ← pair? 0 59 rest
      let minutes : Int := hour * 60 + minute
      return (if c = '-' then -minutes else minutes, rest)
    else none
  | [] => none

/-- The time of day after a day: behind a letter or a single space. -/
def clockAfterDay? : Text → Option (Clock × Text)
  | c :: rest => if c = 'T' ∨ c = 't' ∨ c = ' ' then clock? rest else none
  | [] => none

/-- A day, a time of day or both, if the text begins with one. A day that does not exist makes the
text malformed. -/
def readMoment? (text : Text) : Option (Except Fault (Moment × Text)) :=
  match day? text with
  | some (day, rest) =>
    if ¬ day.isValid then some (.error .malformed)
    else
      match clockAfterDay? rest with
      | none => some (.ok (.date day, rest))
      | some (clock, rest) =>
        match offset? rest with
        | none => some (.ok (.dateTime day clock none, rest))
        | some (offset, rest) => some (.ok (.dateTime day clock (some offset), rest))
  | none => (clock? text).map fun (clock, rest) => .ok (.time clock, rest)

/-! ## Numbers -/

/-- Further digits of a class, with single underscores between them. -/
def moreDigits (inClass : Char → Bool) : Text → Text × Text
  | '_' :: c :: rest =>
    if inClass c then
      let (digits, rest) := moreDigits inClass rest
      (c :: digits, rest)
    else ([], '_' :: c :: rest)
  | c :: rest =>
    if inClass c then
      let (digits, rest) := moreDigits inClass rest
      (c :: digits, rest)
    else ([], c :: rest)
  | [] => ([], [])

/-- Digits of a class, at least one, with single underscores between them. -/
def groupedDigits? (inClass : Char → Bool) : Text → Option (Text × Text)
  | c :: rest =>
    if inClass c then
      let (digits, rest) := moreDigits inClass rest
      some (c :: digits, rest)
    else none
  | [] => none

def baseOf? : Char → Option Nat
  | 'x' => some 16
  | 'o' => some 8
  | 'b' => some 2
  | _ => none

def inBase (base : Nat) (digits : Text) : Nat :=
  digits.foldl (fun n c => n * base + (Percent.hexValue? c).getD 0) 0

def basedInteger? : Text → Option (Value × Text)
  | '0' :: letter :: rest => do
    let base ← baseOf? letter
    let (digits, rest) ←
      groupedDigits? (fun c => (Percent.hexValue? c).any (· < base)) rest
    return (.int (inBase base digits), rest)
  | _ => none

/-- The whole part of a decimal number: a zero alone, or digits that do not begin with one. -/
def wholePart? : Text → Option (Text × Text)
  | '0' :: rest => some (['0'], rest)
  | text => groupedDigits? Digits.isAscii text

def fractionPart (text : Text) : Text × Text :=
  ((expect? '.' text).bind (groupedDigits? Digits.isAscii)).getD ([], text)

def exponentPart (text : Text) : Option Int × Text :=
  match text with
  | c :: rest =>
    if c = 'e' ∨ c = 'E' then
      let (negative, body) := Integer.splitSign rest
      match groupedDigits? Digits.isAscii body with
      | some (digits, rest) => (some (Integer.signed negative (Digits.toNat digits)), rest)
      | none => (none, text)
    else (none, text)
  | [] => (none, text)

def digitValues (digits : Text) : List Nat := digits.map fun c => c.toNat - '0'.toNat

def readDecimal? (text : Text) : Option (Except Fault (Value × Text)) :=
  let (negative, body) := Integer.splitSign text
  (wholePart? body).map fun (whole, rest) =>
    let (fraction, afterFraction) := fractionPart rest
    let (exponent, after) := exponentPart afterFraction
    if fraction = [] ∧ exponent = none then
      if whole.length > digitLimit then .error (.longInteger whole.length)
      else .ok (.int (Integer.signed negative (Digits.toNat whole)), after)
    else
      .ok (.num (Real64.ofNumeral negative (digitValues whole) (digitValues fraction)
        (exponent.getD 0)), after)

def numberWords : List (Text × Real64) := [
  ("inf", .infinite false), ("nan", .nan), ("-inf", .infinite true), ("+inf", .infinite false),
  ("-nan", .nan), ("+nan", .nan)]

def wordNumber? (text : Text) : Option (Value × Text) :=
  numberWords.findSome? fun (word, x) => (word.isPrefixOf? text).map fun rest => (.num x, rest)

def truthWord? (text : Text) : Option (Value × Text) :=
  [("true".toList, true), ("false".toList, false)].findSome? fun (word, b) =>
    (word.isPrefixOf? text).map fun rest => (.bool b, rest)

def readScalar (text : Text) : Except Fault (Value × Text) :=
  match readString? text with
  | some reading => reading.map fun (t, rest) => (.text t, rest)
  | none =>
    match truthWord? text with
    | some found => .ok found
    | none =>
      match readMoment? text with
      | some reading => reading.map fun (m, rest) => (.moment m, rest)
      | none =>
        match basedInteger? text with
        | some found => .ok found
        | none =>
          match readDecimal? text with
          | some reading => reading
          | none =>
            match wordNumber? text with
            | some found => .ok found
            | none => .error .malformed

end Toml
end StepLocator
