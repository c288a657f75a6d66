import StepLocator.Data.Value
import StepLocator.Nesting
import StepLocator.Text.Percent

/-!
Reading JSON text. The names of the numbers that are not finite are read too, control characters
must not stand in a string as they are, and of two entries under one key the later one wins. Lists
and tables may stand in each other down to a depth that is given. A fault tells what was expected
and where: the texts that the functions below carry are what is left to read, and in the end such a
rest is turned into a place.
-/
namespace StepLocator
namespace Json

inductive Cause
  | value
  | propertyName
  | colon
  | comma
  | unterminatedString
  | controlCharacter
  | escape
  | unicodeEscape
  | extraData
  | byteOrderMark
  deriving DecidableEq, Repr

inductive Container
  | list
  | table
  deriving DecidableEq, Repr

/-- Why a text cannot be read: a cause at a position, an integer with too many digits, or a value
within too many others. -/
inductive Fault
  | unexpected (cause : Cause) (line column position : Nat)
  | longInteger (digits : Nat)
  | tooDeep (innermost : Container)
  deriving DecidableEq, Repr

/-- A fault found before the given rest of the text. -/
inductive Break
  | unexpected (cause : Cause) (rest : Text)
  | longInteger (digits : Nat)
  | tooDeep (innermost : Container)

def isSpace (c : Char) : Bool := c == ' ' || c == '\t' || c == '\n' || c == '\r'

def skip (text : Text) : Text := text.dropWhile isSpace

def unit? : Text → Option Nat
  | [a, b, c, d] => do
    return ((← Percent.hexValue? a) * 4096 + (← Percent.hexValue? b) * 256 +
      (← Percent.hexValue? c) * 16 + (← Percent.hexValue? d))
  | _ => none

def escaped? : Char → Option Char
  | '\x22' => some '\x22'
  | '\\' => some '\\'
  | '/' => some '/'
  | 'b' => some '\x08'
  | 'f' => some '\x0c'
  | 'n' => some '\n'
  | 'r' => some '\r'
  | 't' => some '\t'
  | _ => none

/-- The character of one half of a surrogate pair standing alone. -/
def charOfUnit (n : Nat) : Char :=
  if 0xD800 ≤ n ∧ n < 0xE000 then Utf8.replacement else Char.ofNat n

/-- Read the digits of an escape of four hexadecimal digits, and the low half of a surrogate pair
if one follows. `mark` is the text from the letter of the escape on. An escape that ends the text
is broken. -/
def readUnit (mark digits : Text) : Except Break (Char × Text) :=
  let rest := digits.drop 4
  match rest, unit? (digits.take 4) with
  | [], _ => .error (.unexpected .unicodeEscape mark)
  | _, none => .error (.unexpected .unicodeEscape mark)
  | _, some high =>
    if 0xD800 ≤ high ∧ high < 0xDC00 ∧ rest.drop 6 ≠ [] ∧ rest.take 2 = ['\\', 'u'] then
      match unit? ((rest.drop 2).take 4) with
      | none => .error (.unexpected .unicodeEscape (rest.drop 1))
      | some low =>
        if 0xDC00 ≤ low ∧ low < 0xE000 then
          .ok (Char.ofNat (0x10000 + (high - 0xD800) * 0x400 + (low - 0xDC00)), rest.drop 6)
        else .ok (charOfUnit high, rest)
    else .ok (charOfUnit high, rest)

/-- Read a string whose opening quote, the first character of `opening`, has been read. -/
def readString (opening : Text) : Nat → Text → Except Break (Text × Text)
  | 0, _ => .error (.unexpected .unterminatedString opening)
  | fuel + 1, text =>
    match text with
    | [] => .error (.unexpected .unterminatedString opening)
    | '\x22' :: rest => .ok ([], rest)
    | ['\\'] => .error (.unexpected .unterminatedString opening)
    | '\\' :: 'u' :: digits => do
      let (c, rest) ← readUnit ('u' :: digits) digits
      let (more, rest) ← readString opening fuel rest
      return (c :: more, rest)
    | '\\' :: letter :: rest =>
      match escaped? letter with
      | none => .error (.unexpected .escape text)
      | some c => do
        let (more, rest) ← readString opening fuel rest
        return (c :: more, rest)
    | c :: rest =>
      if c.toNat < 0x20 then .error (.unexpected .controlCharacter text)
      else do
        let (more, rest) ← readString opening fuel rest
        return (c :: more, rest)

def digitValues (digits : Text) : List Nat := digits.map fun c => c.toNat - '0'.toNat

/-- A fraction after a whole number: a point with digits after it. -/
def splitFraction : Text → Text × Text
  | '.' :: rest =>
    match rest.takeWhile Digits.isAscii with
    | [] => ([], '.' :: rest)
    | digits => (digits, rest.dropWhile Digits.isAscii)
  | text => ([], text)

def splitExponent (text : Text) : Option Int × Text :=
  match text with
  | c :: rest =>
    if c = 'e' ∨ c = 'E' then
      let (negative, body) := Integer.splitSign rest
      match body.takeWhile Digits.isAscii with
      | [] => (none, text)
      | digits =>
        (some (Integer.signed negative (Digits.toNat digits)), body.dropWhile Digits.isAscii)
    else (none, text)
  | [] => (none, text)

/-- The digits of a whole number: a zero alone, or digits that do not begin with one. -/
def splitWhole : Text → Text × Text
  | '0' :: rest => (['0'], rest)
  | text => (text.takeWhile Digits.isAscii, text.dropWhile Digits.isAscii)

def readNumber (text : Text) : Except Break (Value × Text) :=
  let (negative, body) :=
    match text with
    | '-' :: rest => (true, rest)
    | _ => (false, text)
  match splitWhole body with
  | ([], _) => .error (.unexpected .value text)
  | (whole, rest) =>
    let (fraction, afterFraction) := splitFraction rest
    let (exponent, after) := splitExponent afterFraction
    if fraction = [] ∧ exponent = none then
      if whole.length > digitLimit then .error (.longInteger whole.length)
      else .ok (.int (Integer.signed negative (Digits.toNat whole)), after)
    else
      .ok (.num (Real64.ofNumeral negative (digitValues whole) (digitValues fraction)
        (exponent.getD 0)), after)

def words : List (Text × Value) := [
  ("null", .null), ("true", .bool true), ("false", .bool false), ("NaN", .num .nan),
  ("Infinity", .num (.infinite false)), ("-Infinity", .num (.infinite true))]

def readWord (text : Text) : Option (Value × Text) :=
  words.findSome? fun (word, value) => (word.isPrefixOf? text).map fun rest => (value, rest)

mutual

/-- Read a value that may hold others down to the given depth; the fuel bounds the number of
steps. -/
def readValue : Nat → Nat → Text → Except Break (Value × Text)
  | 0, _, text => .error (.unexpected .value text)
  | fuel + 1, depth, text =>
    match text, depth with
    | '\x22' :: rest, _ => do
      let (t, rest) ← readString text fuel rest
      return (.text t, rest)
    | '[' :: _, 0 => .error (.tooDeep .list)
    | '[' :: rest, depth + 1 =>
      match skip rest with
      | ']' :: after => .ok (.list [], after)
      | rest => do
        let (items, after) ← readItems fuel depth rest
        return (.list items, after)
    | '\x7b' :: _, 0 => .error (.tooDeep .table)
    | '\x7b' :: rest, depth + 1 =>
      match skip rest with
      | '\x7d' :: after => .ok (.table [], after)
      | rest => do
        let (entries, after) ← readEntries fuel depth rest
        return (.table (Entries.insertAll [] entries), after)
    | text, _ =>
      match readWord text with
      | some found => .ok found
      | none => readNumber text

def readItems : Nat → Nat → Text → Except Break (List Value × Text)
  | 0, _, text => .error (.unexpected .value text)
  | fuel + 1, depth, text => do
    let (x, rest) ← readValue fuel depth text
    match skip rest with
    | ']' :: after => return ([x], after)
    | ',' :: after => do
      let (more, after) ← readItems fuel depth (skip after)
      return (x :: more, after)
    | rest => throw (.unexpected .comma rest)

def readEntries : Nat → Nat → Text → Except Break (List (Text × Value) × Text)
  | 0, _, text => .error (.unexpected .value text)
  | fuel + 1, depth, text =>
    match text with
    | '\x22' :: rest => do
      let (key, rest) ← readString text fuel rest
      match skip rest with
      | ':' :: rest => do
        let (v, rest) ← readValue fuel depth (skip rest)
        match skip rest with
        | '\x7d' :: after => return ([(key, v)], after)
        | ',' :: after => do
          let (more, after) ← readEntries fuel depth (skip after)
          return ((key, v) :: more, after)
        | rest => throw (.unexpected .comma rest)
      | rest => throw (.unexpected .colon rest)
    | _ => .error (.unexpected .propertyName text)

end

def Break.locate (text : Text) : Break → Fault
  | .longInteger digits => .longInteger digits
  | .tooDeep innermost => .tooDeep innermost
  | .unexpected cause rest =>
    let position := text.length - rest.length
    let before := text.take position
    .unexpected cause (before.count '\n' + 1) ((before.reverse.takeWhile (· != '\n')).length + 1)
      position

def readWithin (depth : Nat) (text : Text) : Except Fault Value :=
  if text.head? = some (Char.ofNat 0xFEFF) then
    .error (Break.locate text (.unexpected .byteOrderMark text))
  else
    match readValue (2 * text.length + 2) depth (skip text) with
    | .error fault => .error (fault.locate text)
    | .ok (value, rest) =>
      match skip rest with
      | [] => .ok value
      | rest => .error (Break.locate text (.unexpected .extraData rest))

def nestingLimit : Nat := 988

def read (text : Text) : Except Fault Value := readWithin nestingLimit text

def Container.words : Container → Text
  | .list => "array"
  | .table => "object"

def Cause.message : Cause → Text
  | .value => "Expecting value"
  | .propertyName => "Expecting property name enclosed in double quotes"
  | .colon => "Expecting \x27:\x27 delimiter"
  | .comma => "Expecting \x27,\x27 delimiter"
  | .unterminatedString => "Unterminated string starting at"
  | .controlCharacter => "Invalid control character at"
  | .escape => "Invalid \\escape"
  | .unicodeEscape => "Invalid \\uXXXX escape"
  | .extraData => "Extra data"
  | .byteOrderMark => "Unexpected UTF-8 BOM (decode using utf-8-sig)"

def Fault.message : Fault → Text
  | .longInteger digits => tooLongMessage digits
  | .tooDeep innermost =>
    Nesting.message ++ " while decoding a JSON " ++ innermost.words ++ " from a unicode string"
  | .unexpected cause line column position =>
    cause.message ++ ": line " ++ natText line ++ " column " ++ natText column ++ " (char " ++
      natText position ++ ")"

end Json
end StepLocator
