import StepLocator.Text.Utf8

/-!
Percent-encoding: an octet is written as a percent sign and two hexadecimal digits. Decoding reads
each run of ASCII characters on its own, takes its octets for UTF-8 leniently, and leaves a percent
sign without two digits after it as it is.
-/
namespace StepLocator
namespace Percent

def hexValue? (c : Char) : Option Nat :=
  if '0' ≤ c ∧ c ≤ '9' then some (c.toNat - '0'.toNat)
  else if 'a' ≤ c ∧ c ≤ 'f' then some (c.toNat - 'a'.toNat + 10)
  else if 'A' ≤ c ∧ c ≤ 'F' then some (c.toNat - 'A'.toNat + 10)
  else none

def octet? (high low : Char) : Option UInt8 := do
  return UInt8.ofNat ((← hexValue? high) * 16 + (← hexValue? low))

/-- The octets of an ASCII text with its escapes replaced. -/
def octets : Text → Bytes
  | [] => []
  | '%' :: high :: low :: rest =>
    match octet? high low with
    | some b => b :: octets rest
    | none => UInt8.ofNat '%'.toNat :: octets (high :: low :: rest)
  | c :: rest => UInt8.ofNat c.toNat :: octets rest

def isAscii (c : Char) : Bool := c.toNat < 0x80

/-- Decode a text; `run` holds the ASCII characters since the last other one, the latest first. -/
def decodeRuns (run : Text) : Text → Text
  | [] => Utf8.decodeLenient (octets run.reverse)
  | c :: rest =>
    if isAscii c then decodeRuns (c :: run) rest
    else Utf8.decodeLenient (octets run.reverse) ++ c :: decodeRuns [] rest

def decode (text : Text) : Text := decodeRuns [] text

/-- The characters that are written as they are: letters, digits and a few marks. -/
def isPlain (c : Char) : Bool :=
  c.isAlphanum || c == '_' || c == '.' || c == '-' || c == '~' || c == '/'

def hexDigit (n : Nat) : Char := (Nat.digitChar n).toUpper

def encodeByte (b : UInt8) : Text :=
  let c := Char.ofNat b.toNat
  if isAscii c && isPlain c then [c]
  else ['%', hexDigit (b.toNat / 16), hexDigit (b.toNat % 16)]

/-- The written form of a text: of each octet of its UTF-8 form. -/
def encode (text : Text) : Text := (Utf8.encode text).flatMap encodeByte

end Percent
end StepLocator
