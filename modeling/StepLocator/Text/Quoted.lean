import StepLocator.Text.Printable
import StepLocator.Text.Utf8

/-!
Quoted text, as messages show it: in single quotes, or in double quotes where the text holds a
single quote and no double one, with a backslash form for every character that cannot be shown.
-/
namespace StepLocator
namespace Text

def hexPadded (width n : Nat) : Text :=
  let digits := Nat.toDigits 16 n
  List.replicate (width - digits.length) '0' ++ digits

/-- The quote that goes around a text: double only if the text holds single quotes alone. -/
def quoteMark (text : Text) : Char :=
  if '\x27' ∈ text ∧ '\x22' ∉ text then '\x22' else '\x27'

def quoteChar (mark c : Char) : Text :=
  if c = mark ∨ c = '\\' then ['\\', c]
  else if c = '\t' then ['\\', 't']
  else if c = '\n' then ['\\', 'n']
  else if c = '\r' then ['\\', 'r']
  else if isPrintable c then [c]
  else if c.toNat < 0x100 then '\\' :: 'x' :: hexPadded 2 c.toNat
  else if c.toNat < 0x10000 then '\\' :: 'u' :: hexPadded 4 c.toNat
  else '\\' :: 'U' :: hexPadded 8 c.toNat

def quoted (text : Text) : Text :=
  let mark := quoteMark text
  mark :: text.flatMap (quoteChar mark) ++ [mark]

end Text

namespace Bytes

/-- The written form of one octet between quotes: only the ASCII characters are shown. -/
def quoteByte (mark : Char) (b : UInt8) : Text :=
  if b.toNat < 0x7F then Text.quoteChar mark (Char.ofNat b.toNat)
  else '\\' :: 'x' :: Text.hexPadded 2 b.toNat

def quoted (bytes : Bytes) : Text :=
  let mark := Text.quoteMark (bytes.map fun b => Char.ofNat b.toNat)
  'b' :: mark :: bytes.flatMap (quoteByte mark) ++ [mark]

end Bytes
end StepLocator
