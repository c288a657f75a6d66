import StepLocator.Text.Basic

/-!
The blank characters that trimming removes, and the smaller class that may stand around the text
of a number.
-/
namespace StepLocator
namespace Text

/-- The blanks outside ASCII: the next-line and no-break spaces, the spaces of typography and the
line and paragraph separators. -/
def isWideBlank (c : Char) : Bool :=
  let n := c.toNat
  n == 0x85 || n == 0xA0 || n == 0x1680 || (0x2000 ≤ n && n ≤ 0x200A) || n == 0x2028 ||
    n == 0x2029 || n == 0x202F || n == 0x205F || n == 0x3000

/-- Tab, line feed, vertical tab, form feed, carriage return and the space. -/
def isNarrowBlank (c : Char) : Bool := (9 ≤ c.toNat && c.toNat ≤ 13) || c.toNat == 32

/-- A blank: also the four information separators of ASCII. -/
def isBlank (c : Char) : Bool :=
  isNarrowBlank c || (0x1C ≤ c.toNat && c.toNat ≤ 0x1F) || isWideBlank c

/-- A blank that may surround a number: the information separators may not. -/
def isNumberBlank (c : Char) : Bool := isNarrowBlank c || isWideBlank c

def strip (text : Text) : Text := trim isBlank text

end Text
end StepLocator
