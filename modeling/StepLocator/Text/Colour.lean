import StepLocator.Text.Basic

/-!
The control sequences by which a terminal is told to change colours. They are left out where a text
does not go to a terminal.
-/
namespace StepLocator
namespace Text

def isControlParameter (c : Char) : Bool := c == ';' || c == '?' || ('0' ≤ c && c ≤ '9')

def afterControl? : Text → Option Text
  | '\x1b' :: '[' :: rest =>
    match rest.dropWhile isControlParameter with
    | c :: rest => if c.isAlpha then some rest else none
    | [] => none
  | _ => none

/-- Leave out control sequences; each step takes at least one character, so the length of the text
is fuel enough. -/
def withoutControls : Nat → Text → Text
  | 0, text => text
  | fuel + 1, text =>
    match afterControl? text with
    | some rest => withoutControls fuel rest
    | none =>
      match text with
      | [] => []
      | c :: rest => c :: withoutControls fuel rest

def plain (text : Text) : Text := withoutControls text.length text

end Text
end StepLocator
