import StepLocator.Text.Basic

/-!
Line ends. A text file may end its lines with a line feed, a carriage return or both in a row;
reading makes a line feed of each.
-/
namespace StepLocator
namespace Text

def unifyLineEnds : Text → Text
  | [] => []
  | '\r' :: '\n' :: rest => '\n' :: unifyLineEnds rest
  | '\r' :: rest => '\n' :: unifyLineEnds rest
  | c :: rest => c :: unifyLineEnds rest

/-- The lines of a text; the part after the last line feed counts as a line too. -/
def lines (text : Text) : List Text := text.splitOn '\n'

end Text
end StepLocator
