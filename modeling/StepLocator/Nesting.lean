import StepLocator.Text.Basic

/-!
Things within things: links that lead to links, lists that hold lists. All of it is followed to the
bottom, but only down to a depth that each kind of thing has for itself.
-/
namespace StepLocator
namespace Nesting

def message : Text := "maximum recursion depth exceeded"

end Nesting
end StepLocator
