/-!
Text as a list of characters, with the few operations on it that the rest of the library uses:
cutting at the first occurrence of a mark, trimming, and the order by character number.
-/
namespace StepLocator

abbrev Text := List Char

instance : Coe String Text := ⟨String.toList⟩

namespace Text

/-- The part before the first mark and the part after it; nothing if the mark does not occur. -/
def cutAt (mark : Char) : Text → Option (Text × Text)
  | [] => none
  | c :: rest =>
    if c = mark then some ([], rest)
    else (cutAt mark rest).map fun (before, after) => (c :: before, after)

def trimLeft (drop : Char → Bool) (text : Text) : Text := text.dropWhile drop

def trimRight (drop : Char → Bool) (text : Text) : Text := (text.reverse.dropWhile drop).reverse

def trim (drop : Char → Bool) (text : Text) : Text := trimRight drop (trimLeft drop text)

/-- The text without the given beginning, or as it is where it begins otherwise. -/
def withoutStart (start text : Text) : Text := (start.isPrefixOf? text).getD text

def endsWith (text ending : Text) : Bool := ending.isSuffixOf text

/-- The order of two texts by the number of their first differing character. -/
def le : Text → Text → Bool
  | [], _ => true
  | _ :: _, [] => false
  | a :: as, b :: bs => a.toNat < b.toNat || (a == b && le as bs)

/-- ASCII letters in lower case; every other character as it is. -/
def lower (text : Text) : Text := text.map Char.toLower

theorem cutAt_eq_some_iff {mark : Char} {text before after : Text} :
    cutAt mark text = some (before, after) ↔
      text = before ++ mark :: after ∧ mark ∉ before := by
  induction text generalizing before with
  | nil => simp [cutAt]
  | cons c rest ih =>
    by_cases hc : c = mark
    · cases before with
      | nil => simp [cutAt, hc]
      | cons b bs => simp only [cutAt, hc, if_true]; grind
    · cases before with
      | nil => simp [cutAt, hc]
      | cons b bs =>
        simp only [cutAt, hc, if_false, Option.map_eq_some_iff, Prod.exists, Prod.mk.injEq,
          List.cons.injEq]
        grind

end Text
end StepLocator
