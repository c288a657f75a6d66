import StepLocator.Proofs.Path.Text
import StepLocator.Proofs.Path.Uri
import StepLocator.Proofs.Text.Escapes

/-!
URIs of targets. That of an absolute target is encoded and leads back to it. That of any other holds
the text of the target as it is, and since its reader decodes all the same, it leads back exactly
where the text holds no escape.
-/
namespace StepLocator

theorem intercalate_sublist {sep : Text} {parts parts' : List Text} (h : parts'.Sublist parts) :
    (sep.intercalate parts').Sublist (sep.intercalate parts) := by
  induction h with
  | slnil => exact List.Sublist.refl _
  | @cons parts' parts part _ ih =>
    refine ih.trans ?_
    cases parts with
    | nil => exact List.nil_sublist _
    | cons next more =>
      rw [List.intercalate_cons_cons]
      exact List.sublist_append_right _ _
  | @cons_cons parts' parts part h ih =>
    cases parts' with
    | nil =>
      rw [List.intercalate_singleton]
      cases parts with
      | nil => simp
      | cons next more =>
        rw [List.intercalate_cons_cons, List.append_assoc]
        exact List.sublist_append_left _ _
    | cons next more =>
      have hne : parts ≠ [] := fun e => by
        rw [e] at h
        cases h
      rw [List.intercalate_cons_cons, List.intercalate_cons_of_ne_nil hne]
      exact List.Sublist.append_left ih _

namespace Path

theorem length_joinNames_namesOf_le (text : Text) :
    (joinNames (namesOf text)).length ≤ text.length := by
  have hsublist : (joinNames (namesOf text)).Sublist (List.intercalate ['/'] (text.splitOn '/')) :=
    intercalate_sublist List.filter_sublist
  rw [List.intercalate_splitOn '/'] at hsublist
  exact hsublist.length_le

theorem length_toText_ofText_le {text : Text} (h : (ofText text).isAbsolute = false) :
    (ofText text).toText.length ≤ max 1 text.length := by
  have hhere : (ofText text).anchor = .here := by simpa [isAbsolute] using h
  unfold toText
  split
  · exact Nat.le_max_left 1 _
  · rw [hhere]
    exact Nat.le_trans (length_joinNames_namesOf_le text) (Nat.le_max_right 1 _)

end Path

namespace Uri

open Percent

theorem documentPath_ofTarget {target : Text} (h : (Path.ofText target).isAbsolute = false) :
    documentPath (ofTarget target) = Path.ofText (decode target) := by
  have hscheme : scheme.all isAscii = true := by decide
  have hescape : '%' ∉ scheme := by decide
  have hplain : ofTarget target = scheme ++ target := by
    rw [ofTarget, h]
    rfl
  rw [documentPath, hplain, decode_append_of_ascii (List.all_eq_true.mp hscheme) hescape,
    withoutStart_append]

/-- The URI of a target leads back to the target exactly if the target is absolute or its text holds
no escape. -/
theorem documentPath_ofTarget_eq_iff {target : Path} (h : target.WellFormed) :
    documentPath (ofTarget target.toText) = target ↔
      target.isAbsolute = true ∨ ¬ HoldsEscape target.toText := by
  have hread := Path.ofText_toText h
  cases habsolute : target.isAbsolute with
  | true =>
    have hencoded : ofTarget target.toText = ofPath target := by
      rw [ofTarget, hread, habsolute]
      rfl
    rw [hencoded, documentPath_ofPath, hread]
    simp
  | false =>
    rw [documentPath_ofTarget (by rw [hread, habsolute])]
    simp only [Bool.false_eq_true, false_or]
    constructor
    · -- a decoded escape leaves fewer characters than the path has
      intro heq hescape
      have hless := length_decode_lt hescape
      have hle : (Path.ofText (decode target.toText)).toText.length ≤
          max 1 (decode target.toText).length :=
        Path.length_toText_ofText_le (by rw [heq, habsolute])
      rw [heq] at hle
      obtain ⟨high, low, -, hwithin⟩ := hescape
      have hthree := hwithin.length_le
      simp only [List.length_cons, List.length_nil] at hthree
      omega
    · intro hnone
      rw [decode_of_not_holdsEscape hnone, hread]

end Uri
end StepLocator
