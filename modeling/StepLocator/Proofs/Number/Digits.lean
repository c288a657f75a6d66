import StepLocator.Number.Integer

/-!
Numbers in decimal digits, there and back: what is written of a number is read as the number, unless
it has more digits than a numeral may have.
-/
namespace StepLocator

theorem Text.isPrefixOf?_of_ne {c d : Char} (h : (c == d) = false) (word rest : Text) :
    (c :: word).isPrefixOf? (d :: rest) = none := by
  show (if (c == d) = true then word.isPrefixOf? rest else none) = none
  rw [h, if_neg Bool.false_ne_true]

namespace Digits

theorem isAscii_of_mem_natText {n : Nat} {c : Char} (h : c ∈ natText n) : isAscii c = true := by
  have hdigit := Nat.isDigit_of_mem_toDigits (by decide) (by decide) h
  simpa [isAscii, Char.isDigit, Char.le_def] using hdigit

theorem toNat_of_isAscii {c : Char} (h : isAscii c = true) :
    48 ≤ c.toNat ∧ c.toNat ≤ 57 := by
  simpa [isAscii, Char.le_def, UInt32.le_iff_toNat_le] using h

theorem ne_of_isAscii {c d : Char} (hc : isAscii c = true) (hd : isAscii d = false) : c ≠ d := by
  rintro rfl
  cases hc.symm.trans hd

theorem natText_ne_nil (n : Nat) : natText n ≠ [] := Nat.toDigits_ne_nil

theorem toNat_natText (n : Nat) : toNat (natText n) = n := Nat.ofDigitChars_ten_toDigits

theorem natText_zero : natText 0 = ['0'] := Nat.toDigits_zero 10

theorem natText_head {n : Nat} (h : n ≠ 0) : ∃ c rest, natText n = c :: rest ∧ c ≠ '0' := by
  induction n using Nat.strongRecOn with
  | ind n ih =>
    rcases Nat.lt_or_ge n 10 with hn | hn
    · refine ⟨n.digitChar, [], Nat.toDigits_of_lt_base hn, ?_⟩
      intro e
      have hvalue := Nat.toNat_digitChar_sub_48_of_lt_ten hn
      rw [e] at hvalue
      exact h hvalue.symm
    · obtain ⟨c, rest, hrest, hc⟩ := ih (n / 10) (by omega) (by omega)
      refine ⟨c, rest ++ [(n % 10).digitChar], ?_, hc⟩
      rw [natText, Nat.toDigits_of_base_le (by decide) hn, ← natText, hrest, List.cons_append]

theorem length_natText_le {n : Nat} (h : n < Nat.pow 10 digitLimit) :
    (natText n).length ≤ digitLimit := by
  -- for any limit, since this power is not to be computed
  have hany (limit : Nat) (hlimit : 0 < limit) (h : n < Nat.pow 10 limit) :
      (natText n).length ≤ limit :=
    (Nat.length_toDigits_le_iff (by decide) hlimit).mpr h
  exact hany digitLimit (by decide) h

theorem grouped?_of_ascii {digits : Text} (h : ∀ c ∈ digits, isAscii c = true) :
    grouped? true digits = some (digits.map fun c => c.toNat - '0'.toNat) := by
  induction digits with
  | nil => rfl
  | cons c rest ih =>
    have hc : c ≠ '_' := by
      rintro rfl
      exact absurd (h '_' (by simp)) (by decide)
    have hvalue : value? c = some (c.toNat - '0'.toNat) := by simp [value?, h c (by simp)]
    rw [grouped?, if_neg hc, hvalue, ih fun d hd => h d (by simp [hd])]
    rfl

theorem grouped?_false {digits : Text} (h : digits ≠ []) (hc : '_' ∉ digits) :
    grouped? false digits = grouped? true digits := by
  cases digits with
  | nil => exact absurd rfl h
  | cons c rest =>
    have hne : c ≠ '_' := fun e => hc (by simp [e])
    rw [grouped?, grouped?, if_neg hne, if_neg hne]

theorem ofValues_map (digits : Text) :
    ofValues (digits.map fun c => c.toNat - '0'.toNat) = toNat digits := by
  simp [ofValues, toNat, Nat.ofDigitChars, List.foldl_map, Nat.mul_comm]

end Digits

/-- A number is read from its digits. -/
theorem Integer.read_natText {n : Nat} (h : (natText n).length ≤ digitLimit) :
    Integer.read (natText n) = .ok n := by
  have hall : ∀ c ∈ natText n, Digits.isAscii c = true := fun c => Digits.isAscii_of_mem_natText
  have hsign : splitSign (natText n) = (false, natText n) := by
    cases hd : natText n with
    | nil => rfl
    | cons c rest =>
      have hc := hall c (by simp [hd])
      unfold splitSign
      split
      · rename_i e
        obtain ⟨rfl, -⟩ := List.cons.inj e
        exact absurd hc (by decide)
      · rename_i e
        obtain ⟨rfl, -⟩ := List.cons.inj e
        exact absurd hc (by decide)
      · rfl
  have hunder : '_' ∉ natText n := fun hmem => absurd (hall '_' hmem) (by decide)
  have hnumeral : ∀ c ∈ natText n, (c == '_' || Digits.isAscii c) = true := fun c hc => by
    simp [hall c hc]
  have htake : (natText n ++ []).takeWhile (fun c => c == '_' || Digits.isAscii c) =
      natText n := by
    rw [List.takeWhile_append_of_pos hnumeral, List.takeWhile_nil, List.append_nil]
  have hdrop : (natText n ++ []).dropWhile (fun c => c == '_' || Digits.isAscii c) = [] := by
    rw [List.dropWhile_append_of_pos hnumeral, List.dropWhile_nil]
  rw [List.append_nil] at htake hdrop
  have hlong : ¬ digitLimit < (natText n).length := by omega
  simp only [Integer.read, hsign, htake, hdrop,
    Digits.grouped?_false (Digits.natText_ne_nil n) hunder, Digits.grouped?_of_ascii hall,
    List.length_map, if_neg hlong, if_true, Digits.ofValues_map, Digits.toNat_natText]
  rfl

end StepLocator
