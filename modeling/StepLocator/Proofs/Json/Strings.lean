import StepLocator.Json.Printer
import StepLocator.Json.Reader
import StepLocator.Proofs.Text.Utf8

/-!
JSON strings there and back. Each character has one written form, which is read as the character as
long as the string goes on behind it; so a quoted text is read as the text.
-/
namespace StepLocator

theorem Percent.hexValue?_digitChar : ∀ n < 16, hexValue? (Nat.digitChar n) = some n := by decide

theorem Text.hexPadded_four {n : Nat} (h : n < 0x10000) :
    hexPadded 4 n = [Nat.digitChar (n / 4096), Nat.digitChar (n / 256 % 16),
      Nat.digitChar (n / 16 % 16), Nat.digitChar (n % 16)] := by
  have hzero : '0' = Nat.digitChar 0 := rfl
  by_cases h1 : n < 16
  · have e1 : n / 4096 = 0 := by omega
    have e2 : n / 256 % 16 = 0 := by omega
    have e3 : n / 16 % 16 = 0 := by omega
    have e4 : n % 16 = n := by omega
    simp [hexPadded, Nat.toDigits_of_lt_base h1, e1, e2, e3, e4, List.replicate]
  by_cases h2 : n < 256
  · have e1 : n / 4096 = 0 := by omega
    have e2 : n / 256 % 16 = 0 := by omega
    have e3 : n / 16 % 16 = n / 16 := by omega
    have hd : Nat.toDigits 16 n = [Nat.digitChar (n / 16), Nat.digitChar (n % 16)] := by
      rw [Nat.toDigits_of_base_le (by decide) (by omega),
        Nat.toDigits_of_lt_base (n := n / 16) (by omega)]
      rfl
    simp [hexPadded, hd, e1, e2, e3, List.replicate]
  by_cases h3 : n < 4096
  · have e1 : n / 4096 = 0 := by omega
    have e2 : n / 16 / 16 = n / 256 % 16 := by omega
    have hd : Nat.toDigits 16 n = [Nat.digitChar (n / 256 % 16), Nat.digitChar (n / 16 % 16),
        Nat.digitChar (n % 16)] := by
      rw [Nat.toDigits_of_base_le (by decide) (by omega),
        Nat.toDigits_of_base_le (n := n / 16) (by decide) (by omega),
        Nat.toDigits_of_lt_base (n := n / 16 / 16) (by omega), e2]
      rfl
    simp [hexPadded, hd, e1]
  · have e1 : n / 16 / 16 / 16 = n / 4096 := by omega
    have e2 : n / 16 / 16 % 16 = n / 256 % 16 := by omega
    have hd : Nat.toDigits 16 n = [Nat.digitChar (n / 4096), Nat.digitChar (n / 256 % 16),
        Nat.digitChar (n / 16 % 16), Nat.digitChar (n % 16)] := by
      rw [Nat.toDigits_of_base_le (by decide) (by omega),
        Nat.toDigits_of_base_le (n := n / 16) (by decide) (by omega),
        Nat.toDigits_of_base_le (n := n / 16 / 16) (by decide) (by omega),
        Nat.toDigits_of_lt_base (n := n / 16 / 16 / 16) (by omega), e1, e2]
      rfl
    simp [hexPadded, hd]

namespace Json

theorem unit?_hexPadded {n : Nat} (h : n < 0x10000) : unit? (Text.hexPadded 4 n) = some n := by
  have h1 := Percent.hexValue?_digitChar (n / 4096) (by omega)
  have h2 := Percent.hexValue?_digitChar (n / 256 % 16) (by omega)
  have h3 := Percent.hexValue?_digitChar (n / 16 % 16) (by omega)
  have h4 := Percent.hexValue?_digitChar (n % 16) (by omega)
  rw [Text.hexPadded_four h]
  simp only [unit?, h1, h2, h3, h4, Option.bind_eq_bind, Option.bind_some, Option.pure_def,
    Option.some.injEq]
  omega

theorem length_hexPadded {n : Nat} (h : n < 0x10000) : (Text.hexPadded 4 n).length = 4 := by
  simp [Text.hexPadded_four h]

theorem readUnit_escape {n : Nat} (h : n < 0x10000) (hno : ¬ (0xD800 ≤ n ∧ n < 0xE000))
    (mark : Text) {more : Text} (hmore : more ≠ []) :
    readUnit mark (Text.hexPadded 4 n ++ more) = .ok (Char.ofNat n, more) := by
  have hlength := length_hexPadded h
  have hdrop : (Text.hexPadded 4 n ++ more).drop 4 = more := List.drop_left' hlength
  have htake : (Text.hexPadded 4 n ++ more).take 4 = Text.hexPadded 4 n := List.take_left' hlength
  have hhigh : ¬ (0xD800 ≤ n ∧ n < 0xDC00 ∧ more.drop 6 ≠ [] ∧ more.take 2 = ['\\', 'u']) := by
    omega
  obtain ⟨c, rest, rfl⟩ := List.exists_cons_of_ne_nil hmore
  simp only [readUnit, hdrop, htake, unit?_hexPadded h, if_neg hhigh, charOfUnit, if_neg hno]

theorem readUnit_pair {n : Nat} (h : n < 0x100000) (mark : Text) {more : Text}
    (hmore : more ≠ []) :
    readUnit mark (Text.hexPadded 4 (0xD800 + n / 0x400) ++
      ('\\' :: 'u' :: (Text.hexPadded 4 (0xDC00 + n % 0x400) ++ more))) =
      .ok (Char.ofNat (0x10000 + n), more) := by
  have hhigh : 0xD800 + n / 0x400 < 0x10000 := by omega
  have hlow : 0xDC00 + n % 0x400 < 0x10000 := by omega
  have hrest : (Text.hexPadded 4 (0xD800 + n / 0x400) ++
      ('\\' :: 'u' :: (Text.hexPadded 4 (0xDC00 + n % 0x400) ++ more))).drop 4 =
        '\\' :: 'u' :: (Text.hexPadded 4 (0xDC00 + n % 0x400) ++ more) :=
    List.drop_left' (length_hexPadded hhigh)
  have hfirst : (Text.hexPadded 4 (0xD800 + n / 0x400) ++
      ('\\' :: 'u' :: (Text.hexPadded 4 (0xDC00 + n % 0x400) ++ more))).take 4 =
        Text.hexPadded 4 (0xD800 + n / 0x400) :=
    List.take_left' (length_hexPadded hhigh)
  have hafter : (Text.hexPadded 4 (0xDC00 + n % 0x400) ++ more).drop 4 = more :=
    List.drop_left' (length_hexPadded hlow)
  have hsecond : (Text.hexPadded 4 (0xDC00 + n % 0x400) ++ more).take 4 =
      Text.hexPadded 4 (0xDC00 + n % 0x400) := List.take_left' (length_hexPadded hlow)
  have hpair : 0xD800 ≤ 0xD800 + n / 0x400 ∧ 0xD800 + n / 0x400 < 0xDC00 ∧ more ≠ [] := by
    exact ⟨by omega, by omega, hmore⟩
  have hlate : 0xDC00 ≤ 0xDC00 + n % 0x400 ∧ 0xDC00 + n % 0x400 < 0xE000 := by omega
  have hvalue : 0x10000 + (0xD800 + n / 0x400 - 0xD800) * 0x400 + (0xDC00 + n % 0x400 - 0xDC00) =
      0x10000 + n := by omega
  simp only [readUnit, hrest, hfirst, unit?_hexPadded hhigh, List.drop_succ_cons, List.drop_zero,
    List.take_succ_cons, List.take_zero, hafter, hsecond, unit?_hexPadded hlow, hvalue, hpair,
    hlate, and_self, ne_eq, not_false_eq_true, if_true]

theorem readString_rest (c : Char) (r : Except Break (Text × Text)) :
    (do let (more, rest) ← r; return (c :: more, rest) : Except Break (Text × Text)) =
      r.map fun (more, rest) => (c :: more, rest) := by
  cases r <;> rfl

theorem readString_plain (opening : Text) (fuel : Nat) {c : Char} (hquote : c ≠ '\x22')
    (hback : c ≠ '\\') (hlow : ¬ c.toNat < 0x20) (more : Text) :
    readString opening (fuel + 1) (c :: more) =
      (readString opening fuel more).map fun (rest, after) => (c :: rest, after) := by
  rw [readString, if_neg hlow, readString_rest]
  all_goals simp [hquote, hback]

theorem readString_letter (opening : Text) (fuel : Nat) {letter c : Char}
    (h : escaped? letter = some c) (more : Text) :
    readString opening (fuel + 1) ('\\' :: letter :: more) =
      (readString opening fuel more).map fun (rest, after) => (c :: rest, after) := by
  have hu : letter ≠ 'u' := by
    rintro rfl
    simp [escaped?] at h
  rw [readString, h]
  · exact readString_rest c _
  all_goals simp [hu]

theorem readString_unit (opening : Text) (fuel : Nat) {c : Char} {digits more : Text}
    (h : readUnit ('u' :: digits) digits = .ok (c, more)) :
    readString opening (fuel + 1) ('\\' :: 'u' :: digits) =
      (readString opening fuel more).map fun (rest, after) => (c :: rest, after) := by
  rw [readString, h]
  exact readString_rest c _

/-- The written forms: a letter behind a backslash, the character itself, its number, or the two
halves of its surrogate pair. -/
theorem escapeChar_cases (c : Char) :
    (∃ letter, escaped? letter = some c ∧ escapeChar c = ['\\', letter]) ∨
    (c ≠ '\x22' ∧ c ≠ '\\' ∧ ¬ c.toNat < 0x20 ∧ escapeChar c = [c]) ∨
    (c.toNat < 0x10000 ∧ escapeChar c = escapeUnit c.toNat) ∨
    ∃ n, c.toNat = 0x10000 + n ∧ escapeChar c =
      escapeUnit (0xD800 + n / 0x400) ++ escapeUnit (0xDC00 + n % 0x400) := by
  by_cases h1 : c = '\x22'
  · exact Or.inl ⟨'\x22', by rw [h1]; rfl, by rw [escapeChar, if_pos h1]⟩
  by_cases h2 : c = '\\'
  · exact Or.inl ⟨'\\', by rw [h2]; rfl, by rw [escapeChar, if_neg h1, if_pos h2]⟩
  by_cases h3 : c = '\n'
  · exact Or.inl ⟨'n', by rw [h3]; rfl, by rw [escapeChar, if_neg h1, if_neg h2, if_pos h3]⟩
  by_cases h4 : c = '\r'
  · exact Or.inl ⟨'r', by rw [h4]; rfl, by
      rw [escapeChar, if_neg h1, if_neg h2, if_neg h3, if_pos h4]⟩
  by_cases h5 : c = '\t'
  · exact Or.inl ⟨'t', by rw [h5]; rfl, by
      rw [escapeChar, if_neg h1, if_neg h2, if_neg h3, if_neg h4, if_pos h5]⟩
  by_cases h6 : c = '\x08'
  · exact Or.inl ⟨'b', by rw [h6]; rfl, by
      rw [escapeChar, if_neg h1, if_neg h2, if_neg h3, if_neg h4, if_neg h5, if_pos h6]⟩
  by_cases h7 : c = '\x0c'
  · exact Or.inl ⟨'f', by rw [h7]; rfl, by
      rw [escapeChar, if_neg h1, if_neg h2, if_neg h3, if_neg h4, if_neg h5, if_neg h6,
        if_pos h7]⟩
  right
  rw [escapeChar, if_neg h1, if_neg h2, if_neg h3, if_neg h4, if_neg h5, if_neg h6, if_neg h7]
  by_cases hplain : 0x20 ≤ c.toNat ∧ c.toNat < 0x7F
  · exact Or.inl ⟨h1, h2, by omega, if_pos hplain⟩
  right
  rw [if_neg hplain]
  by_cases hsmall : c.toNat < 0x10000
  · exact Or.inl ⟨hsmall, if_pos hsmall⟩
  · exact Or.inr ⟨c.toNat - 0x10000, by omega, if_neg hsmall⟩

theorem readString_escapeChar (opening : Text) (fuel : Nat) (c : Char) {more : Text}
    (hmore : more ≠ []) :
    readString opening (fuel + 1) (escapeChar c ++ more) =
      (readString opening fuel more).map fun (rest, after) => (c :: rest, after) := by
  have hvalid := Utf8.toNat_cases c
  rcases escapeChar_cases c with ⟨letter, hletter, hform⟩ | ⟨hquote, hback, hlow, hform⟩ |
    ⟨hsmall, hform⟩ | ⟨n, hn, hform⟩
  · rw [hform]
    exact readString_letter opening fuel hletter more
  · rw [hform]
    exact readString_plain opening fuel hquote hback hlow more
  · have hunit := readUnit_escape hsmall (by omega)
      ('u' :: (Text.hexPadded 4 c.toNat ++ more)) hmore
    rw [Char.ofNat_toNat] at hunit
    rw [hform, escapeUnit]
    exact readString_unit opening fuel hunit
  · have hunit := readUnit_pair (n := n) (by omega) ('u' ::
      (Text.hexPadded 4 (0xD800 + n / 0x400) ++ ('\\' :: 'u' ::
        (Text.hexPadded 4 (0xDC00 + n % 0x400) ++ more)))) hmore
    rw [← hn, Char.ofNat_toNat] at hunit
    rw [hform, List.append_assoc, escapeUnit, escapeUnit]
    exact readString_unit opening fuel hunit

theorem escapeChar_ne_nil (c : Char) : escapeChar c ≠ [] := by
  rcases escapeChar_cases c with ⟨letter, _, hform⟩ | ⟨_, _, _, hform⟩ | ⟨_, hform⟩ | ⟨n, _, hform⟩
  all_goals
    rw [hform]
    simp [escapeUnit]

theorem length_le_escape (text : Text) : text.length ≤ (text.flatMap escapeChar).length := by
  induction text with
  | nil => simp
  | cons c rest ih =>
    have hpos := List.length_pos_iff.mpr (escapeChar_ne_nil c)
    rw [List.flatMap_cons, List.length_append, List.length_cons]
    omega

/-- A text is read from its written form up to the closing quote. -/
theorem readString_escape (opening text rest : Text) {fuel : Nat} (h : text.length < fuel) :
    readString opening fuel (text.flatMap escapeChar ++ '\x22' :: rest) = .ok (text, rest) := by
  induction text generalizing fuel with
  | nil =>
    obtain ⟨n, rfl⟩ := Nat.exists_eq_succ_of_ne_zero (Nat.ne_of_gt h)
    rw [List.flatMap_nil, List.nil_append, readString]
  | cons c text ih =>
    obtain ⟨n, rfl⟩ := Nat.exists_eq_succ_of_ne_zero (Nat.ne_of_gt (Nat.zero_lt_of_lt h))
    have hmore : readString opening n (text.flatMap escapeChar ++ '\x22' :: rest) =
        .ok (text, rest) := ih (by simpa using h)
    rw [List.flatMap_cons, List.append_assoc, readString_escapeChar opening n c (by simp), hmore]
    rfl

end Json
end StepLocator
