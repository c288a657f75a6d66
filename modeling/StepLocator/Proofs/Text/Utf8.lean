import StepLocator.Text.Utf8

/-!
UTF-8 there and back. The octets of a character are read as this character whatever follows them, so
the octets of a text are read as the text, strictly and leniently.
-/
namespace StepLocator
namespace Utf8

theorem toNat_ofNat_of_lt {n : Nat} (h : n < 256) : (UInt8.ofNat n).toNat = n := by
  simp [UInt8.toNat_ofNat', Nat.mod_eq_of_lt h]

theorem continueWith_succ {needed value lo hi extra n : Nat} {rest : Bytes} (hn : n < 256)
    (hlo : lo ≤ n) (hhi : n ≤ hi) :
    continueWith (needed + 1) value lo hi extra (UInt8.ofNat n :: rest) =
      continueWith needed (value * 64 + (n - 0x80)) 0x80 0xBF (extra + 1) rest := by
  have hb := toNat_ofNat_of_lt hn
  simp [continueWith, hb, hlo, hhi]

theorem continueWith_zero {value lo hi extra : Nat} {rest : Bytes} {c : Char}
    (h : value = c.toNat) : continueWith 0 value lo hi extra rest = .char c extra := by
  rw [continueWith, h, Char.ofNat_toNat]

theorem toNat_cases (c : Char) : c.toNat < 0xD800 ∨ 0xDFFF < c.toNat ∧ c.toNat < 0x110000 :=
  c.valid

/-- What the octets of a character begin with is the character, whatever follows. -/
theorem front_encodeChar (c : Char) :
    ∃ b tail, encodeChar c = b :: tail ∧
      ∀ rest, front b (tail ++ rest) = .char c tail.length := by
  have hvalid := toNat_cases c
  by_cases h1 : c.toNat < 0x80
  · refine ⟨UInt8.ofNat c.toNat, [], by simp [encodeChar, h1], fun rest => ?_⟩
    have hb := toNat_ofNat_of_lt (n := c.toNat) (by omega)
    simp [front, hb, h1]
  by_cases h2 : c.toNat < 0x800
  · refine ⟨UInt8.ofNat (0xC0 + c.toNat / 64), [UInt8.ofNat (0x80 + c.toNat % 64)],
      by simp [encodeChar, h1, h2], fun rest => ?_⟩
    have hb := toNat_ofNat_of_lt (n := 0xC0 + c.toNat / 64) (by omega)
    have hlow : ¬ 0xC0 + c.toNat / 64 < 0x80 := by omega
    have hlong : ¬ 0xC0 + c.toNat / 64 < 0xC2 := by omega
    have htwo : 0xC0 + c.toNat / 64 < 0xE0 := by omega
    simp only [front, hb, hlow, hlong, htwo, if_false, if_true, List.cons_append]
    rw [continueWith_succ (by omega) (by omega) (by omega)]
    exact continueWith_zero (by omega)
  by_cases h3 : c.toNat < 0x10000
  · refine ⟨UInt8.ofNat (0xE0 + c.toNat / 4096), [UInt8.ofNat (0x80 + c.toNat / 64 % 64),
      UInt8.ofNat (0x80 + c.toNat % 64)], by simp [encodeChar, h1, h2, h3], fun rest => ?_⟩
    have hb := toNat_ofNat_of_lt (n := 0xE0 + c.toNat / 4096) (by omega)
    have hlow : ¬ 0xE0 + c.toNat / 4096 < 0x80 := by omega
    have hlong : ¬ 0xE0 + c.toNat / 4096 < 0xC2 := by omega
    have htwo : ¬ 0xE0 + c.toNat / 4096 < 0xE0 := by omega
    have hthree : 0xE0 + c.toNat / 4096 < 0xF0 := by omega
    simp only [front, hb, hlow, hlong, htwo, hthree, if_false, if_true, List.cons_append]
    -- no overlong form, and no surrogate
    rw [continueWith_succ (by omega) (by split <;> omega) (by split <;> omega),
      continueWith_succ (by omega) (by omega) (by omega)]
    exact continueWith_zero (by omega)
  · refine ⟨UInt8.ofNat (0xF0 + c.toNat / 262144), [UInt8.ofNat (0x80 + c.toNat / 4096 % 64),
      UInt8.ofNat (0x80 + c.toNat / 64 % 64), UInt8.ofNat (0x80 + c.toNat % 64)],
      by simp [encodeChar, h1, h2, h3], fun rest => ?_⟩
    have hb := toNat_ofNat_of_lt (n := 0xF0 + c.toNat / 262144) (by omega)
    have hlow : ¬ 0xF0 + c.toNat / 262144 < 0x80 := by omega
    have hlong : ¬ 0xF0 + c.toNat / 262144 < 0xC2 := by omega
    have htwo : ¬ 0xF0 + c.toNat / 262144 < 0xE0 := by omega
    have hthree : ¬ 0xF0 + c.toNat / 262144 < 0xF0 := by omega
    have hfour : 0xF0 + c.toNat / 262144 < 0xF5 := by omega
    simp only [front, hb, hlow, hlong, htwo, hthree, hfour, if_false, if_true, List.cons_append]
    -- no overlong form, and nothing past the last character
    rw [continueWith_succ (by omega) (by split <;> omega) (by split <;> omega),
      continueWith_succ (by omega) (by omega) (by omega),
      continueWith_succ (by omega) (by omega) (by omega)]
    exact continueWith_zero (by omega)

theorem decodeFrom_skip (position : Nat) (skipped rest : Bytes) :
    decodeFrom position skipped.length (skipped ++ rest) =
      decodeFrom (position + skipped.length) 0 rest := by
  induction skipped generalizing position with
  | nil => rfl
  | cons b more ih =>
    rw [List.length_cons, List.cons_append, decodeFrom, ih, Nat.add_right_comm, Nat.add_assoc]

theorem decodeLenientFrom_skip (skipped rest : Bytes) :
    decodeLenientFrom skipped.length (skipped ++ rest) = decodeLenientFrom 0 rest := by
  induction skipped with
  | nil => rfl
  | cons b more ih => rw [List.length_cons, List.cons_append, decodeLenientFrom, ih]

/-- The octets of a text are read as the text. -/
theorem decodeFrom_encode (position : Nat) (text : Text) :
    decodeFrom position 0 (encode text) = .ok text := by
  induction text generalizing position with
  | nil => simp [decodeFrom]
  | cons c rest ih =>
    obtain ⟨b, tail, hc, hfront⟩ := front_encodeChar c
    rw [encode_cons, hc, List.cons_append, decodeFrom]
    simp only [hfront]
    rw [decodeFrom_skip, ih]
    rfl

theorem decode_encode (text : Text) : decode (encode text) = .ok text := decodeFrom_encode 0 text

theorem decodeLenient_encode (text : Text) : decodeLenient (encode text) = text := by
  induction text with
  | nil => rfl
  | cons c rest ih =>
    obtain ⟨b, tail, hc, hfront⟩ := front_encodeChar c
    rw [encode_cons, hc, List.cons_append, decodeLenient, decodeLenientFrom]
    simp only [hfront]
    rw [decodeLenientFrom_skip]
    exact congrArg (c :: ·) ih

theorem encode_of_ascii {text : Text} (h : ∀ c ∈ text, c.toNat < 0x80) :
    encode text = text.map fun c => UInt8.ofNat c.toNat := by
  induction text with
  | nil => rfl
  | cons c rest ih =>
    have hc : encodeChar c = [UInt8.ofNat c.toNat] := by simp [encodeChar, h c (by simp)]
    rw [encode_cons, hc, ih fun d hd => h d (by simp [hd])]
    rfl

end Utf8
end StepLocator
