import StepLocator.Proofs.Text.Utf8

/-!
What strict reading accepts. Octets that are read as a text are the octets of that text, so reading
and writing are inverse to each other. A character outside ASCII is written without any octet of
ASCII, so a mark of ASCII is found among the octets of a text exactly where it is found in the text.
-/
namespace StepLocator
namespace Utf8

variable {b : UInt8} {rest : Bytes} {c : Char} {needed value lo hi extra total : Nat}

theorem continueWith_eq_char
    (h : continueWith (needed + 1) value lo hi extra rest = .char c total) :
    ∃ b more, rest = b :: more ∧ lo ≤ b.toNat ∧ b.toNat ≤ hi ∧
      continueWith needed (value * 64 + (b.toNat - 0x80)) 0x80 0xBF (extra + 1) more =
        .char c total := by
  cases rest with
  | nil => simp [continueWith] at h
  | cons b more =>
    rw [continueWith] at h
    split at h
    · rename_i hbounds
      exact ⟨b, more, rfl, hbounds.1, hbounds.2, h⟩
    · cases h

theorem toNat_of_char (h : Front.char (Char.ofNat value) extra = .char c total)
    (hvalid : value.isValidChar) : c.toNat = value ∧ total = extra := by
  rw [Front.char.injEq] at h
  obtain ⟨rfl, rfl⟩ := h
  rw [Char.ofNat, dif_pos hvalid]
  exact ⟨rfl, rfl⟩

theorem ofNat_eq_of_toNat {n : Nat} (h : n = b.toNat) : UInt8.ofNat n = b := by
  rw [h, UInt8.ofNat_toNat]

theorem encodeChar_of_front (h : front b rest = .char c extra) :
    ∃ tail more, rest = tail ++ more ∧ tail.length = extra ∧ encodeChar c = b :: tail := by
  have hb : b.toNat < 256 := b.toNat_lt
  simp only [front] at h
  split at h
  · -- one octet
    obtain ⟨hc, rfl⟩ := toNat_of_char h (Or.inl (by omega))
    refine ⟨[], rest, rfl, rfl, ?_⟩
    rw [encodeChar, if_pos (by omega), hc, UInt8.ofNat_toNat]
  split at h
  · cases h
  split at h
  · -- two octets
    obtain ⟨b1, more, rfl, hlo, hhi, h⟩ := continueWith_eq_char h
    obtain ⟨hc, rfl⟩ := toNat_of_char h (Or.inl (by omega))
    refine ⟨[b1], more, rfl, rfl, ?_⟩
    rw [encodeChar, if_neg (by omega), if_pos (by omega), ofNat_eq_of_toNat (b := b) (by omega),
      ofNat_eq_of_toNat (b := b1) (by omega)]
  split at h
  · -- three octets, and no surrogate
    obtain ⟨b1, more, rfl, hlo, hhi, h⟩ := continueWith_eq_char h
    obtain ⟨b2, more, rfl, hlo2, hhi2, h⟩ := continueWith_eq_char h
    have hlow : 0x80 ≤ b1.toNat ∧ (b.toNat = 0xE0 → 0xA0 ≤ b1.toNat) := by split at hlo <;> omega
    have hhigh : b1.toNat ≤ 0xBF ∧ (b.toNat = 0xED → b1.toNat ≤ 0x9F) := by split at hhi <;> omega
    clear hlo hhi
    obtain ⟨hc, rfl⟩ := toNat_of_char h (by rw [Nat.isValidChar]; omega)
    refine ⟨[b1, b2], more, rfl, rfl, ?_⟩
    rw [encodeChar, if_neg (by omega), if_neg (by omega), if_pos (by omega),
      ofNat_eq_of_toNat (b := b) (by omega), ofNat_eq_of_toNat (b := b1) (by omega),
      ofNat_eq_of_toNat (b := b2) (by omega)]
  split at h
  · -- four octets, and nothing past the last character
    obtain ⟨b1, more, rfl, hlo, hhi, h⟩ := continueWith_eq_char h
    obtain ⟨b2, more, rfl, hlo2, hhi2, h⟩ := continueWith_eq_char h
    obtain ⟨b3, more, rfl, hlo3, hhi3, h⟩ := continueWith_eq_char h
    have hlow : 0x80 ≤ b1.toNat ∧ (b.toNat = 0xF0 → 0x90 ≤ b1.toNat) := by split at hlo <;> omega
    have hhigh : b1.toNat ≤ 0xBF ∧ (b.toNat = 0xF4 → b1.toNat ≤ 0x8F) := by split at hhi <;> omega
    clear hlo hhi
    obtain ⟨hc, rfl⟩ := toNat_of_char h (by rw [Nat.isValidChar]; omega)
    refine ⟨[b1, b2, b3], more, rfl, rfl, ?_⟩
    rw [encodeChar, if_neg (by omega), if_neg (by omega), if_neg (by omega),
      ofNat_eq_of_toNat (b := b) (by omega), ofNat_eq_of_toNat (b := b1) (by omega),
      ofNat_eq_of_toNat (b := b2) (by omega), ofNat_eq_of_toNat (b := b3) (by omega)]
  · cases h

theorem decodeFrom_cons_eq_ok {position : Nat} {text : Text}
    (h : decodeFrom position 0 (b :: rest) = .ok text) :
    ∃ c tail more others, text = c :: others ∧ rest = tail ++ more ∧ encodeChar c = b :: tail ∧
      decodeFrom (position + 1 + tail.length) 0 more = .ok others := by
  rw [decodeFrom] at h
  split at h
  · rename_i c extra hfront
    obtain ⟨tail, more, rfl, rfl, hencode⟩ := encodeChar_of_front hfront
    rw [decodeFrom_skip] at h
    cases hmore : decodeFrom (position + 1 + tail.length) 0 more with
    | error fault =>
      rw [hmore] at h
      cases h
    | ok others =>
      rw [hmore] at h
      exact ⟨c, tail, more, others, (Except.ok.inj h).symm, rfl, hencode, hmore⟩
  · cases h

/-- Octets that are read as a text are those of the text. -/
theorem eq_encode_of_decodeFrom {bytes : Bytes} {position : Nat} {text : Text}
    (h : decodeFrom position 0 bytes = .ok text) : bytes = encode text := by
  induction text generalizing bytes position with
  | nil =>
    cases bytes with
    | nil => rfl
    | cons b rest =>
      obtain ⟨c, tail, more, others, htext, -⟩ := decodeFrom_cons_eq_ok h
      cases htext
  | cons c text ih =>
    cases bytes with
    | nil => simp [decodeFrom] at h
    | cons b rest =>
      obtain ⟨d, tail, more, others, htext, rfl, hencode, hmore⟩ := decodeFrom_cons_eq_ok h
      cases htext
      rw [encode_cons, hencode, ← ih hmore, List.cons_append]

theorem decode_eq_ok_iff {bytes : Bytes} {text : Text} :
    decode bytes = .ok text ↔ bytes = encode text :=
  ⟨eq_encode_of_decodeFrom, fun h => h ▸ decode_encode text⟩

theorem encodeChar_of_ascii (h : c.toNat < 0x80) : encodeChar c = [UInt8.ofNat c.toNat] := by
  simp [encodeChar, h]

theorem le_of_mem_encodeChar (h : 0x80 ≤ c.toNat) (hb : b ∈ encodeChar c) : 0x80 ≤ b.toNat := by
  have hvalid := toNat_cases c
  have hbyte : ∀ n, 0x80 ≤ n → n < 256 → b = UInt8.ofNat n → 0x80 ≤ b.toNat := by
    rintro n hle hlt rfl
    rwa [toNat_ofNat_of_lt hlt]
  simp only [encodeChar, if_neg (Nat.not_lt.mpr h)] at hb
  split at hb
  · simp only [List.mem_cons, List.not_mem_nil, or_false] at hb
    rcases hb with hb | hb <;> exact hbyte _ (by omega) (by omega) hb
  split at hb
  · simp only [List.mem_cons, List.not_mem_nil, or_false] at hb
    rcases hb with hb | hb | hb <;> exact hbyte _ (by omega) (by omega) hb
  · simp only [List.mem_cons, List.not_mem_nil, or_false] at hb
    rcases hb with hb | hb | hb | hb <;> exact hbyte _ (by omega) (by omega) hb

theorem mem_encodeChar_iff {mark : Char} (h : mark.toNat < 0x80) :
    UInt8.ofNat mark.toNat ∈ encodeChar c ↔ c = mark := by
  have hmark : (UInt8.ofNat mark.toNat).toNat = mark.toNat := toNat_ofNat_of_lt (by omega)
  constructor
  · intro hmem
    by_cases hc : c.toNat < 0x80
    · rw [encodeChar_of_ascii hc, List.mem_singleton, ← UInt8.toNat_inj, hmark,
        toNat_ofNat_of_lt (by omega)] at hmem
      exact Char.toNat_inj.mp hmem.symm
    · have hle := le_of_mem_encodeChar (Nat.not_lt.mp hc) hmem
      omega
  · rintro rfl
    rw [encodeChar_of_ascii h]
    exact List.mem_singleton_self _

/-- A mark of ASCII is found among the octets of a text exactly where it is found in the text. -/
theorem mem_encode_iff {mark : Char} (h : mark.toNat < 0x80) {text : Text} :
    UInt8.ofNat mark.toNat ∈ encode text ↔ mark ∈ text := by
  simp only [encode, List.mem_flatMap, mem_encodeChar_iff h, exists_eq_right]

theorem head?_encode_iff {mark : Char} (h : mark.toNat < 0x80) {text : Text} :
    (encode text).head? = some (UInt8.ofNat mark.toNat) ↔ text.head? = some mark := by
  cases text with
  | nil => simp
  | cons c rest =>
    obtain ⟨b, tail, hencode, -⟩ := front_encodeChar c
    simp only [encode_cons, hencode, List.cons_append, List.head?_cons, Option.some.injEq]
    constructor
    · rintro rfl
      exact (mem_encodeChar_iff h).mp (hencode ▸ List.mem_cons_self)
    · rintro rfl
      rw [encodeChar_of_ascii h, List.cons.injEq] at hencode
      exact hencode.1.symm

end Utf8
end StepLocator
