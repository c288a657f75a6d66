import StepLocator.Proofs.Text.Utf8
import StepLocator.Text.Percent

/-!
Percent-encoding there and back. What is written of a text is ASCII, so it is decoded in one run;
its octets are those of the text, and so the text comes back.
-/
namespace StepLocator
namespace Percent

theorem hexValue?_hexDigit : ∀ n < 16, hexValue? (hexDigit n) = some n := by decide

theorem isAscii_hexDigit : ∀ n < 16, isAscii (hexDigit n) = true := by decide

theorem toNat_ofNat_of_valid {n : Nat} (h : n.isValidChar) : (Char.ofNat n).toNat = n := by
  rw [Char.ofNat, dif_pos h]
  rfl

theorem encodeByte_cases (b : UInt8) :
    (∃ c, c.toNat = b.toNat ∧ isAscii c = true ∧ c ≠ '%' ∧ encodeByte b = [c]) ∨
      encodeByte b = ['%', hexDigit (b.toNat / 16), hexDigit (b.toNat % 16)] := by
  have hb : b.toNat < 256 := b.toNat_lt
  by_cases hplain : (isAscii (Char.ofNat b.toNat) && isPlain (Char.ofNat b.toNat)) = true
  · refine Or.inl ⟨Char.ofNat b.toNat, ?_, (Bool.and_eq_true_iff.mp hplain).1, ?_, ?_⟩
    · exact toNat_ofNat_of_valid (Or.inl (by omega))
    · intro e
      rw [e] at hplain
      exact absurd hplain (by decide)
    · rw [encodeByte]
      exact if_pos hplain
  · right
    rw [encodeByte]
    exact if_neg hplain

theorem isAscii_of_mem_encodeByte {b : UInt8} {c : Char} (h : c ∈ encodeByte b) :
    isAscii c = true := by
  have hb : b.toNat < 256 := b.toNat_lt
  rcases encodeByte_cases b with ⟨d, _, hd, _, hform⟩ | hform
  · rw [hform] at h
    obtain rfl := List.mem_singleton.mp h
    exact hd
  · rw [hform] at h
    simp only [List.mem_cons, List.not_mem_nil, or_false] at h
    rcases h with rfl | rfl | rfl
    · decide
    · exact isAscii_hexDigit _ (by omega)
    · exact isAscii_hexDigit _ (by omega)

theorem isAscii_of_mem_encode {t : Text} {c : Char} (h : c ∈ encode t) : isAscii c = true := by
  obtain ⟨b, _, hc⟩ := List.mem_flatMap.mp h
  exact isAscii_of_mem_encodeByte hc

theorem octets_cons {c : Char} (h : c ≠ '%') (rest : Text) :
    octets (c :: rest) = UInt8.ofNat c.toNat :: octets rest := by
  rw [octets]
  simp [h]

theorem octets_encodeByte (b : UInt8) (rest : Text) :
    octets (encodeByte b ++ rest) = b :: octets rest := by
  have hb : b.toNat < 256 := b.toNat_lt
  rcases encodeByte_cases b with ⟨c, hc, _, hne, hform⟩ | hform
  · have hoctet : UInt8.ofNat c.toNat = b := by rw [hc, UInt8.ofNat_toNat]
    rw [hform, List.singleton_append, octets_cons hne, hoctet]
  · have hhigh := hexValue?_hexDigit (b.toNat / 16) (by omega)
    have hlow := hexValue?_hexDigit (b.toNat % 16) (by omega)
    have hoctet : octet? (hexDigit (b.toNat / 16)) (hexDigit (b.toNat % 16)) = some b := by
      have hsum : b.toNat / 16 * 16 + b.toNat % 16 = b.toNat := by omega
      simp only [octet?, hhigh, hlow, Option.bind_eq_bind, Option.bind_some, Option.pure_def, hsum,
        UInt8.ofNat_toNat]
    simp only [hform, List.cons_append, List.nil_append, octets, hoctet]

theorem octets_encode (t rest : Text) :
    octets (encode t ++ rest) = Utf8.encode t ++ octets rest := by
  have hbytes : ∀ bytes : Bytes,
      octets (bytes.flatMap encodeByte ++ rest) = bytes ++ octets rest := by
    intro bytes
    induction bytes with
    | nil => rfl
    | cons b more ih => rw [List.flatMap_cons, List.append_assoc, octets_encodeByte, ih,
        List.cons_append]
  exact hbytes _

theorem decodeRuns_of_ascii {t : Text} (h : ∀ c ∈ t, isAscii c = true) (run : Text) :
    decodeRuns run t = Utf8.decodeLenient (octets (run.reverse ++ t)) := by
  induction t generalizing run with
  | nil => simp [decodeRuns]
  | cons c rest ih =>
    have hrest := ih (fun d hd => h d (by simp [hd])) (c :: run)
    rw [decodeRuns, if_pos (h c (by simp)), hrest]
    simp

theorem octets_append_of_ascii {front : Text} (h : ∀ c ∈ front, isAscii c = true)
    (hno : '%' ∉ front) (rest : Text) :
    octets (front ++ rest) = Utf8.encode front ++ octets rest := by
  have hascii : ∀ c ∈ front, c.toNat < 0x80 := fun c hc => by simpa [isAscii] using h c hc
  rw [Utf8.encode_of_ascii hascii]
  induction front with
  | nil => rfl
  | cons c more ih =>
    have hc : c ≠ '%' := fun e => hno (by simp [e])
    have hmore := ih (fun d hd => h d (by simp [hd])) (fun hm => hno (by simp [hm]))
      (fun d hd => hascii d (by simp [hd]))
    rw [List.cons_append, octets_cons hc, hmore, List.map_cons, List.cons_append]

/-- What is written of a text is decoded as the text, also behind plain ASCII characters. -/
theorem decode_append_encode {front : Text} (h : ∀ c ∈ front, isAscii c = true)
    (hno : '%' ∉ front) (t : Text) : decode (front ++ encode t) = front ++ t := by
  have hascii : ∀ c ∈ front ++ encode t, isAscii c = true := by
    intro c hc
    rcases List.mem_append.mp hc with hc | hc
    · exact h c hc
    · exact isAscii_of_mem_encode hc
  have hoctets := octets_encode t []
  rw [List.append_nil, octets, List.append_nil] at hoctets
  rw [decode, decodeRuns_of_ascii hascii, List.reverse_nil, List.nil_append,
    octets_append_of_ascii h hno, hoctets, ← Utf8.encode_append, Utf8.decodeLenient_encode]

theorem decode_encode (t : Text) : decode (encode t) = t :=
  @decode_append_encode [] (by simp) (by simp) t

end Percent
end StepLocator
