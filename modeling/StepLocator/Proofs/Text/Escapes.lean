import StepLocator.Proofs.Text.Percent

/-!
What decoding escapes does to a text that was not encoded. Each escape makes it shorter, so exactly
the texts without escapes are left as they are.
-/
namespace StepLocator

theorem Utf8.decodeLenient_encode_append (text : Text) (rest : Bytes) :
    decodeLenient (encode text ++ rest) = text ++ decodeLenient rest := by
  induction text with
  | nil => rfl
  | cons c more ih =>
    obtain ⟨b, tail, hc, hfront⟩ := front_encodeChar c
    rw [encode_cons, hc, List.append_assoc, List.cons_append, decodeLenient, decodeLenientFrom]
    simp only [hfront]
    rw [decodeLenientFrom_skip]
    exact congrArg (c :: ·) ih

theorem Utf8.length_decodeLenient_le (bytes : Bytes) :
    (decodeLenient bytes).length ≤ bytes.length := by
  have hfrom : ∀ skip, (decodeLenientFrom skip bytes).length ≤ bytes.length := by
    induction bytes with
    | nil => intro skip; simp [decodeLenientFrom]
    | cons b rest ih =>
      intro skip
      cases skip with
      | succ skip =>
        rw [decodeLenientFrom]
        exact Nat.le_trans (ih skip) (Nat.le_succ _)
      | zero =>
        rw [decodeLenientFrom]
        split <;> exact Nat.succ_le_succ (ih _)
  exact hfrom 0

namespace Percent

/-- A text holds an escape: somewhere in it, a percent sign stands before two hexadecimal digits. -/
def HoldsEscape (t : Text) : Prop :=
  ∃ high low, (octet? high low).isSome = true ∧ ['%', high, low] <:+: t

theorem HoldsEscape.mono {s t : Text} (h : HoldsEscape s) (hwithin : s <:+: t) : HoldsEscape t := by
  obtain ⟨high, low, hoctet, hescape⟩ := h
  exact ⟨high, low, hoctet, hescape.trans hwithin⟩

theorem isAscii_of_hexValue? {c : Char} (h : (hexValue? c).isSome = true) : isAscii c = true := by
  have hle : ∀ d : Char, c ≤ d → c.toNat ≤ d.toNat := fun d hd => UInt32.le_iff_toNat_le.mp hd
  rw [isAscii, decide_eq_true_iff]
  unfold hexValue? at h
  split at h
  · exact Nat.lt_of_le_of_lt (hle '9' (And.right ‹_›)) (by decide)
  split at h
  · exact Nat.lt_of_le_of_lt (hle 'f' (And.right ‹_›)) (by decide)
  split at h
  · exact Nat.lt_of_le_of_lt (hle 'F' (And.right ‹_›)) (by decide)
  · cases h

theorem hexValue?_of_octet? {high low : Char} (h : (octet? high low).isSome = true) :
    (hexValue? high).isSome = true ∧ (hexValue? low).isSome = true := by
  unfold octet? at h
  cases hhigh : hexValue? high with
  | none => simp [hhigh] at h
  | some first =>
    cases hlow : hexValue? low with
    | none => simp [hhigh, hlow] at h
    | some second => exact ⟨rfl, rfl⟩

theorem isAscii_of_mem_escape {high low c : Char} (h : (octet? high low).isSome = true)
    (hmem : c ∈ ['%', high, low]) : isAscii c = true := by
  obtain ⟨hhigh, hlow⟩ := hexValue?_of_octet? h
  simp only [List.mem_cons, List.not_mem_nil, or_false] at hmem
  rcases hmem with rfl | rfl | rfl
  · decide
  · exact isAscii_of_hexValue? hhigh
  · exact isAscii_of_hexValue? hlow

theorem holdsEscape_cons_iff {c : Char} {t : Text} :
    HoldsEscape (c :: t) ↔
      (∃ high low, (octet? high low).isSome = true ∧ ['%', high, low] <+: c :: t) ∨
        HoldsEscape t := by
  simp only [HoldsEscape, List.infix_cons_iff, and_or_left, exists_or]

/-- A word that is found around a character that it does not hold is found on one side of it. -/
theorem infix_or_infix_of_notMem {word s t : Text} {c : Char} (hc : c ∉ word)
    (h : word <:+: s ++ c :: t) : word <:+: s ∨ word <:+: t := by
  induction s with
  | nil =>
    rcases List.infix_cons_iff.mp h with hprefix | hwithin
    · cases word with
      | nil => exact .inl (List.infix_refl _)
      | cons d more =>
        obtain ⟨rfl, -⟩ := List.cons_prefix_cons.mp hprefix
        exact absurd List.mem_cons_self hc
    · exact .inr hwithin
  | cons d s ih =>
    rcases List.infix_cons_iff.mp h with hprefix | hwithin
    · -- two beginnings of one text: the word cannot reach the character
      have hwhole : (d :: s) ++ [c] <+: (d :: s) ++ c :: t := ⟨t, by simp⟩
      rcases List.prefix_or_prefix_of_prefix hprefix hwhole with hword | hword
      · rcases List.prefix_concat_iff.mp hword with rfl | hfront
        · exact absurd (List.mem_append_right _ List.mem_cons_self) hc
        · exact .inl hfront.isInfix
      · exact absurd (hword.subset (List.mem_append_right _ List.mem_cons_self)) hc
    · rcases ih hwithin with hleft | hright
      · exact .inl (hleft.trans (List.suffix_cons d s).isInfix)
      · exact .inr hright

theorem holdsEscape_append_cons {s t : Text} {c : Char} (hc : isAscii c = false)
    (h : HoldsEscape (s ++ c :: t)) : HoldsEscape s ∨ HoldsEscape t := by
  obtain ⟨high, low, hoctet, hescape⟩ := h
  have hnotMem : c ∉ ['%', high, low] := fun hmem => by
    rw [isAscii_of_mem_escape hoctet hmem] at hc
    cases hc
  exact (infix_or_infix_of_notMem hnotMem hescape).imp (fun hleft => ⟨high, low, hoctet, hleft⟩)
    fun hright => ⟨high, low, hoctet, hright⟩

theorem octets_of_not_holdsEscape {t : Text} (h : ¬ HoldsEscape t) :
    octets t = t.map fun c => UInt8.ofNat c.toNat := by
  fun_induction octets t with
  | case1 => rfl
  | case2 high low rest b hoctet ih =>
    refine absurd ⟨high, low, ?_, List.prefix_append ['%', high, low] rest |>.isInfix⟩ h
    rw [hoctet]
    rfl
  | case3 high low rest hoctet ih =>
    rw [ih fun hrest => h (holdsEscape_cons_iff.mpr (.inr hrest))]
    rfl
  | case4 c rest hne ih =>
    rw [ih fun hrest => h (holdsEscape_cons_iff.mpr (.inr hrest))]
    rfl

theorem length_octets_le (t : Text) : (octets t).length ≤ t.length := by
  fun_induction octets t with
  | case1 => exact Nat.le_refl 0
  | case2 high low rest b hoctet ih =>
    simp only [List.length_cons]
    omega
  | case3 high low rest hoctet ih => exact Nat.succ_le_succ ih
  | case4 c rest hne ih => exact Nat.succ_le_succ ih

theorem length_octets_lt {t : Text} (h : HoldsEscape t) : (octets t).length < t.length := by
  fun_induction octets t with
  | case1 =>
    obtain ⟨high, low, -, hescape⟩ := h
    cases List.infix_nil.mp hescape
  | case2 high low rest b hoctet ih =>
    have hle := length_octets_le rest
    simp only [List.length_cons]
    omega
  | case3 high low rest hoctet ih =>
    rcases holdsEscape_cons_iff.mp h with ⟨high', low', hsome, hfront⟩ | hrest
    · simp only [List.cons_prefix_cons] at hfront
      obtain ⟨-, rfl, rfl, -⟩ := hfront
      rw [hoctet] at hsome
      cases hsome
    · exact Nat.succ_lt_succ (ih hrest)
  | case4 c rest hne ih =>
    rcases holdsEscape_cons_iff.mp h with ⟨high, low, -, hfront⟩ | hrest
    · obtain ⟨rfl, more, hmore⟩ := List.cons_prefix_cons.mp hfront
      exact (hne high low more rfl hmore.symm).elim
    · exact Nat.succ_lt_succ (ih hrest)

/-! ### Decoding run by run -/

theorem ascii_induction {motive : Text → Prop}
    (ascii : ∀ t, (∀ c ∈ t, isAscii c = true) → motive t)
    (other : ∀ front c rest, (∀ d ∈ front, isAscii d = true) → isAscii c = false →
      motive front → motive rest → motive (front ++ c :: rest)) (t : Text) : motive t := by
  have hbehind : ∀ front, (∀ d ∈ front, isAscii d = true) → motive (front ++ t) := by
    induction t with
    | nil =>
      intro front hfront
      rw [List.append_nil]
      exact ascii front hfront
    | cons c rest ih =>
      intro front hfront
      cases hc : isAscii c with
      | false => exact other front c rest hfront hc (ascii front hfront) (ih [] (by simp))
      | true =>
        have hmore := ih (front ++ [c]) fun d hd => by
          rcases List.mem_append.mp hd with hd | hd
          · exact hfront d hd
          · rw [List.mem_singleton.mp hd, hc]
        rwa [List.append_assoc] at hmore
  exact hbehind [] (by simp)

theorem decode_of_ascii {t : Text} (h : ∀ c ∈ t, isAscii c = true) :
    decode t = Utf8.decodeLenient (octets t) := decodeRuns_of_ascii h []

/-- A character that is not ASCII is read as it is, and what is around it on its own. -/
theorem decode_append_cons {front : Text} {c : Char} (h : ∀ d ∈ front, isAscii d = true)
    (hc : isAscii c = false) (rest : Text) :
    decode (front ++ c :: rest) = decode front ++ c :: decode rest := by
  have hruns : ∀ run, decodeRuns run (front ++ c :: rest) =
      decodeRuns run front ++ c :: decode rest := by
    induction front with
    | nil =>
      intro run
      simp [decodeRuns, hc, decode]
    | cons d more ih =>
      intro run
      have hd := h d List.mem_cons_self
      rw [List.cons_append, decodeRuns, if_pos hd, decodeRuns, if_pos hd,
        ih fun e he => h e (List.mem_cons_of_mem _ he)]
  exact hruns []

/-- A text without escapes is left as it is. -/
theorem decode_of_not_holdsEscape {t : Text} (h : ¬ HoldsEscape t) : decode t = t := by
  induction t using ascii_induction with
  | ascii t ht =>
    have hbelow : ∀ c ∈ t, c.toNat < 0x80 := fun c hc => by simpa [isAscii] using ht c hc
    rw [decode_of_ascii ht, octets_of_not_holdsEscape h, ← Utf8.encode_of_ascii hbelow,
      Utf8.decodeLenient_encode]
  | other front c rest hfront hc ihfront ihrest =>
    have hleft : ¬ HoldsEscape front := fun hescape =>
      h (hescape.mono (List.prefix_append _ _).isInfix)
    have hright : ¬ HoldsEscape rest := fun hescape =>
      h (hescape.mono ((List.suffix_cons c rest).trans (List.suffix_append _ _)).isInfix)
    rw [decode_append_cons hfront hc, ihfront hleft, ihrest hright]

theorem length_decode_le (t : Text) : (decode t).length ≤ t.length := by
  induction t using ascii_induction with
  | ascii t ht =>
    rw [decode_of_ascii ht]
    exact Nat.le_trans (Utf8.length_decodeLenient_le _) (length_octets_le t)
  | other front c rest hfront hc ihfront ihrest =>
    rw [decode_append_cons hfront hc, List.length_append, List.length_append, List.length_cons,
      List.length_cons]
    omega

theorem length_decode_lt {t : Text} (h : HoldsEscape t) : (decode t).length < t.length := by
  induction t using ascii_induction with
  | ascii t ht =>
    rw [decode_of_ascii ht]
    exact Nat.lt_of_le_of_lt (Utf8.length_decodeLenient_le _) (length_octets_lt h)
  | other front c rest hfront hc ihfront ihrest =>
    have hfrontle := length_decode_le front
    have hrestle := length_decode_le rest
    rw [decode_append_cons hfront hc, List.length_append, List.length_append, List.length_cons,
      List.length_cons]
    rcases holdsEscape_append_cons hc h with hleft | hright
    · have hless := ihfront hleft
      omega
    · have hless := ihrest hright
      omega

theorem decode_append_of_ascii {front : Text} (hfront : ∀ c ∈ front, isAscii c = true)
    (hno : '%' ∉ front) (t : Text) : decode (front ++ t) = front ++ decode t := by
  have hboth : ∀ t, (∀ c ∈ t, isAscii c = true) → ∀ c ∈ front ++ t, isAscii c = true :=
    fun t ht c hc => (List.mem_append.mp hc).elim (hfront c) (ht c)
  induction t using ascii_induction with
  | ascii t ht =>
    rw [decode_of_ascii (hboth t ht), decode_of_ascii ht, octets_append_of_ascii hfront hno,
      Utf8.decodeLenient_encode_append]
  | other begin c rest hbegin hc ihbegin ihrest =>
    rw [← List.append_assoc, decode_append_cons (hboth begin hbegin) hc, ihbegin,
      decode_append_cons hbegin hc, List.append_assoc]

end Percent
end StepLocator
