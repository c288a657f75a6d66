import StepLocator.Client.Frame
import StepLocator.Client.Incoming
import StepLocator.Proofs.Json.RoundTrip

/-!
Frames there and back. A header ends at its only empty line, its one field gives the length of the
body, and the body is read in whatever pieces it comes; so the frame of a message is read as the
message, and what stands behind it stays.
-/
namespace StepLocator

def Text.IsAscii (t : Text) : Prop := ∀ c ∈ t, c.toNat < 0x80

theorem Digits.natText_isAscii (n : Nat) : (natText n).IsAscii := fun c hc => by
  have h := toNat_of_isAscii (isAscii_of_mem_natText hc)
  omega

namespace Frame

def field (n : Nat) : Text := "Content-Length: ".toList ++ natText n

theorem field_isAscii (n : Nat) : (field n).IsAscii := by
  intro c hc
  have hname : ("Content-Length: ".toList.all fun d => d.toNat < 0x80) = true := by decide
  rcases List.mem_append.mp hc with hc | hc
  · simpa using List.all_eq_true.mp hname c hc
  · exact Digits.natText_isAscii n c hc

theorem return_notMem_field (n : Nat) : '\r' ∉ field n := by
  intro h
  rcases List.mem_append.mp h with h | h
  · exact absurd h (by decide)
  · exact absurd (Digits.isAscii_of_mem_natText h) (by decide)

theorem encode_eq (message : Value) :
    encode message = Utf8.encode (field (Utf8.encode (Json.print message)).length) ++
      ([13, 10, 13, 10] ++ Utf8.encode (Json.print message)) := by
  have hend : Utf8.encode headerEnd = [13, 10, 13, 10] := by decide +kernel
  have hparts : ofMessage message = field (Utf8.encode (Json.print message)).length ++
      (headerEnd ++ Json.print message) := by
    rw [← List.append_assoc]
    rfl
  rw [encode, hparts, Utf8.encode_append, Utf8.encode_append, hend]

end Frame

namespace Incoming

theorem splitHeaderFrom_append {seen head : Bytes} (hseen : 13 ∉ seen) (hhead : 13 ∉ head)
    (rest : Bytes) :
    splitHeaderFrom seen (head ++ rest) = splitHeaderFrom (head.reverse ++ seen) rest := by
  induction head generalizing seen with
  | nil => rfl
  | cons b more ih =>
    have hb : 13 ≠ b := fun e => hhead (by simp [e])
    have hmore : 13 ∉ more := fun h => hhead (by simp [h])
    have hnext : 13 ∉ b :: seen := by simp [hb, hseen]
    have hno : (b :: seen).take 4 ≠ reversedEnd := by
      intro e
      have hmem : (13 : UInt8) ∈ (b :: seen).take 4 := by rw [e]; decide
      exact hnext (List.mem_of_mem_take hmem)
    rw [List.cons_append, splitHeaderFrom, if_neg hno, ih hnext hmore]
    simp

theorem splitHeader_append {head : Bytes} (h : 13 ∉ head) (rest : Bytes) :
    splitHeader (head ++ ([13, 10, 13, 10] ++ rest)) = some (head ++ [13, 10, 13, 10], rest) := by
  have hreversed : 13 ∉ head.reverse := by simpa using h
  have htwo : head.reverse.take 2 ≠ [10, 13] := by
    intro e
    have hmem : (13 : UInt8) ∈ head.reverse.take 2 := by rw [e]; decide
    exact hreversed (List.mem_of_mem_take hmem)
  rw [splitHeader, splitHeaderFrom_append (by simp) h, List.append_nil]
  simp [splitHeaderFrom, reversedEnd, htwo]

theorem headerLines_append {head : Bytes} (h : 13 ∉ head) {rest : Bytes} {lines : List Bytes}
    (hrest : headerLines rest = [] :: lines) : headerLines (head ++ rest) = head :: lines := by
  induction head with
  | nil => exact hrest
  | cons b more ih =>
    have hb : b ≠ 13 := fun e => h (by simp [e])
    have hmore := ih fun hm => h (by simp [hm])
    rw [List.cons_append, headerLines, hmore, consLine]
    intro _ e
    exact absurd e hb

theorem splitField_append {name : Bytes} (h : 58 ∉ name) (value : Bytes) :
    splitField (name ++ 58 :: value) = (name, value) := by
  have hname : ∀ b ∈ name, (b != 58) = true := fun b hb => by
    simpa using fun e : b = 58 => h (e ▸ hb)
  rw [splitField, List.takeWhile_append_of_pos hname, List.dropWhile_append_of_pos hname]
  simp

theorem asciiText_encode {t : Text} (h : t.IsAscii) : asciiText (Utf8.encode t) = t := by
  rw [Utf8.encode_of_ascii h]
  induction t with
  | nil => rfl
  | cons c rest ih =>
    have hlt := h c (by simp)
    have hn := Utf8.toNat_ofNat_of_lt (n := c.toNat) (by omega)
    have hsmall : UInt8.ofNat c.toNat < 0x80 := by
      rw [UInt8.lt_iff_toNat_lt, hn]
      exact hlt
    have hrest := ih fun d hd => h d (by simp [hd])
    simpa [asciiText, hsmall, hn, Char.ofNat_toNat] using hrest

theorem stripBytes_cons {bytes : Bytes} (h : ∀ b ∈ bytes, isBlankByte b = false) :
    stripBytes (32 :: bytes) = bytes := by
  have hkeep : ∀ {bs : Bytes}, (∀ b ∈ bs, isBlankByte b = false) →
      bs.dropWhile isBlankByte = bs := by
    intro bs hbs
    cases bs with
    | nil => rfl
    | cons b rest => simp [hbs b (by simp)]
  have hblank : isBlankByte 32 = true := by decide
  rw [stripBytes, List.dropWhile_cons_of_pos hblank, hkeep h, hkeep (by simpa using h),
    List.reverse_reverse]

theorem isBlankByte_of_mem_digits {n : Nat} {b : UInt8} (h : b ∈ Utf8.encode (natText n)) :
    isBlankByte b = false := by
  rw [Utf8.encode_of_ascii (Digits.natText_isAscii n)] at h
  obtain ⟨c, hc, rfl⟩ := List.mem_map.mp h
  have hrange := Digits.toNat_of_isAscii (Digits.isAscii_of_mem_natText hc)
  have hn := Utf8.toNat_ofNat_of_lt (n := c.toNat) (by omega)
  have hlow : ¬ UInt8.ofNat c.toNat ≤ 13 := by
    rw [UInt8.le_iff_toNat_le, hn]
    simp only [UInt8.reduceToNat]
    omega
  have hspace : UInt8.ofNat c.toNat ≠ 32 := by
    intro e
    have := congrArg UInt8.toNat e
    rw [hn] at this
    simp only [UInt8.reduceToNat] at this
    omega
  simp [isBlankByte, hlow, hspace]

theorem return_notMem_encode_field (n : Nat) : 13 ∉ Utf8.encode (Frame.field n) := by
  rw [Utf8.encode_of_ascii (Frame.field_isAscii n)]
  intro hmem
  obtain ⟨c, hc, e⟩ := List.mem_map.mp hmem
  have hlt := Frame.field_isAscii n c hc
  have hc13 : c.toNat = 13 := by
    have := congrArg UInt8.toNat e
    rwa [Utf8.toNat_ofNat_of_lt (by omega)] at this
  have hchar : c = '\r' := by
    rw [← Char.ofNat_toNat c, hc13]
  exact Frame.return_notMem_field n (hchar ▸ hc)

theorem length_natText_le {n : Nat} (h : n ≤ wordLimit) : (natText n).length ≤ digitLimit := by
  have hword : wordLimit < Nat.pow 10 digitLimit := by decide +kernel
  exact Digits.length_natText_le (Nat.lt_of_le_of_lt h hword)

theorem lengthOf_header {n : Nat} (h : (natText n).length ≤ digitLimit) :
    lengthOf 0 (headerLines (Utf8.encode (Frame.field n) ++ [13, 10, 13, 10])) = .ok n := by
  have hlines : headerLines (Utf8.encode (Frame.field n) ++ [13, 10, 13, 10]) =
      [Utf8.encode (Frame.field n), [], []] :=
    headerLines_append (return_notMem_encode_field n) rfl
  have hfield : splitField (Utf8.encode (Frame.field n)) =
      (Utf8.encode "Content-Length".toList, 32 :: Utf8.encode (natText n)) := by
    have hstart : Utf8.encode "Content-Length: ".toList =
        Utf8.encode "Content-Length".toList ++ [58, 32] := by decide +kernel
    have hcolon : 58 ∉ Utf8.encode "Content-Length".toList := by decide +kernel
    show splitField (Utf8.encode ("Content-Length: ".toList ++ natText n)) = _
    rw [Utf8.encode_append, hstart, List.append_assoc, List.cons_append,
      List.singleton_append, splitField_append hcolon]
  have hname : givesLength (Utf8.encode "Content-Length".toList) = true := by decide +kernel
  have hvalue : Integer.read (asciiText (stripBytes (32 :: Utf8.encode (natText n)))) = .ok n := by
    rw [stripBytes_cons fun b => isBlankByte_of_mem_digits,
      asciiText_encode (Digits.natText_isAscii n), Integer.read_natText h]
  have hempty : givesLength [] = false := by decide
  have hnone : splitField [] = ([], []) := rfl
  rw [hlines]
  simp only [lengthOf, hfield, hname, hvalue, hnone, hempty, if_true, Bool.false_eq_true, if_false]

/-- A body that is there is read as it is, whatever the pieces are, and what follows it stays. -/
theorem readBody_append (cuts : List Nat) (body rest : Bytes) :
    ∃ left, readBody cuts body.length (body ++ rest) = some (body, ⟨rest, left⟩) := by
  -- on the cuts; what is left of the body after one piece is read with the cuts behind it
  induction cuts generalizing body with
  | nil =>
    cases hlength : body.length with
    | zero =>
      obtain rfl := List.length_eq_zero_iff.mp hlength
      exact ⟨[], rfl⟩
    | succ n =>
      have henough : ¬ (body ++ rest).length < n + 1 := by
        rw [List.length_append]
        omega
      refine ⟨[], ?_⟩
      rw [readBody, if_neg henough, ← hlength, List.take_left, List.drop_left]
  | cons cut cuts ih =>
    cases hlength : body.length with
    | zero =>
      obtain rfl := List.length_eq_zero_iff.mp hlength
      exact ⟨cut :: cuts, rfl⟩
    | succ n =>
      have hsome : (body ++ rest).isEmpty = false := by
        cases body with
        | nil => simp at hlength
        | cons b more => rfl
      have hsize : min (n + 1) (max cut 1) ≤ body.length := by omega
      obtain ⟨left, hleft⟩ := ih (body.drop (min (n + 1) (max cut 1)))
      have hpiece : (body ++ rest).take (min (n + 1) (max cut 1)) =
          body.take (min (n + 1) (max cut 1)) := List.take_append_of_le_length hsize
      have hmore : (body ++ rest).drop (min (n + 1) (max cut 1)) =
          body.drop (min (n + 1) (max cut 1)) ++ rest := List.drop_append_of_le_length hsize
      have hneed : n + 1 - (body.take (min (n + 1) (max cut 1))).length =
          (body.drop (min (n + 1) (max cut 1))).length := by
        rw [List.length_take, List.length_drop]
        omega
      refine ⟨left, ?_⟩
      simp only [readBody, hsome, Bool.false_eq_true, if_false, hpiece, hmore, hneed, hleft,
        Option.map_some, List.take_append_drop]

/-- A stream that is read in time, and of which a read may ask for as many octets as a word can
count. -/
structure Ready (s : Incoming) : Prop where
  inTime : s.expired = false
  unbounded : ∀ most ∈ s.limit, wordLimit ≤ most

end Incoming

/-- A message that its frame carries: it is read back from its JSON text, and a read may ask for
the octets of that text. -/
structure Frame.Carries (message : Entries) : Prop where
  read : Json.read (Json.print (.table message)) = .ok (.table message)
  fits : (Utf8.encode (Json.print (.table message))).length ≤ Incoming.wordLimit

theorem Frame.Carries.of_readable {message : Entries}
    (h : Json.Readable Json.nestingLimit (.table message))
    (fits : (Utf8.encode (Json.print (.table message))).length ≤ Incoming.wordLimit) :
    Frame.Carries message :=
  ⟨Json.read_print h, fits⟩

namespace Incoming

theorem messageOf_encode {message : Entries} (h : Frame.Carries message) :
    messageOf (Utf8.encode (Json.print (.table message))) = .ok message := by
  simp [messageOf, Utf8.decode_encode, h.read]

theorem length_payload_pos (message : Entries) :
    0 < (Utf8.encode (Json.print (.table message))).length := by
  rw [Json.print, List.cons_append, Utf8.encode_cons, List.length_append]
  have hbrace : (Utf8.encodeChar '\x7b').length = 1 := by decide +kernel
  omega

/-- A frame at the front of a stream is read as its message, and the stream is left behind it. -/
theorem readMessage_frame {s : Incoming} (ready : s.Ready) {message : Entries}
    (h : Frame.Carries message) {rest : Bytes}
    (hbytes : s.bytes = Frame.encode (.table message) ++ rest) :
    ∃ left, s.readMessage = (.ok message, { s with bytes := rest, cuts := left }) := by
  have hheader := lengthOf_header (length_natText_le h.fits)
  have hpos := length_payload_pos message
  have hsplit : splitHeader s.bytes = some (Utf8.encode (Frame.field
      (Utf8.encode (Json.print (.table message))).length) ++ [13, 10, 13, 10],
      Utf8.encode (Json.print (.table message)) ++ rest) := by
    rw [hbytes, Frame.encode_eq, List.append_assoc, List.append_assoc]
    exact splitHeader_append (return_notMem_encode_field _) _
  have hrefuses : s.refuses (Utf8.encode (Json.print (.table message))).length
      (Utf8.encode (Json.print (.table message)) ++ rest) = false := by
    have hlimit : s.limit.any (· < (Utf8.encode (Json.print (.table message))).length) = false := by
      cases hs : s.limit with
      | none => rfl
      | some most =>
        have hmost := ready.unbounded most hs
        have hfits := h.fits
        simp only [Option.any_some, decide_eq_false_iff_not]
        omega
    rw [refuses, hlimit, Bool.false_and]
  obtain ⟨left, hbody⟩ := readBody_append s.cuts (Utf8.encode (Json.print (.table message))) rest
  refine ⟨left, ?_⟩
  have hsign : ¬ ((Utf8.encode (Json.print (.table message))).length : Int) ≤ 0 := by omega
  simp only [readMessage, ready.inTime, Bool.false_eq_true, if_false, hsplit, hheader, hsign,
    Int.toNat_natCast, hrefuses, hbody, messageOf_encode h]

end Incoming
end StepLocator
