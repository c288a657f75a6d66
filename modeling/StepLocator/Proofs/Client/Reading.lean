import StepLocator.Proofs.Client.Framing

/-!
What comes of reading a message, told by the octets of the stream. The pieces in which a body is
handed out make no difference. Failures that are not those of the client come from a frame that is
garbled: a length that is no number or more than can be asked for, or a body that is not JSON.
-/
namespace StepLocator
namespace Incoming

variable {s : Incoming} {header rest bytes : Bytes} {need : Nat}

theorem refuses_eq_false (asked : ∀ most ∈ s.limit, need ≤ most) (rest : Bytes) :
    s.refuses need rest = false := by
  have hmost : s.limit.any (· < need) = false := by
    cases hlimit : s.limit with
    | none => rfl
    | some most => simpa using asked most hlimit
  rw [refuses, hmost, Bool.false_and]

theorem readBody_eq_none_iff (cuts : List Nat) :
    readBody cuts need bytes = none ↔ bytes.length < need := by
  induction cuts generalizing need bytes with
  | nil => cases need <;> simp [readBody]
  | cons cut cuts ih =>
    cases need with
    | zero => simp [readBody]
    | succ n =>
      cases bytes with
      | nil => simp [readBody]
      | cons b more =>
        have hsize : 0 < min (n + 1) (max cut 1) := by omega
        simp only [readBody, List.isEmpty_cons, Bool.false_eq_true, if_false,
          Option.map_eq_none_iff, ih, List.length_drop, List.length_take]
        omega

theorem readBody_of_le (cuts : List Nat) (h : need ≤ bytes.length) :
    ∃ left, readBody cuts need bytes = some (bytes.take need, ⟨bytes.drop need, left⟩) := by
  obtain ⟨left, hleft⟩ := readBody_append cuts (bytes.take need) (bytes.drop need)
  rw [List.take_append_drop, List.length_take, Nat.min_eq_left h] at hleft
  exact ⟨left, hleft⟩

theorem readBody_eq_some {cuts : List Nat} {body : Bytes} {left : Rest}
    (h : readBody cuts need bytes = some (body, left)) :
    need ≤ bytes.length ∧ body = bytes.take need ∧ left.bytes = bytes.drop need := by
  have hlong : need ≤ bytes.length :=
    Nat.le_of_not_lt fun hshort => by cases ((readBody_eq_none_iff cuts).mpr hshort).symm.trans h
  obtain ⟨_, hread⟩ := readBody_of_le cuts hlong
  obtain ⟨rfl, rfl⟩ := Prod.mk.inj (Option.some.inj (h.symm.trans hread))
  exact ⟨hlong, rfl, rfl⟩

theorem splitHeader_eq_some (h : splitHeader bytes = some (header, rest)) :
    bytes = header ++ rest ∧ ∀ other, splitHeader (header ++ other) = some (header, other) := by
  have hfrom : ∀ seen bytes : Bytes, splitHeaderFrom seen bytes = some (header, rest) →
      ∃ front, header = seen.reverse ++ front ∧ bytes = front ++ rest ∧
        ∀ other, splitHeaderFrom seen (front ++ other) = some (header, other) := by
    intro seen bytes
    induction bytes generalizing seen with
    | nil => simp [splitHeaderFrom]
    | cons b more ih =>
      intro h
      rw [splitHeaderFrom] at h
      split at h
      · rename_i hend
        obtain ⟨rfl, rfl⟩ := Prod.mk.inj (Option.some.inj h)
        exact ⟨[b], by simp, rfl, fun other => by simp [splitHeaderFrom, hend]⟩
      · rename_i hend
        obtain ⟨front, rfl, rfl, hsame⟩ := ih _ h
        refine ⟨b :: front, by simp, rfl, fun other => ?_⟩
        rw [List.cons_append, splitHeaderFrom, if_neg hend, hsame]
  obtain ⟨front, rfl, hbytes, hsame⟩ := hfrom [] bytes h
  exact ⟨hbytes, hsame⟩

/-- What comes of reading from a stream in time. -/
theorem readMessage_outcome (inTime : s.expired = false) :
    s.readMessage.1 =
      match splitHeader s.bytes with
      | none => .error s.dry
      | some (header, rest) =>
        match lengthOf 0 (headerLines header) with
        | .error fault => .error fault
        | .ok length =>
          if length ≤ 0 then .error .invalidLength
          else if s.refuses length.toNat rest then .error .hugeLength
          else if rest.length < length.toNat then .error s.dry
          else messageOf (rest.take length.toNat) := by
  simp only [readMessage, inTime, Bool.false_eq_true, if_false]
  cases splitHeader s.bytes with
  | none => rfl
  | some parts =>
    obtain ⟨header, rest⟩ := parts
    simp only
    cases lengthOf 0 (headerLines header) with
    | error fault => rfl
    | ok length =>
      simp only
      split
      · rfl
      split
      · rfl
      split
      · rename_i hbody
        rw [if_pos ((readBody_eq_none_iff _).mp hbody)]
      · rename_i body left hbody
        obtain ⟨hlong, rfl, _⟩ := readBody_eq_some hbody
        rw [if_neg (Nat.not_lt.mpr hlong)]

/-! ### Whole frames -/

/-- The octets of a frame: a header that ends with them, and a body as long as the header says,
which holds a message. -/
structure IsFrame (header body : Bytes) (message : Entries) : Prop where
  split : splitHeader header = some (header, [])
  fields : lengthOf 0 (headerLines header) = .ok body.length
  positive : 0 < body.length
  message : messageOf body = .ok message

inductive Frames (rest : Bytes) : List Entries → Bytes → Prop
  | none : Frames rest [] rest
  | cons {header body bytes : Bytes} {message : Entries} {messages : List Entries}
    (frame : IsFrame header body message) (more : Frames rest messages bytes) :
    Frames rest (message :: messages) (header ++ body ++ bytes)

theorem Frames.append {messages : List Entries} (h : Frames rest messages bytes) (more : Bytes) :
    Frames (rest ++ more) messages (bytes ++ more) := by
  induction h with
  | none => exact .none
  | cons frame _ ih =>
    rw [List.append_assoc]
    exact .cons frame ih

theorem Frames.concat {messages : List Entries} {body : Bytes} {message : Entries}
    (h : Frames (header ++ body ++ rest) messages bytes) (frame : IsFrame header body message) :
    Frames rest (messages ++ [message]) bytes := by
  induction h with
  | none => exact .cons frame .none
  | cons first _ ih => exact .cons first ih

/-- Reading leaves it as it was whether a stream stays open and what can be asked of it; and a
message that is read was in the frame at its front. -/
theorem readMessage_keeps (s : Incoming) :
    s.readMessage.2.limit = s.limit ∧ s.readMessage.2.heldOpen = s.heldOpen ∧
      ∀ message, s.readMessage.1 = .ok message → ∃ header body, IsFrame header body message ∧
        s.bytes = header ++ body ++ s.readMessage.2.bytes := by
  unfold readMessage
  split
  · exact ⟨rfl, rfl, fun _ h => by cases h⟩
  split
  · exact ⟨rfl, rfl, fun _ h => by cases h⟩
  rename_i header rest hsplit
  split
  · exact ⟨rfl, rfl, fun _ h => by cases h⟩
  rename_i length hlength
  split
  · exact ⟨rfl, rfl, fun _ h => by cases h⟩
  split
  · exact ⟨rfl, rfl, fun _ h => by cases h⟩
  split
  · exact ⟨rfl, rfl, fun _ h => by cases h⟩
  rename_i body left hbody
  refine ⟨rfl, rfl, fun message hmessage => ⟨header, body, ?_, ?_⟩⟩
  · obtain ⟨hlong, rfl, _⟩ := readBody_eq_some hbody
    obtain ⟨hbytes, hsame⟩ := splitHeader_eq_some hsplit
    have htaken := List.length_take_of_le hlong
    refine ⟨by simpa using hsame [], ?_, by omega, hmessage⟩
    rw [hlength, htaken, Int.toNat_of_nonneg (by omega)]
  · obtain ⟨_, rfl, hleft⟩ := readBody_eq_some hbody
    rw [hleft, List.append_assoc, List.take_append_drop]
    exact (splitHeader_eq_some hsplit).1

/-! ### Garbled frames -/

/-- A line of a header by whose name the length of the body is given, without an integer. -/
structure NamesNoLength (line : Bytes) : Prop where
  name : givesLength (splitField line).1 = true
  value : ∀ n, Integer.read (asciiText (stripBytes (splitField line).2)) ≠ .ok n

/-- Octets that are the UTF-8 form of a JSON text, none of whose values is too deep or too long. -/
def IsJson (body : Bytes) : Prop := ∃ text v, Utf8.decode body = .ok text ∧ Json.read text = .ok v

/-- The frame at the front of a stream is garbled: of the lengths in its header one is no number, or
the length is one that cannot be asked for, or the body is all there and is not JSON. -/
inductive Garbled (s : Incoming) : Prop
  | header {header rest line : Bytes} (split : splitHeader s.bytes = some (header, rest))
    (mem : line ∈ headerLines header) (line : NamesNoLength line)
  | length {header rest : Bytes} {length : Nat} (split : splitHeader s.bytes = some (header, rest))
    (fields : lengthOf 0 (headerLines header) = .ok length) (positive : 0 < length)
    (refused : s.refuses length rest = true)
  | body {header rest : Bytes} {length : Nat} (split : splitHeader s.bytes = some (header, rest))
    (fields : lengthOf 0 (headerLines header) = .ok length) (positive : 0 < length)
    (enough : length ≤ rest.length) (body : ¬ IsJson (rest.take length))

/-- The fields of a header fail at a length that is no number, and only there. -/
theorem lengthOf_eq_error_iff (length : Int) (lines : List Bytes) :
    (∃ fault, lengthOf length lines = .error fault) ↔ ∃ line ∈ lines, NamesNoLength line := by
  induction lines generalizing length with
  | nil => simp [lengthOf]
  | cons line rest ih =>
    simp only [List.mem_cons, exists_eq_or_imp]
    rw [lengthOf]
    by_cases hname : givesLength (splitField line).1 = true
    · simp only [hname, if_true]
      cases hvalue : Integer.read (asciiText (stripBytes (splitField line).2)) with
      | ok n =>
        have hline : ¬ NamesNoLength line := fun h => h.value n hvalue
        simp [ih, hline]
      | error fault =>
        have hline : NamesNoLength line := ⟨hname, by simp [hvalue]⟩
        cases fault <;> simp [hline]
    · have hline : ¬ NamesNoLength line := fun h => hname h.name
      simp [hname, ih, hline]

theorem isReported_of_lengthOf {length : Int} {lines : List Bytes} {fault : Fault}
    (h : lengthOf length lines = .error fault) : fault.isReported = false := by
  induction lines generalizing length with
  | nil => cases h
  | cons line rest ih =>
    rw [lengthOf] at h
    by_cases hname : givesLength (splitField line).1 = true
    · simp only [hname, if_true] at h
      split at h
      · exact ih h
      · cases h
        rfl
      · cases h
        rfl
    · simp only [hname] at h
      exact ih h

theorem isReported_dry (s : Incoming) : s.dry.isReported = true := by
  unfold dry
  split <;> rfl

/-- A body fails for another reason than that it is no table exactly if it is not JSON. -/
theorem messageOf_unreported_iff {body : Bytes} :
    (∃ fault, messageOf body = .error fault ∧ fault.isReported = false) ↔ ¬ IsJson body := by
  unfold messageOf IsJson
  cases Utf8.decode body with
  | error fault => simp [Fault.isReported]
  | ok text =>
    cases hread : Json.read text with
    | error fault => simp [hread, Fault.isReported]
    | ok v => cases v <;> simp [hread, Fault.isReported]

theorem garbled_of_unreported (inTime : s.expired = false) {fault : Fault}
    (h : s.readMessage.1 = .error fault) (unreported : fault.isReported = false) : s.Garbled := by
  have hdry : s.dry ≠ fault := by
    rintro rfl
    exact absurd (isReported_dry s) (by simp [unreported])
  rw [readMessage_outcome inTime] at h
  cases hsplit : splitHeader s.bytes with
  | none =>
    simp only [hsplit] at h
    exact absurd (Except.error.inj h) hdry
  | some parts =>
    obtain ⟨header, rest⟩ := parts
    simp only [hsplit] at h
    cases hlength : lengthOf 0 (headerLines header) with
    | error bad =>
      obtain ⟨line, hmem, hline⟩ := (lengthOf_eq_error_iff 0 _).mp ⟨bad, hlength⟩
      exact .header hsplit hmem hline
    | ok length =>
      simp only [hlength] at h
      split at h
      · cases h
        cases unreported
      obtain ⟨n, rfl⟩ := Int.eq_ofNat_of_zero_le (a := length) (by omega)
      have hpositive : 0 < n := by omega
      simp only [Int.toNat_natCast] at h
      split at h
      · exact .length hsplit hlength hpositive ‹_›
      split at h
      · exact absurd (Except.error.inj h) hdry
      · exact .body hsplit hlength hpositive (by omega)
          (messageOf_unreported_iff.mp ⟨fault, h, unreported⟩)

theorem Garbled.unreported (h : s.Garbled) (inTime : s.expired = false) :
    ∃ fault, s.readMessage.1 = .error fault ∧ fault.isReported = false := by
  rw [readMessage_outcome inTime]
  cases h with
  | header split mem line =>
    obtain ⟨fault, hfault⟩ := (lengthOf_eq_error_iff 0 _).mpr ⟨_, mem, line⟩
    exact ⟨fault, by simp only [split, hfault], isReported_of_lengthOf hfault⟩
  | length split fields positive refused =>
    refine ⟨.hugeLength, ?_, rfl⟩
    simp only [split, fields, Int.toNat_natCast, refused, if_true]
    rw [if_neg (by omega)]
  | @body header rest length split fields positive enough body =>
    simp only [split, fields, Int.toNat_natCast]
    rw [if_neg (by omega)]
    by_cases hrefused : s.refuses length rest = true
    · exact ⟨.hugeLength, by rw [if_pos hrefused], rfl⟩
    · obtain ⟨fault, hmessage, hfault⟩ := messageOf_unreported_iff.mpr body
      exact ⟨fault, by rw [if_neg hrefused, if_neg (by omega), hmessage], hfault⟩

/-- A read gives a message or fails as the client does, unless there is time to read and the frame
is garbled; and then it fails otherwise. -/
theorem readMessage_unreported_iff :
    (∃ fault, s.readMessage.1 = .error fault ∧ fault.isReported = false) ↔
      s.expired = false ∧ s.Garbled := by
  cases hexpired : s.expired with
  | true => simp [readMessage, hexpired, Fault.isReported]
  | false =>
    refine ⟨?_, fun h => h.2.unreported hexpired⟩
    rintro ⟨fault, hread, hfault⟩
    exact ⟨rfl, garbled_of_unreported hexpired hread hfault⟩

theorem Garbled.of_eq {t : Incoming} (h : s.Garbled) (bytes : t.bytes = s.bytes)
    (limit : t.limit = s.limit) (heldOpen : t.heldOpen = s.heldOpen) : t.Garbled := by
  cases h with
  | header split mem line => exact .header (bytes ▸ split) mem line
  | length split fields positive refused =>
    refine .length (bytes ▸ split) fields positive ?_
    rwa [refuses, limit, heldOpen]
  | body split fields positive enough body =>
    exact .body (bytes ▸ split) fields positive enough body

end Incoming
end StepLocator
