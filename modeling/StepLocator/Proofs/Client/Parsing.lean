import StepLocator.Proofs.Client.Reading

/-!
A frame read at once. What comes of reading a message is told by the octets alone: where the header
ends, which lines it has, which length they give, and whether the body is all there. The pieces in
which the octets come make no difference, and what is behind the frame is not touched.
-/
namespace StepLocator
namespace Incoming

variable {s t : Incoming} {bytes header rest seen : Bytes} {lines : List Bytes}

/-! ### Headers -/

def lineEnd : Bytes := [13, 10]

/-- The end of a header: an empty line behind the end of another one. -/
def headerEnd : Bytes := [13, 10, 13, 10]

/-- The header at the front of some octets: the fewest of them that end as a header does. -/
structure IsHeader (bytes header rest : Bytes) : Prop where
  split : bytes = header ++ rest
  ends : headerEnd <:+ header
  first : ∀ front, front <+: header → headerEnd <:+ front → front = header

theorem IsHeader.unique {other left : Bytes} (h : IsHeader bytes header rest)
    (h' : IsHeader bytes other left) : header = other ∧ rest = left := by
  have hfront : header <+: bytes := ⟨rest, h.split.symm⟩
  have hfront' : other <+: bytes := ⟨left, h'.split.symm⟩
  have hsame : header = other := by
    rcases List.prefix_or_prefix_of_prefix hfront hfront' with hle | hle
    · exact h'.first header hle h.ends
    · exact (h.first other hle h'.ends).symm
  have hbytes : header ++ rest = header ++ left := by rw [← h.split, h'.split, hsame]
  exact ⟨hsame, List.append_cancel_left hbytes⟩

theorem IsHeader.holds (h : IsHeader bytes header rest) : headerEnd <:+: bytes :=
  List.infix_iff_suffix_prefix.mpr ⟨header, h.ends, rest, h.split.symm⟩

theorem IsHeader.append (h : IsHeader bytes header rest) (other : Bytes) :
    IsHeader (header ++ other) header other :=
  ⟨rfl, h.ends, h.first⟩

theorem take_eq_reversedEnd_iff {b : UInt8} :
    (b :: seen).take 4 = reversedEnd ↔ headerEnd <:+ seen.reverse ++ [b] := by
  have hlength : reversedEnd.length = 4 := rfl
  rw [← List.reverse_cons, ← List.reverse_prefix, List.reverse_reverse, eq_comm,
    List.prefix_iff_eq_take]
  rfl

/-- Octet by octet the end of the header is looked for among those that have been read. -/
theorem splitHeaderFrom_spec (seen bytes : Bytes) :
    match splitHeaderFrom seen bytes with
    | none => ∀ front, front <+: bytes → front ≠ [] → ¬ headerEnd <:+ seen.reverse ++ front
    | some (header, rest) => ∃ front, header = seen.reverse ++ front ∧ bytes = front ++ rest ∧
        headerEnd <:+ header ∧ ∀ part, part <+: front → part ≠ [] →
          headerEnd <:+ seen.reverse ++ part → part = front := by
  induction bytes generalizing seen with
  | nil =>
    intro front hfront hne
    exact absurd (List.prefix_nil.mp hfront) hne
  | cons b more ih =>
    rw [splitHeaderFrom]
    by_cases hend : (b :: seen).take 4 = reversedEnd
    · rw [if_pos hend]
      refine ⟨[b], by simp, rfl, by simpa using take_eq_reversedEnd_iff.mp hend, ?_⟩
      intro part hpart hne _
      rcases List.prefix_cons_iff.mp hpart with rfl | ⟨tail, rfl, htail⟩
      · exact absurd rfl hne
      · rw [List.prefix_nil.mp htail]
    · rw [if_neg hend]
      -- what is read next is the octet and something behind it, or the octet alone
      have hnext {part : Bytes} (hends : headerEnd <:+ seen.reverse ++ b :: part) :
          part ≠ [] ∧ headerEnd <:+ (b :: seen).reverse ++ part := by
        refine ⟨?_, by simpa using hends⟩
        rintro rfl
        exact hend (take_eq_reversedEnd_iff.mpr hends)
      have hmore := ih (b :: seen)
      split at hmore
      · intro front hfront hne hends
        rcases List.prefix_cons_iff.mp hfront with rfl | ⟨tail, rfl, htail⟩
        · exact hne rfl
        · exact hmore tail htail (hnext hends).1 (hnext hends).2
      · obtain ⟨front, rfl, rfl, hends, hfirst⟩ := hmore
        refine ⟨b :: front, by simp, rfl, hends, fun part hpart hne hpartEnds => ?_⟩
        rcases List.prefix_cons_iff.mp hpart with rfl | ⟨tail, rfl, htail⟩
        · exact absurd rfl hne
        · rw [hfirst tail htail (hnext hpartEnds).1 (hnext hpartEnds).2]

theorem isHeader_of_splitHeader (h : splitHeader bytes = some (header, rest)) :
    IsHeader bytes header rest := by
  have hspec := splitHeaderFrom_spec [] bytes
  rw [show splitHeaderFrom [] bytes = some (header, rest) from h] at hspec
  obtain ⟨front, hheader, hbytes, hends, hfirst⟩ := hspec
  rw [List.reverse_nil, List.nil_append] at hheader
  subst hheader
  refine ⟨hbytes, hends, fun part hpart hpartEnds => ?_⟩
  refine hfirst part hpart ?_ (by simpa using hpartEnds)
  rintro rfl
  exact absurd (List.suffix_nil.mp hpartEnds) (by decide)

theorem splitHeader_eq_none_iff : splitHeader bytes = none ↔ ¬ headerEnd <:+: bytes := by
  constructor
  · intro h hinfix
    obtain ⟨front, hends, hfront⟩ := List.infix_iff_suffix_prefix.mp hinfix
    have hspec := splitHeaderFrom_spec [] bytes
    rw [show splitHeaderFrom [] bytes = none from h] at hspec
    refine hspec front hfront ?_ (by simpa using hends)
    rintro rfl
    exact absurd (List.suffix_nil.mp hends) (by decide)
  · intro h
    cases hsplit : splitHeader bytes with
    | none => rfl
    | some parts => exact absurd (isHeader_of_splitHeader hsplit).holds h

/-! ### Lines -/

/-- The lines of a header: between any two of them the end of a line stands, and in none of them. -/
structure Lines (header : Bytes) (lines : List Bytes) : Prop where
  joined : List.intercalate lineEnd lines = header
  whole : ∀ line ∈ lines, ¬ lineEnd <:+: line
  some : lines ≠ []

theorem intercalate_consLine (b : UInt8) {lines : List Bytes} (h : lines ≠ []) :
    List.intercalate lineEnd (consLine b lines) = b :: List.intercalate lineEnd lines := by
  cases lines with
  | nil => exact absurd rfl h
  | cons line more => cases more <;> simp [consLine, List.intercalate_cons_cons]

theorem intercalate_nil_cons {lines : List Bytes} (h : lines ≠ []) :
    List.intercalate lineEnd ([] :: lines) = lineEnd ++ List.intercalate lineEnd lines := by
  cases lines with
  | nil => exact absurd rfl h
  | cons line more => simp [List.intercalate_cons_cons]

theorem lineEnd_infix_cons_iff {b : UInt8} {line : Bytes} :
    lineEnd <:+: b :: line ↔ (b = 13 ∧ line.head? = some 10) ∨ lineEnd <:+: line := by
  rw [List.infix_cons_iff, lineEnd, List.cons_prefix_cons]
  cases line with
  | nil => simp
  | cons c more => simp [eq_comm]

theorem lines_headerLines (header : Bytes) : Lines header (headerLines header) := by
  fun_induction headerLines header with
  | case1 => exact ⟨rfl, by simp [lineEnd], by simp⟩
  | case2 rest ih =>
    refine ⟨?_, fun line hline => ?_, by simp⟩
    · rw [intercalate_nil_cons ih.some, ih.joined]
      rfl
    · rcases List.mem_cons.mp hline with rfl | hline
      · simp [lineEnd]
      · exact ih.whole line hline
  | case3 b rest hrest ih =>
    refine ⟨by rw [intercalate_consLine b ih.some, ih.joined], fun line hline => ?_, ?_⟩
    · cases hlines : headerLines rest with
      | nil => exact absurd hlines ih.some
      | cons first more =>
        rw [hlines] at ih hline
        rcases List.mem_cons.mp hline with rfl | hline
        · -- the first line begins as the octets do, and these do not go on with the end of a line
          rw [lineEnd_infix_cons_iff]
          rintro (⟨rfl, hhead⟩ | hinfix)
          · obtain ⟨tail, rfl⟩ := List.head?_eq_some_iff.mp hhead
            have hjoined := ih.joined
            cases more with
            | nil => exact hrest tail rfl (by simpa using hjoined.symm)
            | cons next others =>
              rw [List.intercalate_cons_cons] at hjoined
              exact hrest _ rfl hjoined.symm
          · exact ih.whole first List.mem_cons_self hinfix
        · exact ih.whole line (List.mem_cons_of_mem _ hline)
    · cases headerLines rest <;> simp [consLine]

/-- Octets that are cut into lines are none, or begin with the end of an empty line, or with an
octet of the first line, which is no part of the end of one. -/
theorem Lines.shape (h : Lines header lines) :
    (header = [] ∧ lines = [[]]) ∨
    (∃ rest more, header = 13 :: 10 :: rest ∧ lines = [] :: more ∧ Lines rest more) ∨
    ∃ b rest line more, header = b :: rest ∧ lines = (b :: line) :: more ∧
      Lines rest (line :: more) ∧ ∀ tail, b = 13 → rest ≠ 10 :: tail := by
  obtain ⟨rfl, whole, some⟩ := h
  cases lines with
  | nil => exact absurd rfl some
  | cons line more =>
    cases line with
    | nil =>
      cases more with
      | nil => exact .inl ⟨rfl, rfl⟩
      | cons next others =>
        refine .inr (.inl ⟨_, next :: others, ?_, rfl, rfl, ?_, by simp⟩)
        · rw [intercalate_nil_cons (by simp)]
          rfl
        · exact fun other hother => whole other (List.mem_cons_of_mem _ hother)
    | cons b line =>
      have hline : ¬ lineEnd <:+: b :: line := whole _ List.mem_cons_self
      rw [lineEnd_infix_cons_iff, not_or] at hline
      have hsome : line :: more ≠ [] := by simp
      refine .inr (.inr ⟨b, _, line, more, intercalate_consLine b hsome, rfl,
        ⟨rfl, fun other hother => ?_, by simp⟩, fun tail hb hrest => hline.1 ⟨hb, ?_⟩⟩)
      · rcases List.mem_cons.mp hother with rfl | hother
        · exact hline.2
        · exact whole other (List.mem_cons_of_mem _ hother)
      · cases line with
        | nil => cases more <;> simp [List.intercalate_cons_cons, lineEnd] at hrest
        | cons c line => cases more <;> simp_all [List.intercalate_cons_cons]

theorem Lines.eq_headerLines (h : Lines header lines) : lines = headerLines header := by
  fun_induction headerLines header generalizing lines with
  | case1 =>
    obtain ⟨_, rfl⟩ | ⟨rest, more, hrest, _⟩ | ⟨b, rest, line, more, hrest, _⟩ := h.shape
    · rfl
    · cases hrest
    · cases hrest
  | case2 rest ih =>
    obtain ⟨hnil, _⟩ | ⟨other, more, hrest, rfl, hmore⟩ |
      ⟨b, other, line, more, hrest, _, _, hnot⟩ := h.shape
    · cases hnil
    · cases hrest
      rw [ih hmore]
    · cases hrest
      exact absurd rfl (hnot rest rfl)
  | case3 b rest hnot ih =>
    obtain ⟨hnil, _⟩ | ⟨other, more, hrest, _⟩ |
      ⟨c, other, line, more, hrest, rfl, hmore, _⟩ := h.shape
    · cases hnil
    · cases hrest
      exact absurd rfl (hnot other rfl)
    · cases hrest
      rw [← ih hmore]
      rfl

/-! ### Lengths -/

def lengthValues (lines : List Bytes) : List Bytes :=
  ((lines.map splitField).filter fun field => givesLength field.1).map fun field =>
    stripBytes field.2

def readLength (value : Bytes) : Except Fault Int :=
  match Integer.read (asciiText value) with
  | .ok length => .ok length
  | .error .malformed => .error (.badLength value)
  | .error (.tooLong digits) => .error (.longLength digits)

/-- The length that the last of the fields gives, if all of them are integers. -/
def checkedLength (lines : List Bytes) : Except Fault Int :=
  ((lengthValues lines).mapM readLength).map fun lengths => lengths.getLastD 0

/-- The length that the last of the fields gives, whatever the others are. -/
def lastLength (lines : List Bytes) : Except Fault Int :=
  match (lengthValues lines).getLast? with
  | some value => readLength value
  | none => .ok 0

theorem lengthOf_eq (length : Int) (lines : List Bytes) :
    lengthOf length lines =
      ((lengthValues lines).mapM readLength).map fun lengths => lengths.getLastD length := by
  induction lines generalizing length with
  | nil => rfl
  | cons line rest ih =>
    rw [lengthOf]
    by_cases hname : givesLength (splitField line).1 = true
    · have hvalues : lengthValues (line :: rest) =
          stripBytes (splitField line).2 :: lengthValues rest := by
        simp [lengthValues, hname]
      simp only [hname, if_true, hvalues, List.mapM_cons, readLength]
      cases Integer.read (asciiText (stripBytes (splitField line).2)) with
      | ok n =>
        simp only [ih]
        cases (lengthValues rest).mapM readLength with
        | error fault => rfl
        | ok lengths => exact congrArg Except.ok List.getLastD_cons.symm
      | error fault => cases fault <;> rfl
    · have hvalues : lengthValues (line :: rest) = lengthValues rest := by
        simp [lengthValues, hname]
      simp only [hname, hvalues, ih, if_false, Bool.false_eq_true]

/-! ### Frames -/

/-- What comes of a frame whose length is known or not, and how many octets it takes. -/
def parseFrame (length : Except Fault Int) (header rest : Bytes) : Except Fault Entries × Nat :=
  match length with
  | .error fault => (.error fault, header.length)
  | .ok length =>
    if length ≤ 0 then (.error .invalidLength, header.length)
    else if rest.length < length.toNat then (.error .closed, header.length + rest.length)
    else (messageOf (rest.take length.toNat), header.length + length.toNat)

theorem parseFrame_of_nonpos {length : Int} (h : length ≤ 0) (header rest : Bytes) :
    parseFrame (.ok length) header rest = (.error .invalidLength, header.length) := if_pos h

theorem parseFrame_of_lt {length : Nat} (h : rest.length < length) (header : Bytes) :
    parseFrame (.ok length) header rest = (.error .closed, header.length + rest.length) := by
  have hsign : ¬ (length : Int) ≤ 0 := by omega
  simp only [parseFrame, hsign, if_false, Int.toNat_natCast, if_pos h]

theorem parseFrame_of_le {length : Nat} (hpos : 0 < length) (h : length ≤ rest.length)
    (header : Bytes) :
    parseFrame (.ok length) header rest =
      (messageOf (rest.take length), header.length + length) := by
  have hsign : ¬ (length : Int) ≤ 0 := by omega
  simp only [parseFrame, hsign, if_false, Int.toNat_natCast, if_neg (Nat.not_lt.mpr h)]

/-- What comes of octets behind which nothing more comes, and how many of them are taken, where the
lines of a header give the length of the body in some way. -/
inductive Parses (lengthIn : List Bytes → Except Fault Int) (bytes : Bytes) :
    Except Fault Entries × Nat → Prop
  | headless (none : ¬ headerEnd <:+: bytes) : Parses lengthIn bytes (.error .closed, bytes.length)
  | framed {header rest : Bytes} {lines : List Bytes} (split : IsHeader bytes header rest)
    (cut : Lines header lines) :
    Parses lengthIn bytes (parseFrame (lengthIn lines) header rest)

variable {lengthIn : List Bytes → Except Fault Int} {result other : Except Fault Entries × Nat}

theorem Parses.unique (h : Parses lengthIn bytes result) (h' : Parses lengthIn bytes other) :
    result = other := by
  cases h with
  | headless none =>
    cases h' with
    | headless => rfl
    | framed split => exact absurd split.holds none
  | framed split cut =>
    cases h' with
    | headless none => exact absurd split.holds none
    | framed split' cut' =>
      obtain ⟨rfl, rfl⟩ := split.unique split'
      rw [cut.eq_headerLines, cut'.eq_headerLines]

/-- A frame that is all there takes some of the octets behind its header, and no others count. -/
theorem parseFrame_append {length : Except Fault Int} (header rest : Bytes)
    (enough : (parseFrame length header rest).1 ≠ .error .closed) :
    ∃ taken ≤ rest.length, (parseFrame length header rest).2 = header.length + taken ∧
      ∀ more, parseFrame length header (rest.take taken ++ more) =
        parseFrame length header rest := by
  cases length with
  | error fault => exact ⟨0, Nat.zero_le _, rfl, fun _ => rfl⟩
  | ok length =>
    by_cases hsign : length ≤ 0
    · refine ⟨0, Nat.zero_le _, ?_, fun more => ?_⟩
      · rw [parseFrame_of_nonpos hsign, Nat.add_zero]
      · rw [parseFrame_of_nonpos hsign, parseFrame_of_nonpos hsign]
    · obtain ⟨length, rfl⟩ := Int.eq_ofNat_of_zero_le (a := length) (by omega)
      have hlong : length ≤ rest.length := by
        refine Nat.le_of_not_lt fun hshort => enough ?_
        rw [parseFrame_of_lt hshort]
      have htaken : (rest.take length).length = length := List.length_take_of_le hlong
      rw [parseFrame_of_le (by omega) hlong]
      refine ⟨length, hlong, rfl, fun more => ?_⟩
      have hmore : length ≤ (rest.take length ++ more).length := by
        rw [List.length_append, htaken]
        exact Nat.le_add_right _ _
      rw [parseFrame_of_le (by omega) hmore,
        List.take_append_of_le_length (Nat.le_of_eq htaken.symm), List.take_take, Nat.min_self]

theorem Parses.append {outcome : Except Fault Entries} {n : Nat}
    (h : Parses lengthIn bytes (outcome, n)) (enough : outcome ≠ .error .closed) (more : Bytes) :
    Parses lengthIn (bytes.take n ++ more) (outcome, n) := by
  generalize hresult : (outcome, n) = result at h
  cases h with
  | headless none => exact absurd (Prod.mk.inj hresult).1 enough
  | @framed header rest lines split cut =>
    have houtcome : (parseFrame (lengthIn lines) header rest).1 = outcome := by rw [← hresult]
    obtain ⟨taken, _, hn, hsame⟩ := parseFrame_append header rest (houtcome ▸ enough)
    obtain rfl : n = header.length + taken := by rw [← hn, ← hresult]
    rw [split.split, List.take_length_add_append, List.append_assoc, ← hsame more]
    exact .framed (split.append _) cut

/-! ### Reading -/

def Declares (bytes : Bytes) (length : Nat) : Prop :=
  ∃ header rest lines, IsHeader bytes header rest ∧ Lines header lines ∧
    checkedLength lines = .ok length

/-- A stream that answers every read with some of the octets still to come, in time, until there are
no more; then it is closed. -/
structure Answers (s : Incoming) : Prop where
  inTime : s.expired = false
  ends : s.heldOpen = false
  asked : ∀ most ∈ s.limit, ∀ length, Declares s.bytes length → length ≤ most

/-- A read comes to what the octets are parsed to, and takes as many of them. -/
theorem parses_readMessage (answers : s.Answers) :
    ∃ n ≤ s.bytes.length, Parses checkedLength s.bytes (s.readMessage.1, n) ∧
      s.readMessage.2.bytes = s.bytes.drop n := by
  have hdry : s.dry = .closed := by simp [dry, answers.ends]
  simp only [readMessage, answers.inTime, hdry, Bool.false_eq_true, if_false]
  cases hsplit : splitHeader s.bytes with
  | none =>
    have hnone := splitHeader_eq_none_iff.mp hsplit
    exact ⟨s.bytes.length, Nat.le_refl _, .headless hnone, by simp⟩
  | some parts =>
    obtain ⟨header, rest⟩ := parts
    have hheader := isHeader_of_splitHeader hsplit
    have hlines := lines_headerLines header
    have hframed : Parses checkedLength s.bytes _ := .framed hheader hlines
    have hlength : s.bytes.length = header.length + rest.length := by
      rw [hheader.split, List.length_append]
    have hrest : rest = s.bytes.drop header.length := by
      rw [hheader.split, List.drop_left]
    have hfields : lengthOf 0 (headerLines header) = checkedLength (headerLines header) :=
      lengthOf_eq 0 _
    simp only [hfields]
    cases hdeclared : checkedLength (headerLines header) with
    | error fault =>
      rw [hdeclared] at hframed
      exact ⟨header.length, by omega, hframed, hrest⟩
    | ok length =>
      rw [hdeclared] at hframed
      by_cases hsign : length ≤ 0
      · rw [parseFrame_of_nonpos hsign] at hframed
        simp only [if_pos hsign]
        exact ⟨header.length, by omega, hframed, hrest⟩
      obtain ⟨length, rfl⟩ := Int.eq_ofNat_of_zero_le (a := length) (by omega)
      have hasked : s.refuses length rest = false :=
        refuses_eq_false (fun most hmost =>
          answers.asked most hmost length ⟨header, rest, _, hheader, hlines, hdeclared⟩) rest
      simp only [if_neg hsign, Int.toNat_natCast, hasked, Bool.false_eq_true, if_false]
      cases hbody : readBody s.cuts length rest with
      | none =>
        rw [parseFrame_of_lt ((readBody_eq_none_iff _).mp hbody)] at hframed
        exact ⟨_, Nat.le_of_eq hlength.symm, hframed, by simp [hlength]⟩
      | some read =>
        obtain ⟨body, left⟩ := read
        obtain ⟨henough, rfl, hleft⟩ := readBody_eq_some hbody
        rw [parseFrame_of_le (by omega) henough] at hframed
        refine ⟨_, by omega, hframed, ?_⟩
        show left.bytes = s.bytes.drop (header.length + length)
        rw [hleft, hrest, List.drop_drop]

/-- A message is read as its octets are parsed at once: up to the end of the header, by the last
length among its lines, which must all be integers, and as many octets as that says. The pieces in
which the octets come make no difference, and nothing behind a frame is taken. -/
theorem readMessage_parsed (answers : s.Answers) :
    let n := s.bytes.length - s.readMessage.2.bytes.length
    (∀ result, Parses checkedLength s.bytes result ↔ result = (s.readMessage.1, n)) ∧
    s.readMessage.2.bytes = s.bytes.drop n ∧
    (∀ t : Incoming, t.Answers → t.bytes = s.bytes →
      t.readMessage.1 = s.readMessage.1 ∧ t.readMessage.2.bytes = s.readMessage.2.bytes) ∧
    (s.readMessage.1 ≠ .error .closed → ∀ (t : Incoming) (more : Bytes), t.Answers →
      t.bytes = s.bytes.take n ++ more →
        t.readMessage.1 = s.readMessage.1 ∧ t.readMessage.2.bytes = more) := by
  obtain ⟨n, hn, hparses, hleft⟩ := parses_readMessage answers
  have htaken : s.bytes.length - s.readMessage.2.bytes.length = n := by
    rw [hleft, List.length_drop]
    omega
  rw [htaken]
  -- another stream with octets that are parsed so is read so
  have hsame {t : Incoming} (ht : t.Answers)
      (hbytes : Parses checkedLength t.bytes (s.readMessage.1, n)) :
      t.readMessage.1 = s.readMessage.1 ∧ t.readMessage.2.bytes = t.bytes.drop n := by
    obtain ⟨m, _, hother, hrest⟩ := parses_readMessage ht
    obtain ⟨houtcome, rfl⟩ := Prod.mk.inj (hother.unique hbytes)
    exact ⟨houtcome, hrest⟩
  refine ⟨fun result => ⟨fun h => h.unique hparses, ?_⟩, hleft, fun t ht hbytes => ?_,
    fun henough t more ht hbytes => ?_⟩
  · rintro rfl
    exact hparses
  · rw [hleft, ← hbytes]
    exact hsame ht (hbytes ▸ hparses)
  · have hread := hsame ht (hbytes ▸ hparses.append henough more)
    have hlength : (s.bytes.take n).length = n := List.length_take_of_le hn
    rw [hbytes, List.drop_append_of_le_length (Nat.le_of_eq hlength.symm),
      List.drop_of_length_le (Nat.le_of_eq hlength), List.nil_append] at hread
    exact hread

/-- Two lengths, the second one in an odd spelling, and a body in which a line is empty: the octets
come one, two and more at a time, and those of the next frame stay. -/
theorem readMessage_parsed_in_pieces :
    let header : Bytes := Utf8.encode "Content-Length: 9\r\n content-LENGTH :+0_6 \r\n\r\n"
    let body : Bytes := Utf8.encode "\x7b\r\n\r\n\x7d"
    let next : Bytes := Utf8.encode "Content-Length: 2"
    let s : Incoming := ⟨header ++ body ++ next, [1, 2], some wordLimit, false, false⟩
    s.readMessage.1 = .ok [] ∧ s.readMessage.2.bytes = next := by
  intro header body next s
  have hheader : IsHeader s.bytes header (body ++ next) := isHeader_of_splitHeader rfl
  have hlines : Lines header (headerLines header) := lines_headerLines header
  have hdeclared : checkedLength (headerLines header) = .ok (6 : Nat) := rfl
  have hasked (most : Nat) (hmost : most ∈ s.limit) (length : Nat) (h : Declares s.bytes length) :
      length ≤ most := by
    obtain rfl : wordLimit = most := Option.some.inj hmost
    obtain ⟨other, rest, lines, hother, hcut, hlength⟩ := h
    obtain ⟨rfl, rfl⟩ := hheader.unique hother
    rw [hcut.eq_headerLines, hdeclared] at hlength
    cases hlength
    decide
  have hparses : Parses checkedLength s.bytes (.ok [], header.length + 6) :=
    .framed hheader hlines
  obtain ⟨hparsed, hleft, -⟩ := readMessage_parsed (s := s) ⟨rfl, rfl, hasked⟩
  obtain ⟨houtcome, hn⟩ := Prod.mk.inj ((hparsed _).mp hparses)
  refine ⟨houtcome.symm, ?_⟩
  rw [hleft, ← hn]
  rfl

/-- A length that is no integer makes a header fail, though a later one is. By the last length alone
the same octets would be a message. -/
theorem readMessage_of_two_lengths :
    let header : Bytes := Utf8.encode "Content-Length: x\r\nContent-Length: 2\r\n\r\n"
    let s : Incoming := ⟨header ++ Utf8.encode "\x7b\x7d", [], none, false, false⟩
    s.Answers ∧ Parses lastLength s.bytes (.ok [], s.bytes.length) ∧
      s.readMessage.1 = .error (.badLength (Utf8.encode "x")) ∧
      ¬ ∃ n, Parses lastLength s.bytes (s.readMessage.1, n) := by
  intro header s
  have hheader : IsHeader s.bytes header (Utf8.encode "\x7b\x7d") := isHeader_of_splitHeader rfl
  have hparses : Parses lastLength s.bytes (.ok [], s.bytes.length) :=
    .framed hheader (lines_headerLines header)
  have hread : s.readMessage.1 = .error (.badLength (Utf8.encode "x")) := rfl
  refine ⟨⟨rfl, rfl, nofun⟩, hparses, hread, ?_⟩
  rintro ⟨n, hother⟩
  rw [hread] at hother
  cases hparses.unique hother

end Incoming
end StepLocator
