import StepLocator.Proofs.Number.Digits
import StepLocator.Proofs.Toml.Scalars

/-!
The faults of TOML documents. A reading that fails for an integer with too many digits leaves a run
of that many in the document, and one that fails because values are nested too deeply as many
brackets and braces as the depth takes. The other way round, a value of too many digits or behind
too many brackets is read as its fault.
-/
namespace StepLocator
namespace Toml

variable {fuel depth : Nat} {text : Text} {fault : Fault}

/-- A step that fails only for want of form. -/
def NeedsForm {α : Type} (x : Except Fault α) : Prop :=
  ∀ fault, x = .error fault → fault = .malformed

theorem needsForm_malformed {α : Type} : NeedsForm (.error .malformed : Except Fault α) :=
  fun _ h => (Except.error.inj h).symm

theorem needsForm_pure {α : Type} (a : α) : NeedsForm (pure a) := nofun

theorem NeedsForm.bind {α β : Type} {x : Except Fault α} {f : α → Except Fault β}
    (hx : NeedsForm x) (hf : ∀ a, NeedsForm (f a)) : NeedsForm (x >>= f) := by
  cases x with
  | ok a => exact hf a
  | error fault =>
    obtain rfl := hx fault rfl
    exact needsForm_malformed

theorem NeedsForm.unless {α β : Type} {p : Prop} [Decidable p] {x : Except Fault α}
    {f : β → Except Fault α} (hx : NeedsForm x) :
    NeedsForm (if p then throw .malformed >>= f else x) := by
  split
  · exact needsForm_malformed
  · exact hx

theorem needsForm_orMalformed {α : Type} (x : Option α) : NeedsForm (orMalformed x) := by
  cases x with
  | none => exact needsForm_malformed
  | some a => exact needsForm_pure a

theorem Leaves.form_bind {α β : Type} {left : β → Text} {x : Except Fault α}
    {f : α → Except Fault β} (hx : NeedsForm x) (hf : ∀ a, Leaves depth text left (f a)) :
    Leaves depth text left (x >>= f) := by
  cases x with
  | ok a => exact hf a
  | error fault =>
    obtain rfl := hx fault rfl
    exact .malformed

theorem Blames.of_opening {c : Char} (hc : isOpening c = true) (h : depth < tableWeight) :
    Blames depth (c :: text) .tooDeep := by
  refine .tooDeep ?_
  rw [List.countP_cons_of_pos hc, Nat.mul_succ]
  omega

/-! ### Values

Values, the items of a list, the entries of a table and what stands under a key are read by each
other, each with less fuel. -/

/-- The readings with so much fuel leave an end of every text. -/
structure LeaveWithin (fuel : Nat) : Prop where
  value : ∀ depth text, Leaves depth text Prod.snd (readValue fuel depth text)
  items : ∀ depth text, Leaves depth text Prod.snd (readItems fuel depth text)
  pair : ∀ depth text, Leaves depth text Prod.snd (readPair fuel depth text)
  inline : ∀ depth locks table text,
    Leaves depth text Prod.snd (readInline fuel depth locks table text)

namespace LeaveWithin

theorem readValue_succ (h : LeaveWithin fuel) (depth : Nat) (text : Text) :
    Leaves depth text Prod.snd (readValue (fuel + 1) depth text) := by
  unfold readValue
  split
  · rename_i rest
    by_cases hdepth : depth < listWeight
    · rw [if_pos hdepth]
      exact Blames.of_opening rfl (Nat.lt_trans hdepth (by decide))
    rw [if_neg hdepth]
    refine Leaves.cons rfl (Nat.not_lt.mp hdepth) (by decide) ?_
    refine (leaves_skipFiller _ false rest).bind fun filled hfilled => ?_
    split
    · exact (List.suffix_cons _ _).trans hfilled
    · exact ((h.items _ _).mono hfilled).bind fun a ha => ha
  · rename_i rest
    by_cases hdepth : depth < tableWeight
    · rw [if_pos hdepth]
      exact Blames.of_opening rfl hdepth
    rw [if_neg hdepth]
    refine Leaves.cons rfl (Nat.not_lt.mp hdepth) (by decide) ?_
    split
    · rename_i after hclosed
      exact suffix_of_skipBlanks hclosed
    · exact ((h.inline _ _ _ _).mono (skipBlanks_suffix rest)).bind fun a ha => ha
  · exact leaves_readScalar depth text

theorem readItems_succ (h : LeaveWithin fuel) (depth : Nat) (text : Text) :
    Leaves depth text Prod.snd (readItems (fuel + 1) depth text) := by
  unfold readItems
  refine (h.value depth text).bind fun ⟨x, rest⟩ hrest => ?_
  refine ((leaves_skipFiller depth false rest).mono hrest).bind fun filled hfilled => ?_
  split
  · exact (List.suffix_cons _ _).trans hfilled
  · rename_i after
    have hafter : after <:+ text := (List.suffix_cons _ _).trans hfilled
    refine ((leaves_skipFiller depth false after).mono hafter).bind fun more hmore => ?_
    split
    · exact (List.suffix_cons _ _).trans hmore
    · exact ((h.items depth _).mono hmore).bind fun a ha => ha
  · exact .malformed

theorem readPair_succ (h : LeaveWithin fuel) (depth : Nat) (text : Text) :
    Leaves depth text Prod.snd (readPair (fuel + 1) depth text) := by
  unfold readPair
  refine (leaves_readKey depth _ text).bind fun ⟨key, rest⟩ hrest => ?_
  dsimp only
  split
  · rename_i rest
    have hvalue := (skipBlanks_suffix rest).trans ((List.suffix_cons _ _).trans hrest)
    exact ((h.value depth _).mono hvalue).bind fun a ha => ha
  · exact .malformed

theorem readInline_succ (h : LeaveWithin fuel) (depth : Nat) (locks : Locks) (table : Entries)
    (text : Text) : Leaves depth text Prod.snd (readInline (fuel + 1) depth locks table text) := by
  unfold readInline
  refine (h.pair depth text).bind fun ⟨⟨key, v⟩, rest⟩ hrest => ?_
  dsimp only
  split
  · exact .malformed
  refine .form_bind (needsForm_orMalformed _) fun table => ?_
  split
  · rename_i after hclosed
    exact (suffix_of_skipBlanks hclosed).trans hrest
  · rename_i after hmore
    have hafter := (skipBlanks_suffix after).trans ((suffix_of_skipBlanks hmore).trans hrest)
    exact (h.inline depth _ _ _).mono hafter
  · exact .malformed

end LeaveWithin

/-- With whatever fuel, every reading leaves an end of its text. -/
theorem leaveWithin (fuel : Nat) : LeaveWithin fuel := by
  induction fuel with
  | zero =>
    have hnone {α : Type} (left : α → Text) (depth : Nat) (text : Text) :
        Leaves depth text left (.error .malformed) := Blames.malformed
    constructor
    · intro depth text
      rw [readValue]
      exact hnone _ _ _
    · intro depth text
      rw [readItems]
      exact hnone _ _ _
    · intro depth text
      rw [readPair]
      exact hnone _ _ _
    · intro depth locks table text
      rw [readInline]
      exact hnone _ _ _
  | succ fuel ih =>
    exact ⟨ih.readValue_succ, ih.readItems_succ, ih.readPair_succ, ih.readInline_succ⟩

/-! ### Statements -/

theorem needsForm_enter (d : Draft) (key : KeyPath) (value : Value) :
    NeedsForm (d.enter key value) := by
  unfold Draft.enter
  dsimp only
  refine .unless (.unless ?_)
  exact (needsForm_orMalformed _).bind fun table => needsForm_pure _

theorem needsForm_turnTo (d : Draft) (key : KeyPath) : NeedsForm (d.turnTo key) := by
  unfold Draft.turnTo
  refine .unless ?_
  exact (needsForm_orMalformed _).bind fun table => needsForm_pure _

theorem needsForm_openItem (d : Draft) (key : KeyPath) : NeedsForm (d.openItem key) := by
  unfold Draft.openItem
  refine .unless ?_
  exact (needsForm_orMalformed _).bind fun table => needsForm_pure _

theorem leaves_readHeader (depth : Nat) (d : Draft) (text : Text) :
    Leaves depth text Prod.snd (readHeader d text) := by
  unfold readHeader
  dsimp only
  split
  · rename_i rest
    have hblanks := (skipBlanks_suffix rest).trans (List.suffix_cons '[' rest)
    refine ((leaves_readKey depth _ _).mono hblanks).bind fun ⟨key, rest⟩ hrest => ?_
    refine .form_bind (needsForm_openItem _ _) fun d => ?_
    dsimp only at hrest ⊢
    split
    · exact ((List.suffix_cons _ _).trans (List.suffix_cons _ _)).trans hrest
    · exact .malformed
  · refine ((leaves_readKey depth _ _).mono (skipBlanks_suffix text)).bind
      fun ⟨key, rest⟩ hrest => ?_
    refine .form_bind (needsForm_turnTo _ _) fun d => ?_
    dsimp only at hrest ⊢
    split
    · exact (List.suffix_cons _ _).trans hrest
    · exact .malformed

theorem leaves_readStatement (d : Draft) (text : Text) :
    Leaves nestingLimit text Prod.snd (readStatement d text) := by
  unfold readStatement
  split
  · exact (leaves_readHeader _ d _).mono (List.suffix_cons _ _)
  · exact List.suffix_refl _
  · split
    · refine ((leaveWithin _).pair nestingLimit _).bind fun ⟨⟨key, value⟩, rest⟩ hrest => ?_
      exact .form_bind (needsForm_enter d key value) fun d => hrest
    · exact .malformed
  · exact List.suffix_refl _

/-- Whatever fault the reading of statements ends with, the text accounts for it. -/
theorem leaves_readLines (fuel : Nat) (d : Draft) (text : Text) :
    Leaves nestingLimit text (fun _ => []) (readLines fuel d text) := by
  induction fuel generalizing d text with
  | zero => exact .malformed
  | succ fuel ih =>
    unfold readLines
    split
    · exact List.nil_suffix
    · rename_i rest hline
      exact (ih d rest).mono (suffix_of_skipBlanks hline)
    · refine ((leaves_readStatement d _).mono (skipBlanks_suffix text)).bind
        fun ⟨d, rest⟩ hrest => ?_
      have hrest := (skipBlanks_suffix rest).trans hrest
      refine ((leaves_skipComment _ _).mono hrest).bind fun after hafter => ?_
      split
      · exact List.nil_suffix
      · exact (ih d _).mono ((List.suffix_cons _ _).trans hafter)
      · exact .malformed

/-- A document accounts for the fault that its reading ends with. -/
theorem blames_of_read (h : read text = .error fault) : Blames nestingLimit text fault := by
  have hleaves := leaves_readLines (text.length + 1) Draft.empty text
  rwa [show readLines _ _ _ = _ from h] at hleaves

/-! ### Documents that are not read -/

theorem moreDigits_of_ascii {digits : Text} (h : ∀ c ∈ digits, Digits.isAscii c = true) :
    moreDigits Digits.isAscii digits = (digits, []) := by
  induction digits with
  | nil => rfl
  | cons c rest ih =>
    have hc := h c List.mem_cons_self
    have hunderscore : c ≠ '_' := Digits.ne_of_isAscii hc (by decide)
    rw [moreDigits.eq_2 _ _ _ fun _ _ e _ => hunderscore e, if_pos hc,
      ih fun d hd => h d (List.mem_cons_of_mem _ hd)]

theorem expect?_of_ascii {c : Char} (hc : Digits.isAscii c = false) {text : Text}
    (h : ∀ d ∈ text, Digits.isAscii d = true) : expect? c text = none := by
  cases text with
  | nil => rfl
  | cons d rest =>
    rw [expect?, if_neg (Digits.ne_of_isAscii (h d List.mem_cons_self) hc).symm]

theorem readMoment?_of_ascii {text : Text} (h : ∀ c ∈ text, Digits.isAscii c = true) :
    readMoment? text = none := by
  have hday : day? text = none := by
    cases hyear : digits? 4 text with
    | none => simp [day?, hyear]
    | some found =>
      have hdash := expect?_of_ascii (c := '-') (by decide)
        fun c hc => h c ((ends_digits? 4 text found hyear).subset hc)
      simp [day?, hyear, hdash]
  have hclock : clock? text = none := by
    cases hhour : pair? 0 23 text with
    | none => simp [clock?, hhour]
    | some found =>
      have hcolon := expect?_of_ascii (c := ':') (by decide)
        fun c hc => h c ((ends_pair? 0 23 text found hhour).subset hc)
      simp [clock?, hhour, hcolon]
  rw [readMoment?, hday, hclock, Option.map_none]

theorem readScalar_of_ascii {first : Char} {digits : Text} (hfirst : first ≠ '0')
    (h : ∀ c ∈ first :: digits, Digits.isAscii c = true) :
    readScalar (first :: digits) =
      if digitLimit < (first :: digits).length then .error (.longInteger (first :: digits).length)
      else .ok (.int (Digits.toNat (first :: digits)), []) := by
  have hf := h first List.mem_cons_self
  have hne (c : Char) (hc : Digits.isAscii c = false) : first ≠ c := Digits.ne_of_isAscii hf hc
  have hstring : readString? (first :: digits) = none := by
    simp [readString?, hne '\x22' (by decide), hne '\x27' (by decide)]
  have htruth : truthWord? (first :: digits) = none := by
    have htrue := Text.isPrefixOf?_of_ne (beq_eq_false_iff_ne.mpr (hne 't' (by decide)).symm)
    have hfalse := Text.isPrefixOf?_of_ne (beq_eq_false_iff_ne.mpr (hne 'f' (by decide)).symm)
    simp [truthWord?, htrue, hfalse]
  have hbased : basedInteger? (first :: digits) = none := by
    simp [basedInteger?, hfirst]
  have hsign : Integer.splitSign (first :: digits) = (false, first :: digits) := by
    simp [Integer.splitSign, hne '-' (by decide), hne '+' (by decide)]
  have hwhole : wholePart? (first :: digits) = some (first :: digits, []) := by
    rw [wholePart?.eq_2 _ fun _ e => hfirst (List.cons.inj e).1, groupedDigits?, if_pos hf,
      moreDigits_of_ascii fun c hc => h c (List.mem_cons_of_mem _ hc)]
  have hdecimal : readDecimal? (first :: digits) =
      some (if digitLimit < (first :: digits).length then
        .error (.longInteger (first :: digits).length)
      else .ok (.int (Digits.toNat (first :: digits)), [])) := by
    simp [readDecimal?, hsign, hwhole, fractionPart, exponentPart, expect?, Integer.signed]
  simp only [readScalar, hstring, htruth, readMoment?_of_ascii h, hbased, hdecimal]

theorem readLines_eq_error {fuel : Nat} {d : Draft} {fault : Fault} {c : Char} {rest : Text}
    (hblank : isBlank c = false) (hc : c ≠ '\n') (h : readStatement d (c :: rest) = .error fault) :
    readLines (fuel + 1) d (c :: rest) = .error fault := by
  have hskip : skipBlanks (c :: rest) = c :: rest := by simp [skipBlanks, hblank]
  rw [readLines, hskip]
  split
  · contradiction
  · cases ‹_ = _›
    contradiction
  · rw [h]
    rfl

theorem readStatement_eq_error {d : Draft} {fault : Fault} {c : Char} {rest : Text}
    (hc : isKeyChar c = true)
    (h : readPair (2 * (c :: rest).length + 3) nestingLimit (c :: rest) = .error fault) :
    readStatement d (c :: rest) = .error fault := by
  rw [readStatement, if_pos (.inl hc), h]
  · rfl
  · rintro rfl
    simp [isKeyChar] at hc
  · rintro rfl
    simp [isKeyChar] at hc

theorem read_of_value {first : Char} {rest : Text} (hfirst : isBlank first = false)
    (h : ∀ fuel, 2 * (first :: rest).length ≤ fuel →
      readValue (fuel + 1) nestingLimit (first :: rest) = .error fault) :
    read ("x = ".toList ++ first :: rest) = .error fault := by
  have hblanks : skipBlanks (' ' :: first :: rest) = first :: rest := by
    simp [skipBlanks, show isBlank ' ' = true from rfl, hfirst]
  have hkey (fuel : Nat) : readKey (fuel + 1) ("x = ".toList ++ first :: rest) =
      .ok (["x".toList], '=' :: ' ' :: first :: rest) := rfl
  have hpair : readPair (2 * ("x = ".toList ++ first :: rest).length + 3) nestingLimit
      ("x = ".toList ++ first :: rest) = .error fault := by
    -- the fuel of a statement is enough for every value that stands in it
    have hvalue := h (2 * ("x = ".toList ++ first :: rest).length + 1) (by simp; omega)
    simp only [readPair, hkey, bind, Except.bind, hblanks, hvalue]
  exact readLines_eq_error (by decide) (by decide) (readStatement_eq_error (by decide) hpair)

/-- A document with an integer of too many digits is read as that fault, not as malformed. -/
theorem read_of_longInteger {first : Char} {digits : Text} (hfirst : first ≠ '0')
    (h : ∀ c ∈ first :: digits, Digits.isAscii c = true)
    (hlong : digitLimit < (first :: digits).length) :
    read ("x = ".toList ++ first :: digits) = .error (.longInteger (first :: digits).length) := by
  have hf := h first List.mem_cons_self
  have hne (c : Char) (hc : Digits.isAscii c = false) : first ≠ c := Digits.ne_of_isAscii hf hc
  refine read_of_value ?_ fun fuel _ => ?_
  · simp [isBlank, hne ' ' (by decide), hne '\t' (by decide)]
  · rw [readValue, readScalar_of_ascii hfirst h, if_pos hlong]
    · rintro rest e
      exact hne '[' (by decide) (List.cons.inj e).1
    · rintro rest e
      exact hne '\x7b' (by decide) (List.cons.inj e).1

/-- Lists within lists are read down to where the depth is used up, before anything is known of
what they hold. -/
theorem readValue_of_openings {count : Nat} (rest : Text) (hdepth : depth < listWeight * count)
    (hfuel : 2 * count ≤ fuel + 1) :
    readValue (fuel + 1) depth (List.replicate count '[' ++ rest) = .error .tooDeep := by
  induction count generalizing fuel depth with
  | zero => exact absurd hdepth (Nat.not_lt_zero _)
  | succ count ih =>
    -- a list takes two steps of the fuel, one for itself and one for its first item
    rw [List.replicate_succ, List.cons_append, readValue]
    by_cases hlist : depth < listWeight
    · rw [if_pos hlist]
      rfl
    rw [if_neg hlist]
    have hinner : depth - listWeight < listWeight * count := by
      rw [Nat.mul_succ] at hdepth
      omega
    obtain ⟨count, rfl⟩ : ∃ n, count = n + 1 := ⟨count - 1, by grind⟩
    obtain ⟨fuel, rfl⟩ : ∃ n, fuel = n + 2 := ⟨fuel - 2, by omega⟩
    have hvalue : readValue (fuel + 1) (depth - listWeight)
        (List.replicate (count + 1) '[' ++ rest) = .error .tooDeep := ih hinner (by omega)
    have hitems : readItems (fuel + 2) (depth - listWeight)
        (List.replicate (count + 1) '[' ++ rest) = .error .tooDeep := by
      rw [readItems, hvalue]
      rfl
    rw [List.replicate_succ, List.cons_append] at hitems ⊢
    have hfiller : skipFiller false ('[' :: (List.replicate count '[' ++ rest)) =
        .ok ('[' :: (List.replicate count '[' ++ rest)) := rfl
    rw [hfiller]
    show (readItems (fuel + 2) (depth - listWeight) ('[' :: _) >>= _) = _
    rw [hitems]
    rfl

theorem read_of_openings {count : Nat} (h : nestingLimit < listWeight * count) (rest : Text) :
    read ("x = ".toList ++ (List.replicate count '[' ++ rest)) = .error .tooDeep := by
  cases count with
  | zero => exact absurd h (Nat.not_lt_zero _)
  | succ count =>
    refine read_of_value (by decide) fun fuel hfuel => readValue_of_openings rest h ?_
    simp at hfuel
    omega

end Toml
end StepLocator
