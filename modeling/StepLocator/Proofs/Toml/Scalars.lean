import Mathlib.Data.List.Infix
import StepLocator.Toml.Reader

/-!
What a text has to do with the fault that its reading as TOML ends with. Every reading leaves an end
of the text that it was given, so what a part of a document is to blame for stands in the document.
Here are the notions and the readings of keys and of values that hold no others.
-/
namespace StepLocator
namespace Toml

def isOpening (c : Char) : Bool := c == '[' || c == '\x7b'

/-- Somewhere in a text stand so many digits with nothing but underscores between them. -/
def HoldsRun (count : Nat) (text : Text) : Prop :=
  ∃ run, run <:+: text ∧ (∀ c ∈ run, Digits.isAscii c = true ∨ c = '_') ∧
    run.countP Digits.isAscii = count

/-- A text that accounts for a fault of its reading within a depth. Each opening takes at most as
much of the depth as a table does. -/
inductive Blames (depth : Nat) (text : Text) : Fault → Prop
  | malformed : Blames depth text .malformed
  | longInteger {count : Nat} (long : digitLimit < count) (run : HoldsRun count text) :
    Blames depth text (.longInteger count)
  | tooDeep (openings : depth < tableWeight * text.countP isOpening) : Blames depth text .tooDeep

variable {α β : Type} {depth : Nat} {text rest : Text} {fault : Fault}

theorem Blames.mono (h : Blames depth rest fault) (hrest : rest <:+ text) :
    Blames depth text fault := by
  cases h with
  | malformed => exact .malformed
  | longInteger long run =>
    obtain ⟨run, hrun, hdigits, hcount⟩ := run
    exact .longInteger long ⟨run, hrun.trans hrest.isInfix, hdigits, hcount⟩
  | tooDeep openings =>
    have hle := hrest.sublist.countP_le (p := isOpening)
    exact .tooDeep (Nat.lt_of_lt_of_le openings (Nat.mul_le_mul_left _ hle))

theorem Blames.cons {weight : Nat} {c : Char} (hc : isOpening c = true) (hle : weight ≤ depth)
    (hweight : weight ≤ tableWeight) (h : Blames (depth - weight) text fault) :
    Blames depth (c :: text) fault := by
  cases h with
  | malformed => exact .malformed
  | longInteger long run => exact (Blames.longInteger long run).mono (List.suffix_cons _ _)
  | tooDeep openings =>
    refine .tooDeep ?_
    rw [List.countP_cons_of_pos hc, Nat.mul_succ]
    omega

/-- A reading of a text leaves an end of it, or fails for a fault that the text accounts for. -/
def Leaves (depth : Nat) (text : Text) (left : α → Text) : Except Fault α → Prop
  | .ok a => left a <:+ text
  | .error fault => Blames depth text fault

namespace Leaves

variable {left : α → Text} {left' : β → Text} {x : Except Fault α}

theorem mono (h : Leaves depth rest left x) (hrest : rest <:+ text) :
    Leaves depth text left x := by
  cases x with
  | ok a => exact List.IsSuffix.trans h hrest
  | error fault => exact Blames.mono h hrest

theorem bind {f : α → Except Fault β} (h : Leaves depth text left x)
    (hf : ∀ a, left a <:+ text → Leaves depth text left' (f a)) :
    Leaves depth text left' (x >>= f) := by
  cases x with
  | ok a => exact hf a h
  | error fault => exact h

theorem map {f : α → β} (h : Leaves depth text left x) (hf : ∀ a, left' (f a) = left a) :
    Leaves depth text left' (x.map f) := by
  cases x with
  | ok a =>
    show left' (f a) <:+ text
    rw [hf]
    exact h
  | error fault => exact h

theorem cons {weight : Nat} {c : Char} (hc : isOpening c = true) (hle : weight ≤ depth)
    (hweight : weight ≤ tableWeight) (h : Leaves (depth - weight) text left x) :
    Leaves depth (c :: text) left x := by
  cases x with
  | ok a => exact List.IsSuffix.trans h (List.suffix_cons _ _)
  | error fault => exact Blames.cons hc hle hweight h

end Leaves

/-- A reading that is tried leaves an end of the text if it succeeds. -/
def Ends (text : Text) (left : α → Text) (x : Option α) : Prop := ∀ a, x = some a → left a <:+ text

theorem Ends.bind {left : α → Text} {left' : β → Text} {x : Option α} {f : α → Option β}
    (h : Ends text left x) (hf : ∀ a, left a <:+ text → Ends text left' (f a)) :
    Ends text left' (x >>= f) := by
  cases x with
  | none => nofun
  | some a => exact hf a (h a rfl)

theorem Ends.mono {left : α → Text} {x : Option α} (h : Ends rest left x) (hrest : rest <:+ text) :
    Ends text left x := fun a ha => (h a ha).trans hrest

/-! ### Blanks, comments and strings -/

theorem skipBlanks_suffix (text : Text) : skipBlanks text <:+ text := List.dropWhile_suffix _

theorem suffix_of_skipBlanks {c : Char} (h : skipBlanks text = c :: rest) : rest <:+ text :=
  (List.suffix_cons c rest).trans (h ▸ skipBlanks_suffix text)

theorem leaves_skipComment (depth : Nat) (text : Text) :
    Leaves depth text id (skipComment text) := by
  unfold skipComment
  split
  · split
    · exact .malformed
    · exact (List.dropWhile_suffix _).trans (List.suffix_cons _ _)
  · exact List.suffix_refl _

theorem leaves_skipFiller (depth : Nat) (inComment : Bool) (text : Text) :
    Leaves depth text id (skipFiller inComment text) := by
  induction text generalizing inComment with
  | nil => exact List.suffix_refl _
  | cons c rest ih =>
    have hrest (inComment : Bool) : Leaves depth (c :: rest) id (skipFiller inComment rest) :=
      (ih inComment).mono (List.suffix_cons c rest)
    unfold skipFiller
    split
    · split
      · exact hrest false
      · split
        · exact .malformed
        · exact hrest true
    · split
      · exact hrest false
      · split
        · exact hrest true
        · exact List.suffix_refl _

theorem leaves_readHexChar (depth count : Nat) (text : Text) :
    Leaves depth text Prod.snd (readHexChar count text) := by
  unfold readHexChar
  simp only
  split
  · exact .malformed
  · split
    · exact .malformed
    · split
      · exact List.drop_suffix _ _
      · exact .malformed

theorem leaves_skipLineEnd (depth : Nat) (text : Text) :
    Leaves depth text id (skipLineEnd text) := by
  unfold skipLineEnd
  split
  · exact List.nil_suffix
  · rename_i rest h
    exact (List.dropWhile_suffix _).trans (suffix_of_skipBlanks h)
  · exact .malformed

theorem leaves_readEscape (depth : Nat) (inLines : Bool) (text : Text) :
    Leaves depth text Prod.snd (readEscape inLines text) := by
  unfold readEscape
  split
  · refine ((leaves_readHexChar depth 4 _).mono (List.suffix_cons _ _)).bind fun a ha => ?_
    exact ha
  · refine ((leaves_readHexChar depth 8 _).mono (List.suffix_cons _ _)).bind fun a ha => ?_
    exact ha
  · split
    · exact (leaves_skipLineEnd depth _).map fun _ => rfl
    · split
      · exact List.suffix_cons _ _
      · exact .malformed
  · exact .malformed

theorem leaves_readEscapedString (depth : Nat) (inLines : Bool) (fuel : Nat) (text : Text) :
    Leaves depth text Prod.snd (readEscapedString inLines fuel text) := by
  induction fuel generalizing text with
  | zero => exact .malformed
  | succ fuel ih =>
    unfold readEscapedString
    split
    · exact .malformed
    · rename_i rest
      refine ((leaves_readEscape depth inLines rest).mono (List.suffix_cons _ _)).bind
        fun a ha => ?_
      exact ((ih a.2).mono ha).bind fun b hb => hb
    · rename_i c rest hc
      split
      · show (if inLines then rest.drop 2 else rest) <:+ c :: rest
        split
        · exact (List.drop_suffix _ _).trans (List.suffix_cons _ _)
        · exact List.suffix_cons _ _
      · -- which characters are not allowed makes no difference to what is left
        generalize (if inLines then isControlInLines c else isControl c) = control
        split
        · exact .malformed
        · exact ((ih rest).mono (List.suffix_cons _ _)).bind fun b hb => hb

theorem leaves_readPlainString (depth : Nat) (text : Text) :
    Leaves depth text Prod.snd (readPlainString text) := by
  have hquote := List.dropWhile_suffix (l := text) (· != '\x27')
  unfold readPlainString
  simp only
  split
  · exact .malformed
  · rename_i c rest h
    rw [h] at hquote
    split
    · exact .malformed
    · exact (List.suffix_cons _ _).trans hquote

theorem ends_cutAtThree (text : Text) : Ends text Prod.snd (cutAtThree text) := by
  fun_induction cutAtThree text with
  | case1 rest =>
    rintro a ⟨⟩
    exact ⟨['\x27', '\x27', '\x27'], rfl⟩
  | case2 c rest hc ih =>
    rintro a ha
    obtain ⟨b, hb, rfl⟩ := Option.map_eq_some_iff.mp ha
    exact (ih b hb).trans (List.suffix_cons _ _)
  | case3 => nofun

theorem skipFirstLineEnd_suffix (text : Text) : skipFirstLineEnd text <:+ text := by
  unfold skipFirstLineEnd
  split
  · exact List.suffix_cons _ _
  · exact List.suffix_refl _

theorem leaves_readPlainLines (depth : Nat) (text : Text) :
    Leaves depth text Prod.snd (readPlainLines text) := by
  have hends := (ends_cutAtThree (skipFirstLineEnd text)).mono (skipFirstLineEnd_suffix text)
  unfold readPlainLines
  split
  · exact .malformed
  · rename_i content rest h
    split
    · exact .malformed
    · exact (List.drop_suffix _ _).trans (hends _ h)

theorem leaves_readEscapedLines (depth : Nat) (text : Text) :
    Leaves depth text Prod.snd (readEscapedLines text) := by
  refine ((leaves_readEscapedString depth true _ _).mono (skipFirstLineEnd_suffix text)).bind
    fun a ha => ?_
  exact (List.drop_suffix _ _).trans ha

theorem leaves_readString? (depth : Nat) (text : Text) :
    ∀ reading, readString? text = some reading → Leaves depth text Prod.snd reading := by
  unfold readString?
  intro reading h
  split at h
  all_goals cases h
  · exact (leaves_readEscapedLines depth _).mono ⟨['\x22', '\x22', '\x22'], rfl⟩
  · exact (leaves_readEscapedString depth false _ _).mono (List.suffix_cons _ _)
  · exact (leaves_readPlainLines depth _).mono ⟨['\x27', '\x27', '\x27'], rfl⟩
  · exact (leaves_readPlainString depth _).mono (List.suffix_cons _ _)

/-! ### Keys -/

theorem leaves_readKeyPart (depth : Nat) (text : Text) :
    Leaves depth text Prod.snd (readKeyPart text) := by
  unfold readKeyPart
  split
  · exact (leaves_readEscapedString depth false _ _).mono (List.suffix_cons _ _)
  · exact (leaves_readPlainString depth _).mono (List.suffix_cons _ _)
  · split
    · exact .malformed
    · exact List.dropWhile_suffix _

theorem leaves_readKey (depth fuel : Nat) (text : Text) :
    Leaves depth text Prod.snd (readKey fuel text) := by
  induction fuel generalizing text with
  | zero => exact .malformed
  | succ fuel ih =>
    unfold readKey
    refine (leaves_readKeyPart depth text).bind fun ⟨part, after⟩ hafter => ?_
    dsimp only
    split
    · rename_i rest h
      have hrest := (skipBlanks_suffix rest).trans ((suffix_of_skipBlanks h).trans hafter)
      exact ((ih _).mono hrest).bind fun b hb => hb
    · exact (skipBlanks_suffix after).trans hafter

/-! ### Dates and times -/

theorem ends_digits? (count : Nat) (text : Text) : Ends text Prod.snd (digits? count text) := by
  rintro a ha
  rw [digits?] at ha
  split at ha
  · cases ha
    exact List.drop_suffix _ _
  · cases ha

theorem ends_pair? (least greatest : Nat) (text : Text) :
    Ends text Prod.snd (pair? least greatest text) := by
  refine (ends_digits? 2 text).bind fun a ha b hb => ?_
  dsimp only at hb
  split at hb
  · cases hb
    exact ha
  · cases hb

theorem ends_expect? (c : Char) (text : Text) : Ends text id (expect? c text) := by
  rintro rest h
  unfold expect? at h
  split at h
  · split at h
    · cases h
      exact List.suffix_cons _ _
    · cases h
  · cases h

theorem ends_micros? (text : Text) : Ends text Prod.snd (micros? text) := by
  refine (ends_expect? '.' text).bind fun rest hrest a ha => ?_
  split at ha
  · cases ha
  · cases ha
    exact (List.dropWhile_suffix _).trans hrest

theorem ends_clock? (text : Text) : Ends text Prod.snd (clock? text) := by
  refine (ends_pair? 0 23 text).bind fun hour hhour => ?_
  refine ((ends_expect? ':' _).mono hhour).bind fun rest hrest => ?_
  refine ((ends_pair? 0 59 _).mono hrest).bind fun minute hminute => ?_
  refine ((ends_expect? ':' _).mono hminute).bind fun rest hrest => ?_
  refine ((ends_pair? 0 59 _).mono hrest).bind fun second hsecond a ha => ?_
  cases hmicros : micros? second.2 with
  | none =>
    simp only [hmicros] at ha
    cases ha
    exact hsecond
  | some micro =>
    simp only [hmicros] at ha
    cases ha
    exact (ends_micros? _ _ hmicros).trans hsecond

theorem ends_day? (text : Text) : Ends text Prod.snd (day? text) := by
  refine (ends_digits? 4 text).bind fun year hyear => ?_
  refine ((ends_expect? '-' _).mono hyear).bind fun rest hrest => ?_
  refine ((ends_pair? 1 12 _).mono hrest).bind fun month hmonth => ?_
  refine ((ends_expect? '-' _).mono hmonth).bind fun rest hrest => ?_
  refine ((ends_pair? 1 31 _).mono hrest).bind fun day hday a ha => ?_
  cases ha
  exact hday

theorem ends_offset? (text : Text) : Ends text Prod.snd (offset? text) := by
  unfold offset?
  split
  · rintro a ⟨⟩
    exact List.suffix_cons _ _
  · rintro a ⟨⟩
    exact List.suffix_cons _ _
  · split
    · refine ((ends_pair? 0 23 _).mono (List.suffix_cons _ _)).bind fun hour hhour => ?_
      refine ((ends_expect? ':' _).mono hhour).bind fun rest hrest => ?_
      refine ((ends_pair? 0 59 _).mono hrest).bind fun minute hminute a ha => ?_
      cases ha
      exact hminute
    · nofun
  · nofun

theorem ends_clockAfterDay? (text : Text) : Ends text Prod.snd (clockAfterDay? text) := by
  unfold clockAfterDay?
  split
  · split
    · exact (ends_clock? _).mono (List.suffix_cons _ _)
    · nofun
  · nofun

theorem leaves_readMoment? (depth : Nat) (text : Text) :
    ∀ reading, readMoment? text = some reading → Leaves depth text Prod.snd reading := by
  unfold readMoment?
  intro reading h
  split at h
  · rename_i day rest hday
    have hrest : rest <:+ text := ends_day? text _ hday
    split at h
    · cases h
      exact .malformed
    · split at h
      · cases h
        exact hrest
      · rename_i clock after hclock
        have hafter : after <:+ text := ((ends_clockAfterDay? rest).mono hrest) _ hclock
        split at h
        · cases h
          exact hafter
        · rename_i offset last hoffset
          cases h
          exact ((ends_offset? after).mono hafter) _ hoffset
  · obtain ⟨found, hfound, rfl⟩ := Option.map_eq_some_iff.mp h
    exact ends_clock? text _ hfound

/-! ### Numbers -/

/-- Grouped digits are a run of the text, with an underscore at most before each digit but the
first. -/
theorem moreDigits_run (inClass : Char → Bool) (hunderscore : inClass '_' = false) (text : Text) :
    ∃ run, text = run ++ (moreDigits inClass text).2 ∧
      (∀ c ∈ run, inClass c = true ∨ c = '_') ∧
      run.countP inClass = (moreDigits inClass text).1.length := by
  fun_induction moreDigits inClass text with
  | case1 c rest hc digits after hmore ih =>
    obtain ⟨run, hrun, hclass, hcount⟩ := ih
    rw [hmore] at hrun hcount
    refine ⟨'_' :: c :: run, by rw [hrun]; rfl, ?_, ?_⟩
    · simpa [hc] using hclass
    · simp [hc, hunderscore, hcount]
  | case2 c rest hc => exact ⟨[], rfl, by simp, rfl⟩
  | case3 c rest hne hc digits after hmore ih =>
    obtain ⟨run, hrun, hclass, hcount⟩ := ih
    rw [hmore] at hrun hcount
    refine ⟨c :: run, by rw [hrun]; rfl, ?_, ?_⟩
    · simpa [hc] using hclass
    · simp [hc, hcount]
  | case4 c rest hne hc => exact ⟨[], rfl, by simp, rfl⟩
  | case5 => exact ⟨[], rfl, by simp, rfl⟩

theorem groupedDigits?_run {inClass : Char → Bool} (hunderscore : inClass '_' = false)
    {digits : Text} (h : groupedDigits? inClass text = some (digits, rest)) :
    ∃ run, text = run ++ rest ∧ (∀ c ∈ run, inClass c = true ∨ c = '_') ∧
      run.countP inClass = digits.length := by
  unfold groupedDigits? at h
  split at h
  · rename_i c tail
    split at h
    · rename_i hc
      cases h
      obtain ⟨run, hrun, hclass, hcount⟩ := moreDigits_run inClass hunderscore tail
      refine ⟨c :: run, by rw [List.cons_append, ← hrun], ?_, ?_⟩
      · simpa [hc] using hclass
      · simp [hc, hcount]
    · cases h
  · cases h

theorem ends_groupedDigits? {inClass : Char → Bool} (hunderscore : inClass '_' = false)
    (text : Text) : Ends text Prod.snd (groupedDigits? inClass text) := by
  rintro ⟨digits, rest⟩ h
  obtain ⟨run, hrun, -⟩ := groupedDigits?_run hunderscore h
  exact ⟨run, hrun.symm⟩

theorem ends_basedInteger? (text : Text) : Ends text Prod.snd (basedInteger? text) := by
  unfold basedInteger?
  split
  · rename_i letter rest
    intro a ha
    obtain ⟨base, -, ha⟩ := Option.bind_eq_some_iff.mp ha
    obtain ⟨⟨digits, after⟩, hdigits, ha⟩ := Option.bind_eq_some_iff.mp ha
    cases ha
    have hafter : after <:+ rest := ends_groupedDigits? rfl rest _ hdigits
    exact hafter.trans ⟨['0', letter], rfl⟩
  · nofun

theorem wholePart?_run {whole : Text} (h : wholePart? text = some (whole, rest)) :
    ∃ run, text = run ++ rest ∧ (∀ c ∈ run, Digits.isAscii c = true ∨ c = '_') ∧
      run.countP Digits.isAscii = whole.length := by
  unfold wholePart? at h
  split at h
  · cases h
    exact ⟨['0'], rfl, List.forall_mem_singleton.mpr (.inl rfl), rfl⟩
  · exact groupedDigits?_run (by decide) h

theorem fractionPart_suffix (text : Text) : (fractionPart text).2 <:+ text := by
  unfold fractionPart
  cases h : (expect? '.' text).bind (groupedDigits? Digits.isAscii) with
  | none => exact List.suffix_refl _
  | some found =>
    obtain ⟨rest, hrest, hfound⟩ := Option.bind_eq_some_iff.mp h
    exact (ends_groupedDigits? (by decide) rest found hfound).trans
      (ends_expect? '.' text rest hrest)

theorem splitSign_suffix (text : Text) : (Integer.splitSign text).2 <:+ text := by
  unfold Integer.splitSign
  split
  · exact List.suffix_cons _ _
  · exact List.suffix_cons _ _
  · exact List.suffix_refl _

theorem exponentPart_suffix (text : Text) : (exponentPart text).2 <:+ text := by
  unfold exponentPart
  split
  · rename_i c rest
    split
    · have hbody := splitSign_suffix rest
      simp only
      split
      · rename_i digits after hdigits
        exact ((ends_groupedDigits? (by decide) _ _ hdigits).trans hbody).trans
          (List.suffix_cons _ _)
      · exact List.suffix_refl _
    · exact List.suffix_refl _
  · exact List.suffix_refl _

theorem leaves_readDecimal? (depth : Nat) (text : Text) :
    ∀ reading, readDecimal? text = some reading → Leaves depth text Prod.snd reading := by
  intro reading h
  obtain ⟨⟨whole, rest⟩, hwhole, rfl⟩ := Option.map_eq_some_iff.mp h
  obtain ⟨run, hrun, hdigits, hcount⟩ := wholePart?_run hwhole
  have hbody := splitSign_suffix text
  -- the digits that are counted are those in front of a fraction and an exponent
  have hrest : rest <:+ text := List.IsSuffix.trans ⟨run, hrun.symm⟩ hbody
  have hafter : (exponentPart (fractionPart rest).2).2 <:+ text :=
    ((exponentPart_suffix _).trans (fractionPart_suffix rest)).trans hrest
  simp only
  split
  · split
    · rename_i hlong
      refine .longInteger hlong ⟨run, ?_, hdigits, hcount⟩
      have hbegin : run <+: (Integer.splitSign text).2 := ⟨rest, hrun.symm⟩
      exact hbegin.isInfix.trans hbody.isInfix
    · exact hafter
  · exact hafter

theorem ends_findSome_word {γ : Type} (words : List (Text × γ)) (make : γ → α) (text : Text) :
    Ends text Prod.snd (words.findSome? fun (word, x) =>
      (word.isPrefixOf? text).map fun rest => (make x, rest)) := by
  intro a ha
  obtain ⟨⟨word, x⟩, -, hword⟩ := List.exists_of_findSome?_eq_some ha
  obtain ⟨rest, hrest, rfl⟩ := Option.map_eq_some_iff.mp hword
  exact ⟨word, List.append_eq_of_isPrefixOf?_eq_some hrest⟩

theorem leaves_readScalar (depth : Nat) (text : Text) :
    Leaves depth text Prod.snd (readScalar text) := by
  unfold readScalar
  split
  · rename_i reading hreading
    exact (leaves_readString? depth text reading hreading).map fun _ => rfl
  split
  · rename_i found hfound
    exact ends_findSome_word _ Value.bool text found hfound
  split
  · rename_i reading hreading
    exact (leaves_readMoment? depth text reading hreading).map fun _ => rfl
  split
  · rename_i found hfound
    exact ends_basedInteger? text found hfound
  split
  · rename_i reading hreading
    exact leaves_readDecimal? depth text reading hreading
  split
  · rename_i found hfound
    exact ends_findSome_word _ Value.num text found hfound
  · exact .malformed

end Toml
end StepLocator
