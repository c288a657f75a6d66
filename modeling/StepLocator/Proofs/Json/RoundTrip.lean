import StepLocator.Proofs.Json.Strings
import StepLocator.Proofs.Number.Digits

/-!
JSON there and back. What is printed of a value on one line is read as the value: a string from its
quotes, an integer from its digits, and a list or a table from what it holds, down to the depth that
a reader allows.
-/
namespace StepLocator

namespace Entries

theorem insert_of_notMem {key : Text} {value : Value} {entries : Entries}
    (h : key ∉ entries.map Prod.fst) : insert key value entries = entries ++ [(key, value)] := by
  induction entries with
  | nil => rfl
  | cons e rest ih =>
    obtain ⟨k, v⟩ := e
    have hk : k ≠ key := fun e => h (by simp [e])
    have hrest : key ∉ rest.map Prod.fst := fun hm => h (by simp [hm])
    rw [insert, if_neg hk, ih hrest, List.cons_append]

theorem insertAll_of_nodup {entries more : Entries}
    (h : ((entries ++ more).map Prod.fst).Nodup) : insertAll entries more = entries ++ more := by
  induction more generalizing entries with
  | nil => simp [insertAll]
  | cons e rest ih =>
    obtain ⟨k, v⟩ := e
    have hk : k ∉ entries.map Prod.fst := by
      rw [List.map_append, List.nodup_append] at h
      exact fun hm => h.2.2 k hm k (by simp) rfl
    have hstep : insertAll entries ((k, v) :: rest) = insertAll (insert k v entries) rest := rfl
    rw [hstep, insert_of_notMem hk, ih (by simpa using h), List.append_assoc, List.singleton_append]

end Entries

namespace Json

/-- The values that a reader gives back from their printed form: they hold each other down to a
depth at most, the keys of a table differ, integers are not too long, and there are no numbers with
a fraction and no moments among them. -/
inductive Readable : Nat → Value → Prop
  | null {d : Nat} : Readable d .null
  | bool {d : Nat} (b : Bool) : Readable d (.bool b)
  | int {d : Nat} {i : Int} (h : (natText i.natAbs).length ≤ digitLimit) : Readable d (.int i)
  | text {d : Nat} (t : Text) : Readable d (.text t)
  | list {d : Nat} {items : List Value} (h : ∀ x ∈ items, Readable d x) :
    Readable (d + 1) (.list items)
  | table {d : Nat} {entries : Entries} (distinct : (entries.map Prod.fst).Nodup)
    (h : ∀ e ∈ entries, Readable d e.2) : Readable (d + 1) (.table entries)

theorem Readable.mono {d e : Nat} {v : Value} (h : Readable d v) (hde : d ≤ e) : Readable e v := by
  induction h generalizing e with
  | null => exact .null
  | bool b => exact .bool b
  | int h => exact .int h
  | text t => exact .text t
  | list h ih =>
    obtain ⟨n, rfl⟩ := Nat.exists_eq_succ_of_ne_zero (by omega : e ≠ 0)
    exact .list fun x hx => ih x hx (by omega)
  | table distinct h ih =>
    obtain ⟨n, rfl⟩ := Nat.exists_eq_succ_of_ne_zero (by omega : e ≠ 0)
    exact .table distinct fun x hx => ih x hx (by omega)

section

variable {d : Nat}

@[simp] theorem readable_null : Readable d .null := .null

@[simp] theorem readable_bool (b : Bool) : Readable d (.bool b) := .bool b

@[simp] theorem readable_text (t : Text) : Readable d (.text t) := .text t

@[simp] theorem readable_int_iff {i : Int} :
    Readable d (.int i) ↔ (natText i.natAbs).length ≤ digitLimit := by
  constructor
  · rintro ⟨⟩
    assumption
  · exact .int

@[simp] theorem readable_list_iff {items : List Value} :
    Readable (d + 1) (.list items) ↔ ∀ x ∈ items, Readable d x := by
  constructor
  · rintro ⟨⟩
    assumption
  · exact .list

@[simp] theorem readable_table_iff {entries : Entries} :
    Readable (d + 1) (.table entries) ↔
      (entries.map Prod.fst).Nodup ∧ ∀ e ∈ entries, Readable d e.2 := by
  constructor
  · rintro ⟨⟩
    exact ⟨by assumption, by assumption⟩
  · exact fun h => .table h.1 h.2

end

/-- The ends of a value: nothing, a comma, or the end of what holds it. -/
def Ends (rest : Text) : Prop := ∀ c ∈ rest.head?, c = ',' ∨ c = ']' ∨ c = '\x7d'

theorem ends_cons {c : Char} (h : c = ',' ∨ c = ']' ∨ c = '\x7d') (rest : Text) :
    Ends (c :: rest) := by
  intro d hd
  obtain rfl : c = d := by simpa using hd
  exact h

theorem skip_of_ends {rest : Text} (h : Ends rest) : skip rest = rest := by
  cases rest with
  | nil => rfl
  | cons c more =>
    have hc : isSpace c = false := by
      rcases h c rfl with rfl | rfl | rfl
      all_goals decide
    rw [skip, List.dropWhile_cons_of_neg (by simp [hc])]

def Begins (c : Char) : Prop := isSpace c = false ∧ c ≠ ']' ∧ c.toNat < 0x80

theorem begins_of_isAscii {c : Char} (h : Digits.isAscii c = true) : Begins c := by
  refine ⟨?_, ?_, ?_⟩
  · simp only [isSpace, Bool.or_eq_false_iff, beq_eq_false_iff_ne]
    refine ⟨⟨⟨?_, ?_⟩, ?_⟩, ?_⟩
    all_goals
      rintro rfl
      exact absurd h (by decide)
  · rintro rfl
    exact absurd h (by decide)
  · have hrange := Digits.toNat_of_isAscii h
    omega

theorem natText_eq_cons (n : Nat) :
    ∃ c rest, natText n = c :: rest ∧ Digits.isAscii c = true := by
  obtain ⟨c, rest, h⟩ := List.exists_cons_of_ne_nil (Digits.natText_ne_nil n)
  exact ⟨c, rest, h, Digits.isAscii_of_mem_natText (h ▸ List.mem_cons_self)⟩

theorem begins_print {d : Nat} {v : Value} (h : Readable d v) :
    ∃ c rest, print v = c :: rest ∧ Begins c := by
  have hletter : ∀ c ∈ ['n', 't', 'f', '\x22', '[', '\x7b', '-'], Begins c := by
    intro c hc
    simp only [List.mem_cons, List.not_mem_nil, or_false] at hc
    unfold Begins
    rcases hc with rfl | rfl | rfl | rfl | rfl | rfl | rfl
    all_goals decide
  cases h with
  | null => exact ⟨'n', _, rfl, hletter _ (by decide)⟩
  | bool b =>
    cases b with
    | true => exact ⟨'t', _, rfl, hletter _ (by decide)⟩
    | false => exact ⟨'f', _, rfl, hletter _ (by decide)⟩
  | @int _ i _ =>
    cases i with
    | ofNat n =>
      obtain ⟨c, rest, hform, hc⟩ := natText_eq_cons n
      exact ⟨c, rest, hform, begins_of_isAscii hc⟩
    | negSucc n => exact ⟨'-', _, rfl, hletter _ (by decide)⟩
  | text t => exact ⟨'\x22', _, rfl, hletter _ (by decide)⟩
  | list _ => exact ⟨'[', _, rfl, hletter _ (by decide)⟩
  | table _ _ => exact ⟨'\x7b', _, rfl, hletter _ (by decide)⟩

theorem splitWhole_natText (n : Nat) {rest : Text} (h : Ends rest) :
    splitWhole (natText n ++ rest) = (natText n, rest) := by
  have hstop : ∀ c ∈ rest.head?, Digits.isAscii c = false := fun c hc => by
    rcases h c hc with rfl | rfl | rfl
    all_goals decide
  have hall : ∀ c ∈ natText n, Digits.isAscii c = true := fun c => Digits.isAscii_of_mem_natText
  have hrest : rest.takeWhile Digits.isAscii = [] ∧ rest.dropWhile Digits.isAscii = rest := by
    cases rest with
    | nil => exact ⟨rfl, rfl⟩
    | cons c more => simp [hstop c rfl]
  by_cases hn : n = 0
  · subst hn
    rw [Digits.natText_zero]
    rfl
  · obtain ⟨c, more, hform, hc⟩ := Digits.natText_head hn
    have hsplit : splitWhole (natText n ++ rest) = ((natText n ++ rest).takeWhile Digits.isAscii,
        (natText n ++ rest).dropWhile Digits.isAscii) := by
      rw [hform, List.cons_append, splitWhole]
      simp [hc]
    rw [hsplit, List.takeWhile_append_of_pos hall, List.dropWhile_append_of_pos hall, hrest.1,
      hrest.2, List.append_nil]

theorem splitFraction_of_ends {rest : Text} (h : Ends rest) : splitFraction rest = ([], rest) := by
  cases rest with
  | nil => rfl
  | cons c more =>
    have hc : c ≠ '.' := by
      rcases h c rfl with rfl | rfl | rfl
      all_goals decide
    rw [splitFraction]
    simp [hc]

theorem splitExponent_of_ends {rest : Text} (h : Ends rest) :
    splitExponent rest = (none, rest) := by
  cases rest with
  | nil => rfl
  | cons c more =>
    have hc : ¬ (c = 'e' ∨ c = 'E') := by
      rcases h c rfl with rfl | rfl | rfl
      all_goals decide
    rw [splitExponent, if_neg hc]

theorem readNumber_intText {i : Int} (hi : (natText i.natAbs).length ≤ digitLimit) {rest : Text}
    (h : Ends rest) : readNumber (intText i ++ rest) = .ok (.int i, rest) := by
  obtain ⟨c, more, hform, hc⟩ := natText_eq_cons i.natAbs
  have hwhole := splitWhole_natText i.natAbs h
  have hvalue := Digits.toNat_natText i.natAbs
  rw [hform, List.length_cons] at hi
  have hlong : ¬ digitLimit < more.length + 1 := by omega
  rw [hform] at hwhole hvalue
  have hfraction := splitFraction_of_ends h
  have hexponent := splitExponent_of_ends h
  cases i with
  | ofNat n =>
    have hminus : c ≠ '-' := by
      rintro rfl
      exact absurd hc (by decide)
    have htext : intText (.ofNat n) = c :: more := hform
    rw [List.cons_append] at hwhole
    rw [htext]
    simp [readNumber, hminus, hwhole, hfraction, hexponent, hlong, hvalue, Integer.signed]
  | negSucc n =>
    have htext : intText (.negSucc n) = '-' :: c :: more := congrArg ('-' :: ·) hform
    have hsign : Integer.signed true (n + 1) = .negSucc n := rfl
    rw [Int.natAbs_negSucc] at hvalue
    rw [List.cons_append] at hwhole
    rw [htext]
    simp [readNumber, hwhole, hfraction, hexponent, hlong, hvalue, hsign]

theorem readWord_of_digit {c : Char} (hc : Digits.isAscii c = true) (rest : Text) :
    readWord (c :: rest) = none := by
  have hne : ∀ d : Char, Digits.isAscii d = false → (d == c) = false := fun d hd =>
    beq_eq_false_iff_ne.mpr (Digits.ne_of_isAscii hc hd).symm
  have hn := hne 'n' (by decide)
  have ht := hne 't' (by decide)
  have hf := hne 'f' (by decide)
  have hN := hne 'N' (by decide)
  have hI := hne 'I' (by decide)
  have hminus := hne '-' (by decide)
  simp [readWord, words, Text.isPrefixOf?_of_ne, hn, ht, hf, hN, hI, hminus]

theorem readWord_of_sign {c : Char} (hc : Digits.isAscii c = true) (rest : Text) :
    readWord ('-' :: c :: rest) = none := by
  have hI : ('I' == c) = false :=
    beq_eq_false_iff_ne.mpr (Digits.ne_of_isAscii hc (by decide)).symm
  have hinfinity : ∀ word : Text, ('-' :: 'I' :: word).isPrefixOf? ('-' :: c :: rest) = none :=
    fun word => Text.isPrefixOf?_of_ne hI word rest
  have hother : ∀ d : Char, (d == '-') = false → ∀ word : Text,
      (d :: word).isPrefixOf? ('-' :: c :: rest) = none := fun d hd word =>
    Text.isPrefixOf?_of_ne hd word (c :: rest)
  simp [readWord, words, hother, hinfinity]

/-- A text that begins neither a string nor a list nor a table is a word or a number. -/
theorem readValue_atom (fuel depth : Nat) {c : Char} (hs : c ≠ '\x22') (hl : c ≠ '[')
    (ht : c ≠ '\x7b') (rest : Text) :
    readValue (fuel + 1) depth (c :: rest) =
      match readWord (c :: rest) with
      | some found => .ok found
      | none => readNumber (c :: rest) := by
  have hne : ∀ {d : Char}, c ≠ d → ∀ more, c :: rest ≠ d :: more := fun h more e =>
    h (List.cons.inj e).1
  exact readValue.eq_7 depth (c :: rest) fuel (fun more e => hne hs more e)
    (fun more e _ => hne hl more e) (fun more _ e _ => hne hl more e)
    (fun more e _ => hne ht more e) (fun more _ e _ => hne ht more e)

theorem readValue_word (fuel depth : Nat) {c : Char} {rest after : Text} {v : Value}
    (hs : c ≠ '\x22') (hl : c ≠ '[') (ht : c ≠ '\x7b')
    (h : readWord (c :: rest) = some (v, after)) :
    readValue (fuel + 1) depth (c :: rest) = .ok (v, after) := by
  rw [readValue_atom fuel depth hs hl ht, h]

theorem readValue_number (fuel depth : Nat) {i : Int}
    (hi : (natText i.natAbs).length ≤ digitLimit) {rest : Text} (h : Ends rest) :
    readValue (fuel + 1) depth (intText i ++ rest) = .ok (.int i, rest) := by
  have hread := readNumber_intText hi h
  obtain ⟨c, more, hform, hc⟩ := natText_eq_cons i.natAbs
  have hne : ∀ d : Char, Digits.isAscii d = false → c ≠ d := by
    rintro d hd rfl
    simp [hd] at hc
  cases i with
  | ofNat n =>
    have htext : intText (.ofNat n) = c :: more := hform
    rw [htext, List.cons_append] at hread ⊢
    rw [readValue_atom fuel depth (hne _ (by decide)) (hne _ (by decide)) (hne _ (by decide)),
      readWord_of_digit hc]
    exact hread
  | negSucc n =>
    have htext : intText (.negSucc n) = '-' :: c :: more := congrArg ('-' :: ·) hform
    rw [htext, List.cons_append, List.cons_append] at hread ⊢
    rw [readValue_atom fuel depth (by decide) (by decide) (by decide), readWord_of_sign hc]
    exact hread

theorem readValue_text (fuel depth : Nat) (t rest : Text) (h : t.length < fuel) :
    readValue (fuel + 1) depth (quote t ++ rest) = .ok (.text t, rest) := by
  have hquote : quote t ++ rest = '\x22' :: (t.flatMap escapeChar ++ '\x22' :: rest) := by
    simp [quote]
  rw [hquote, readValue, readString_escape _ t rest h]
  rfl

/-- What is printed of a value is read as the value, with fuel for each character. -/
def ReadsBack (d : Nat) (v : Value) : Prop :=
  ∀ (fuel : Nat) (rest : Text), 2 * (print v).length ≤ fuel → Ends rest →
    readValue fuel d (print v ++ rest) = .ok (v, rest)

theorem skip_begins {c : Char} (h : Begins c) (rest : Text) : skip (c :: rest) = c :: rest := by
  rw [skip, List.dropWhile_cons_of_neg (by simp [h.1])]

theorem skip_blank_begins {c : Char} (h : Begins c) (rest : Text) :
    skip (' ' :: c :: rest) = c :: rest := by
  have hblank : isSpace ' ' = true := by decide
  rw [skip, List.dropWhile_cons_of_pos hblank]
  exact skip_begins h rest

theorem begins_printItems {d : Nat} {x : Value} (h : Readable d x) (more : List Value) :
    ∃ c rest, printItems (x :: more) = c :: rest ∧ Begins c := by
  obtain ⟨c, rest, hform, hc⟩ := begins_print h
  rw [printItems, hform, List.cons_append, List.cons_append]
  exact ⟨c, _, rfl, hc⟩

theorem readItems_printItems {d : Nat} {x : Value} {items : List Value}
    (readable : ∀ y ∈ x :: items, Readable d y) (back : ∀ y ∈ x :: items, ReadsBack d y)
    {fuel : Nat} (hfuel : 2 * (printItems (x :: items)).length < fuel) (rest : Text) :
    readItems fuel d (printItems (x :: items) ++ ']' :: rest) = .ok (x :: items, rest) := by
  induction items generalizing x fuel with
  | nil =>
    obtain ⟨n, rfl⟩ := Nat.exists_eq_succ_of_ne_zero (Nat.ne_of_gt (Nat.zero_lt_of_lt hfuel))
    have hform : printItems [x] = print x := by simp [printItems]
    rw [hform] at hfuel ⊢
    have hends : Ends (']' :: rest) := ends_cons (by simp) rest
    have hx := back x (by simp) n (']' :: rest) (by omega) hends
    simp only [readItems, hx, bind, Except.bind, skip_of_ends hends]
    rfl
  | cons y more ih =>
    obtain ⟨n, rfl⟩ := Nat.exists_eq_succ_of_ne_zero (Nat.ne_of_gt (Nat.zero_lt_of_lt hfuel))
    have hform : printItems (x :: y :: more) =
        print x ++ (',' :: ' ' :: printItems (y :: more)) := by
      simp [printItems]
    rw [hform] at hfuel ⊢
    rw [List.length_append, List.length_cons, List.length_cons] at hfuel
    have hends : Ends (',' :: ' ' :: (printItems (y :: more) ++ ']' :: rest)) :=
      ends_cons (by simp) _
    have hx := back x (by simp) n _ (by omega) hends
    have hmore : readItems n d (printItems (y :: more) ++ ']' :: rest) =
        .ok (y :: more, rest) :=
      ih (fun z hz => readable z (List.mem_cons_of_mem x hz))
        (fun z hz => back z (List.mem_cons_of_mem x hz)) (by omega)
    obtain ⟨c, tail, hbegin, hc⟩ := begins_printItems (readable y (by simp)) more
    have hskip : skip (' ' :: (printItems (y :: more) ++ ']' :: rest)) =
        printItems (y :: more) ++ ']' :: rest := by
      rw [hbegin, List.cons_append, skip_blank_begins hc]
    rw [List.append_assoc, List.cons_append, List.cons_append]
    simp only [readItems, hx, bind, Except.bind, skip_of_ends hends, hskip, hmore]
    rfl

theorem length_lt_quote (t : Text) : t.length < (quote t).length := by
  have h := length_le_escape t
  simp only [quote, List.cons_append, List.length_cons, List.length_append]
  omega

theorem printEntries_single (k : Text) (v : Value) :
    printEntries [(k, v)] = quote k ++ (':' :: ' ' :: print v) := by
  simp [printEntries]

theorem printEntries_cons (k : Text) (v : Value) (e : Text × Value) (more : Entries) :
    printEntries ((k, v) :: e :: more) =
      quote k ++ (':' :: ' ' :: (print v ++ (',' :: ' ' :: printEntries (e :: more)))) := by
  simp [printEntries]

theorem begins_printEntries (e : Text × Value) (more : Entries) :
    ∃ rest, printEntries (e :: more) = '\x22' :: rest := by
  obtain ⟨k, v⟩ := e
  rw [printEntries, quote]
  exact ⟨_, rfl⟩

theorem readEntries_step {d n : Nat} {v : Value} (readable : Readable d v) (back : ReadsBack d v)
    {k rest : Text} (hk : k.length < n) (hv : 2 * (print v).length ≤ n) : Ends rest →
    readEntries (n + 1) d (quote k ++ (':' :: ' ' :: (print v ++ rest))) =
      match rest with
      | '\x7d' :: after => .ok ([(k, v)], after)
      | ',' :: after => do
        let (more, after) ← readEntries n d (skip after)
        return ((k, v) :: more, after)
      | rest => .error (.unexpected .comma rest) := by
  intro hends
  have hquote : quote k ++ (':' :: ' ' :: (print v ++ rest)) =
      '\x22' :: (k.flatMap escapeChar ++ '\x22' :: ':' :: ' ' :: (print v ++ rest)) := by
    simp [quote]
  have hcolon : skip (':' :: ' ' :: (print v ++ rest)) = ':' :: ' ' :: (print v ++ rest) := by
    have hmark : isSpace ':' = false := by decide
    rw [skip, List.dropWhile_cons_of_neg (by simp [hmark])]
  obtain ⟨c, tail, hbegin, hc⟩ := begins_print readable
  have hskip : skip (' ' :: (print v ++ rest)) = print v ++ rest := by
    rw [hbegin, List.cons_append, skip_blank_begins hc]
  have hvalue := back n rest hv hends
  rw [hquote]
  simp only [readEntries, readString_escape _ k _ hk, bind, Except.bind, hcolon, hskip, hvalue,
    skip_of_ends hends]
  rfl

theorem readEntries_printEntries {d : Nat} {e : Text × Value} {entries : Entries}
    (readable : ∀ y ∈ e :: entries, Readable d y.2) (back : ∀ y ∈ e :: entries, ReadsBack d y.2)
    {fuel : Nat} (hfuel : 2 * (printEntries (e :: entries)).length < fuel) (rest : Text) :
    readEntries fuel d (printEntries (e :: entries) ++ '\x7d' :: rest) =
      .ok (e :: entries, rest) := by
  induction entries generalizing e fuel with
  | nil =>
    obtain ⟨k, v⟩ := e
    obtain ⟨n, rfl⟩ := Nat.exists_eq_succ_of_ne_zero (Nat.ne_of_gt (Nat.zero_lt_of_lt hfuel))
    have hk := length_lt_quote k
    have hv : Readable d v := readable (k, v) (by simp)
    have hback : ReadsBack d v := back (k, v) (by simp)
    rw [printEntries_single] at hfuel ⊢
    rw [List.length_append, List.length_cons, List.length_cons] at hfuel
    rw [List.append_assoc, List.cons_append, List.cons_append]
    exact readEntries_step hv hback (by omega) (by omega) (ends_cons (by simp) rest)
  | cons f more ih =>
    obtain ⟨k, v⟩ := e
    obtain ⟨n, rfl⟩ := Nat.exists_eq_succ_of_ne_zero (Nat.ne_of_gt (Nat.zero_lt_of_lt hfuel))
    have hk := length_lt_quote k
    have hv : Readable d v := readable (k, v) (by simp)
    have hback : ReadsBack d v := back (k, v) (by simp)
    rw [printEntries_cons] at hfuel ⊢
    simp only [List.length_append, List.length_cons] at hfuel
    have hmore : readEntries n d (printEntries (f :: more) ++ '\x7d' :: rest) =
        .ok (f :: more, rest) :=
      ih (fun z hz => readable z (List.mem_cons_of_mem _ hz))
        (fun z hz => back z (List.mem_cons_of_mem _ hz)) (by omega)
    obtain ⟨tail, hbegin⟩ := begins_printEntries f more
    have hskip : skip (' ' :: (printEntries (f :: more) ++ '\x7d' :: rest)) =
        printEntries (f :: more) ++ '\x7d' :: rest := by
      rw [hbegin, List.cons_append]
      exact skip_blank_begins ⟨by decide, by decide, by decide⟩ _
    simp only [List.append_assoc, List.cons_append]
    rw [readEntries_step hv hback (by omega) (by omega) (ends_cons (by simp) _)]
    simp only [hskip, hmore, bind, Except.bind]
    rfl

theorem ReadsBack.of_succ {d : Nat} {v : Value} (readable : Readable d v)
    (h : ∀ (n : Nat) (rest : Text), 2 * (print v).length ≤ n + 1 → Ends rest →
      readValue (n + 1) d (print v ++ rest) = .ok (v, rest)) : ReadsBack d v := by
  intro fuel rest hfuel hends
  obtain ⟨c, tail, hbegin, _⟩ := begins_print readable
  have hpos : (print v).length = tail.length + 1 := by rw [hbegin, List.length_cons]
  obtain ⟨n, rfl⟩ := Nat.exists_eq_succ_of_ne_zero (by omega : fuel ≠ 0)
  exact h n rest hfuel hends

theorem readsBack_list {d : Nat} {items : List Value} (readable : ∀ x ∈ items, Readable d x)
    (back : ∀ x ∈ items, ReadsBack d x) : ReadsBack (d + 1) (.list items) := by
  refine .of_succ (.list readable) fun n rest hfuel hends => ?_
  cases items with
  | nil =>
    have hform : print (.list []) ++ rest = '[' :: ']' :: rest := by simp [print, printItems]
    have hskip : skip (']' :: rest) = ']' :: rest := skip_of_ends (ends_cons (by simp) rest)
    rw [hform]
    simp only [readValue, hskip]
  | cons x more =>
    have hform : print (.list (x :: more)) ++ rest =
        '[' :: (printItems (x :: more) ++ ']' :: rest) := by simp [print]
    have hlength : (print (.list (x :: more))).length = (printItems (x :: more)).length + 2 := by
      simp [print]
    have hread : readItems n d (printItems (x :: more) ++ ']' :: rest) = .ok (x :: more, rest) :=
      readItems_printItems readable back (by omega) rest
    obtain ⟨c, tail, hbegin, hc⟩ := begins_printItems (readable x (by simp)) more
    have hskip : skip (printItems (x :: more) ++ ']' :: rest) =
        printItems (x :: more) ++ ']' :: rest := by
      rw [hbegin, List.cons_append, skip_begins hc]
    rw [hform]
    rw [hbegin, List.cons_append] at hskip hread ⊢
    have hclose := hc.2.1
    simp only [readValue, hskip]
    split
    · rename_i e
      exact absurd (List.cons.inj e).1 hclose
    · simp only [hread, bind, Except.bind]
      rfl

theorem readsBack_table {d : Nat} {entries : Entries} (distinct : (entries.map Prod.fst).Nodup)
    (readable : ∀ e ∈ entries, Readable d e.2) (back : ∀ e ∈ entries, ReadsBack d e.2) :
    ReadsBack (d + 1) (.table entries) := by
  refine .of_succ (.table distinct readable) fun n rest hfuel hends => ?_
  cases entries with
  | nil =>
    have hform : print (.table []) ++ rest = '\x7b' :: '\x7d' :: rest := by
      simp [print, printEntries]
    have hskip : skip ('\x7d' :: rest) = '\x7d' :: rest := skip_of_ends (ends_cons (by simp) rest)
    rw [hform]
    simp only [readValue, hskip]
  | cons e more =>
    have hform : print (.table (e :: more)) ++ rest =
        '\x7b' :: (printEntries (e :: more) ++ '\x7d' :: rest) := by simp [print]
    have hlength : (print (.table (e :: more))).length =
        (printEntries (e :: more)).length + 2 := by simp [print]
    have hread : readEntries n d (printEntries (e :: more) ++ '\x7d' :: rest) =
        .ok (e :: more, rest) := readEntries_printEntries readable back (by omega) rest
    obtain ⟨tail, hbegin⟩ := begins_printEntries e more
    have hskip : skip (printEntries (e :: more) ++ '\x7d' :: rest) =
        printEntries (e :: more) ++ '\x7d' :: rest := by
      rw [hbegin, List.cons_append]
      exact skip_begins ⟨by decide, by decide, by decide⟩ _
    have hall : Entries.insertAll [] (e :: more) = e :: more :=
      Entries.insertAll_of_nodup (by simpa using distinct)
    rw [hform]
    rw [hbegin, List.cons_append] at hskip hread ⊢
    simp only [readValue, hskip]
    split
    · rename_i e
      exact absurd (List.cons.inj e).1 (by decide)
    · simp only [hread, bind, Except.bind, hall]
      rfl

/-- A readable value is read back from what is printed of it. -/
theorem Readable.readsBack {d : Nat} {v : Value} (h : Readable d v) : ReadsBack d v := by
  -- on what makes it readable: lists and tables have the claim for what they hold
  induction h with
  | null =>
    refine .of_succ .null fun n rest hfuel hends => ?_
    exact readValue_word n _ (by decide) (by decide) (by decide) rfl
  | bool b =>
    refine .of_succ (.bool b) fun n rest hfuel hends => ?_
    cases b with
    | true => exact readValue_word n _ (by decide) (by decide) (by decide) rfl
    | false => exact readValue_word n _ (by decide) (by decide) (by decide) rfl
  | int h =>
    refine .of_succ (.int h) fun n rest hfuel hends => ?_
    exact readValue_number n _ h hends
  | text t =>
    refine .of_succ (.text t) fun n rest hfuel hends => ?_
    have hlength : 2 * (quote t).length ≤ n + 1 := hfuel
    have ht := length_lt_quote t
    exact readValue_text n _ t rest (by omega)
  | list h ih => exact readsBack_list h ih
  | table distinct h ih => exact readsBack_table distinct h ih

/-- A readable value that is not nested too deeply is read from its printed form. -/
theorem read_print {v : Value} (h : Readable nestingLimit v) : read (print v) = .ok v := by
  obtain ⟨c, tail, hbegin, hc⟩ := begins_print h
  have hends : Ends [] := by simp [Ends]
  have hread := h.readsBack (2 * (print v).length + 2) [] (by omega) hends
  have hmark : (print v).head? ≠ some (Char.ofNat 0xFEFF) := by
    rw [hbegin, List.head?_cons]
    intro e
    have hascii := hc.2.2
    rw [Option.some.inj e] at hascii
    exact absurd hascii (by decide)
  have hskip : skip (print v) = print v := by rw [hbegin, skip_begins hc]
  rw [List.append_nil] at hread
  rw [read, readWithin, if_neg hmark, hskip, hread]
  rfl

end Json
end StepLocator
