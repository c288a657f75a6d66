import StepLocator.Text.Blank

/-!
Trimming. A trimmed text is what is left of a text when characters of a class go from its ends: it
neither begins nor ends with one of them, and that and the characters gone determine it.
-/
namespace StepLocator
namespace Text

variable {drop : Char → Bool} {t s front back : Text}

def StartsClear (drop : Char → Bool) (t : Text) : Prop := ∀ c ∈ t.head?, drop c = false

def EndsClear (drop : Char → Bool) (t : Text) : Prop := ∀ c ∈ t.getLast?, drop c = false

instance (drop : Char → Bool) (t : Text) : Decidable (StartsClear drop t) :=
  Option.decidableForallMem t.head?

instance (drop : Char → Bool) (t : Text) : Decidable (EndsClear drop t) :=
  Option.decidableForallMem t.getLast?

theorem startsClear_trimLeft (drop : Char → Bool) (t : Text) :
    StartsClear drop (trimLeft drop t) := by
  intro c hc
  have hnot := List.head?_dropWhile_not drop t
  rw [trimLeft, Option.mem_def] at hc
  rw [hc] at hnot
  simpa using hnot

theorem trimLeft_eq_self (h : StartsClear drop t) : trimLeft drop t = t := by
  cases t with
  | nil => rfl
  | cons c rest => simp [trimLeft, h c rfl]

theorem trimLeft_append (hfront : ∀ c ∈ front, drop c = true) (h : StartsClear drop t) :
    trimLeft drop (front ++ t) = t := by
  rw [trimLeft, List.dropWhile_append_of_pos hfront]
  exact trimLeft_eq_self h

theorem trimLeft_eq_iff : trimLeft drop t = s ↔
    StartsClear drop s ∧ ∃ front, (∀ c ∈ front, drop c = true) ∧ t = front ++ s := by
  constructor
  · rintro rfl
    refine ⟨startsClear_trimLeft drop t, t.takeWhile drop, ?_, List.takeWhile_append_dropWhile.symm⟩
    exact List.all_eq_true.mp List.all_takeWhile
  · rintro ⟨hs, front, hfront, rfl⟩
    exact trimLeft_append hfront hs

theorem startsClear_reverse : StartsClear drop t.reverse ↔ EndsClear drop t := by
  rw [StartsClear, EndsClear, List.head?_reverse]

theorem trimRight_eq_reverse (drop : Char → Bool) (t : Text) :
    trimRight drop t = (trimLeft drop t.reverse).reverse := rfl

theorem trimRight_eq_iff : trimRight drop t = s ↔
    EndsClear drop s ∧ ∃ back, (∀ c ∈ back, drop c = true) ∧ t = s ++ back := by
  rw [trimRight_eq_reverse, List.reverse_eq_iff, trimLeft_eq_iff, startsClear_reverse]
  refine and_congr_right fun _ => ⟨?_, ?_⟩
  · rintro ⟨back, hback, ht⟩
    refine ⟨back.reverse, fun c hc => hback c (List.mem_reverse.mp hc), ?_⟩
    rw [List.reverse_eq_iff] at ht
    simpa using ht
  · rintro ⟨back, hback, rfl⟩
    exact ⟨back.reverse, fun c hc => hback c (List.mem_reverse.mp hc), by simp⟩

theorem startsClear_of_all (h : ∀ c ∈ t, drop c = false) : StartsClear drop t :=
  fun c hc => h c (List.mem_of_mem_head? hc)

theorem endsClear_of_all (h : ∀ c ∈ t, drop c = false) : EndsClear drop t :=
  fun c hc => h c (List.mem_of_mem_getLast? hc)

theorem StartsClear.of_append (h : StartsClear drop (s ++ t)) (hs : s ≠ []) :
    StartsClear drop s := by
  cases s with
  | nil => exact absurd rfl hs
  | cons c rest => exact h

theorem StartsClear.append (h : StartsClear drop s) (hs : s ≠ []) (t : Text) :
    StartsClear drop (s ++ t) := by
  cases s with
  | nil => exact absurd rfl hs
  | cons c rest => exact h

theorem EndsClear.append (h : EndsClear drop s) (hs : s ≠ []) (t : Text) :
    EndsClear drop (t ++ s) := by
  rw [EndsClear, List.getLast?_append, List.getLast?_eq_some_getLast hs, Option.some_or,
    ← List.getLast?_eq_some_getLast hs]
  exact h

/-- What is left when characters of a class go from both ends. -/
theorem trim_eq_iff : trim drop t = s ↔ StartsClear drop s ∧ EndsClear drop s ∧
    ∃ front back, (∀ c ∈ front, drop c = true) ∧ (∀ c ∈ back, drop c = true) ∧
      t = front ++ s ++ back := by
  constructor
  · intro h
    obtain ⟨hends, back, hback, hleft⟩ := trimRight_eq_iff.mp h
    obtain ⟨hstarts, front, hfront, ht⟩ := trimLeft_eq_iff.mp hleft
    refine ⟨?_, hends, front, back, hfront, hback, by rw [ht, List.append_assoc]⟩
    cases s with
    | nil => exact nofun
    | cons c rest => exact hstarts.of_append (List.cons_ne_nil c rest)
  · rintro ⟨hstarts, hends, front, back, hfront, hback, rfl⟩
    by_cases hs : s = []
    · -- nothing but characters of the class, so none of them stays in front
      subst hs
      have hall : ∀ c ∈ front ++ [] ++ back, drop c = true := by
        intro c hc
        simp only [List.append_nil, List.mem_append] at hc
        exact hc.elim (hfront c) (hback c)
      have hnone : trimLeft drop (front ++ [] ++ back) = [] :=
        trimLeft_eq_iff.mpr ⟨nofun, _, hall, by simp⟩
      rw [trim, hnone]
      rfl
    · have hleft : trimLeft drop (front ++ s ++ back) = s ++ back := by
        rw [List.append_assoc]
        exact trimLeft_append hfront (hstarts.append hs back)
      rw [trim, hleft]
      exact trimRight_eq_iff.mpr ⟨hends, back, hback, rfl⟩

end Text
end StepLocator
