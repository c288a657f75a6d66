import StepLocator.Path.Basic

/-!
Path texts. The names in a text are the names of its segments, in order, so joining texts with
slashes joins their names; a path whose names are names of some text can be read back from its own
text.
-/
namespace StepLocator
namespace Path

/-- A path as texts write them: each of its names is one, without a slash in it. -/
def WellFormed (p : Path) : Prop := ∀ name ∈ p.names, isName name = true ∧ '/' ∉ name

theorem ne_nil_of_isName {name : Text} (h : isName name = true) : name ≠ [] := by
  rintro rfl
  simp [isName] at h

theorem ne_dot_of_isName {name : Text} (h : isName name = true) : name ≠ ['.'] := by
  rintro rfl
  simp [isName] at h

theorem not_mem_of_mem_splitOn {mark : Char} {text segment : Text}
    (h : segment ∈ text.splitOn mark) : mark ∉ segment := by
  induction text generalizing segment with
  | nil => simp_all [List.splitOn_nil]
  | cons c rest ih =>
    rw [List.splitOn_cons_eq_if_modifyHead] at h
    split at h
    · rcases List.mem_cons.mp h with rfl | h
      · simp
      · exact ih h
    · rename_i hc
      cases hs : rest.splitOn mark with
      | nil => exact absurd hs (List.splitOn_ne_nil _ _)
      | cons first others =>
        rw [hs] at h ih
        rcases List.mem_cons.mp h with rfl | h
        · have hfirst := ih (List.mem_cons_self (a := first) (l := others))
          simp only [List.mem_cons, not_or]
          exact ⟨fun e => hc (by simp [e]), hfirst⟩
        · exact ih (List.mem_cons_of_mem _ h)

theorem mem_namesOf {text name : Text} (h : name ∈ namesOf text) :
    isName name = true ∧ '/' ∉ name := by
  have hmem := List.mem_filter.mp h
  exact ⟨hmem.2, not_mem_of_mem_splitOn hmem.1⟩

theorem wellFormed_ofText (text : Text) : (ofText text).WellFormed := fun _ h => mem_namesOf h

theorem WellFormed.append {p : Path} (h : p.WellFormed) {names : List Text}
    (hnames : ∀ name ∈ names, isName name = true ∧ '/' ∉ name) : (p.append names).WellFormed := by
  intro name hmem
  rcases List.mem_append.mp hmem with hmem | hmem
  · exact h name hmem
  · exact hnames name hmem

theorem WellFormed.child {p : Path} (h : p.WellFormed) {name : Text} (hname : isName name = true)
    (hslash : '/' ∉ name) : (p.child name).WellFormed :=
  h.append fun other hother => by
    obtain rfl := List.mem_singleton.mp hother
    exact ⟨hname, hslash⟩

@[simp] theorem namesOf_nil : namesOf [] = [] := by
  simp [namesOf, List.splitOn_nil, isName]

theorem namesOf_append_slash (s t : Text) : namesOf (s ++ '/' :: t) = namesOf s ++ namesOf t := by
  simp [namesOf, List.splitOn_append_cons_self]

theorem namesOf_slash (t : Text) : namesOf ('/' :: t) = namesOf t := by
  simpa using namesOf_append_slash [] t

theorem namesOf_name {name : Text} (h : isName name = true) (hs : '/' ∉ name) :
    namesOf name = [name] := by
  simp [namesOf, List.splitOn_eq_singleton hs, h]

theorem namesOf_intercalate (parts : List Text) :
    namesOf (List.intercalate ['/'] parts) = parts.flatMap namesOf := by
  induction parts with
  | nil => simp
  | cons part rest ih =>
    cases rest with
    | nil => simp
    | cons next more =>
      rw [List.intercalate_cons_cons, List.append_assoc, List.singleton_append,
        namesOf_append_slash, ih]
      rfl

theorem namesOf_joinNames {names : List Text}
    (h : ∀ name ∈ names, isName name = true ∧ '/' ∉ name) : namesOf (joinNames names) = names := by
  rw [joinNames, namesOf_intercalate]
  induction names with
  | nil => rfl
  | cons name rest ih =>
    have hname := h name (by simp)
    have hrest := ih fun other hmem => h other (by simp [hmem])
    rw [List.flatMap_cons, namesOf_name hname.1 hname.2, hrest, List.singleton_append]

theorem joinNames_cons (name : Text) (rest : List Text) :
    ∃ tail, joinNames (name :: rest) = name ++ tail := by
  cases rest with
  | nil => exact ⟨[], by simp [joinNames]⟩
  | cons next more => exact ⟨_, by rw [joinNames, List.intercalate_cons_cons, List.append_assoc]⟩

theorem joinNames_concat (names : List Text) (last : Text) :
    ∃ front, joinNames (names ++ [last]) = front ++ last := by
  induction names with
  | nil => exact ⟨[], by simp [joinNames]⟩
  | cons name rest ih =>
    obtain ⟨front, hfront⟩ := ih
    have hne : rest ++ [last] ≠ [] := by simp
    rw [joinNames] at hfront ⊢
    rw [List.cons_append, List.intercalate_cons_of_ne_nil hne, hfront]
    exact ⟨name ++ ['/'] ++ front, by simp⟩

theorem ofText_toText_append (anchor : Anchor) {c : Char} (hc : c ≠ '/') (text : Text) :
    Anchor.ofText (anchor.toText ++ c :: text) = anchor := by
  cases anchor <;> simp [Anchor.toText, Anchor.ofText, hc]

theorem toText_of_names_ne_nil {p : Path} (h : p.names ≠ []) :
    p.toText = p.anchor.toText ++ joinNames p.names := by
  simp [toText, h]

theorem anchor_ofText_append {p : Path} (h : p.WellFormed) (hn : p.names ≠ []) (text : Text) :
    Anchor.ofText (p.toText ++ text) = p.anchor := by
  rw [toText_of_names_ne_nil hn]
  obtain ⟨anchor, names⟩ := p
  cases names with
  | nil => exact absurd rfl hn
  | cons name rest =>
    have hname := h name (by simp)
    obtain ⟨tail, htail⟩ := joinNames_cons name rest
    cases name with
    | nil => exact absurd rfl (ne_nil_of_isName hname.1)
    | cons c cs =>
      have hc : c ≠ '/' := fun e => hname.2 (by simp [e])
      rw [htail, List.append_assoc, List.append_assoc, List.cons_append]
      exact ofText_toText_append anchor hc _

theorem namesOf_anchor (anchor : Anchor) (text : Text) :
    namesOf (anchor.toText ++ text) = namesOf text := by
  cases anchor <;> simp [Anchor.toText, namesOf_slash]

theorem namesOf_toText {p : Path} (h : p.WellFormed) : namesOf p.toText = p.names := by
  unfold toText
  split
  · rename_i hp
    rw [hp.2]
    simp [namesOf, List.splitOn_eq_singleton, isName]
  · rw [namesOf_anchor, namesOf_joinNames h]

/-- A path can be read back from its text. -/
theorem ofText_toText {p : Path} (h : p.WellFormed) : ofText p.toText = p := by
  have hnames := namesOf_toText h
  have hanchor : Anchor.ofText p.toText = p.anchor := by
    by_cases hn : p.names = []
    · obtain ⟨anchor, names⟩ := p
      subst hn
      cases anchor <;> simp [toText, Anchor.toText, Anchor.ofText, joinNames]
    · simpa using anchor_ofText_append h hn []
  rw [ofText, hnames, hanchor]

theorem toText_ne_nil {p : Path} (h : p.WellFormed) (hn : p.names ≠ []) : p.toText ≠ [] := by
  intro e
  rw [← namesOf_toText h, e, namesOf_nil] at hn
  exact hn rfl

theorem getLast?_toText {p : Path} (h : p.WellFormed) (hn : p.names ≠ []) :
    p.toText.getLast? ≠ some '/' := by
  have hlast := h _ (List.getLast_mem hn)
  have hne := ne_nil_of_isName hlast.1
  obtain ⟨front, hfront⟩ := joinNames_concat p.names.dropLast (p.names.getLast hn)
  rw [List.dropLast_concat_getLast hn] at hfront
  rw [toText_of_names_ne_nil hn, hfront, List.getLast?_append, List.getLast?_append,
    List.getLast?_eq_some_getLast hne]
  intro e
  exact hlast.2 (Option.some.inj e ▸ List.getLast_mem hne)

theorem ofText_eq_here_iff {text : Text} : Anchor.ofText text = .here ↔ text.head? ≠ some '/' := by
  unfold Anchor.ofText
  split
  · simp
  · simp
  · simp
  · rename_i hnone
    have hslash : text.head? ≠ some '/' := by
      cases text with
      | nil => simp
      | cons c rest => simpa using fun e => hnone rest (by rw [e])
    simp [hslash]

theorem isAbsolute_ofText_iff {text : Text} :
    (ofText text).isAbsolute = true ↔ text.head? = some '/' := by
  simp [isAbsolute, ofText, bne_iff_ne, ofText_eq_here_iff]

theorem head?_toText {p : Path} (h : p.WellFormed) (hanchor : p.anchor = .here) :
    p.toText.head? ≠ some '/' := by
  rw [← ofText_eq_here_iff, ← hanchor]
  exact congrArg Path.anchor (ofText_toText h)

theorem splitOn_append_ending {mark : Char} {ending : Text} (h : mark ∉ ending) (text : Text) :
    ∃ before last, (text ++ ending).splitOn mark = before ++ [last] ∧ ending <:+ last := by
  induction text with
  | nil => exact ⟨[], ending, by simp [List.splitOn_eq_singleton h], List.suffix_refl _⟩
  | cons c rest ih =>
    obtain ⟨before, last, hsplit, hend⟩ := ih
    rw [List.cons_append, List.splitOn_cons_eq_if_modifyHead, hsplit]
    split
    · exact ⟨[] :: before, last, rfl, hend⟩
    · cases before with
      | nil => exact ⟨[], c :: last, rfl, hend.trans (List.suffix_cons c last)⟩
      | cons first others => exact ⟨(c :: first) :: others, last, rfl, hend⟩

theorem intercalate_concat {parts : List Text} (h : parts ≠ []) (sep last : Text) :
    sep.intercalate (parts ++ [last]) = sep.intercalate parts ++ sep ++ last := by
  induction parts with
  | nil => exact absurd rfl h
  | cons part rest ih =>
    cases rest with
    | nil => simp
    | cons next more =>
      have hmore := ih (List.cons_ne_nil next more)
      rw [List.cons_append, List.intercalate_cons_of_ne_nil (by simp), hmore,
        List.intercalate_cons_cons]
      simp only [List.append_assoc]

theorem mem_intercalate {sep : Text} {parts : List Text} {c : Char}
    (h : c ∈ sep.intercalate parts) :
    c ∈ sep ∨ ∃ part ∈ parts, c ∈ part := by
  induction parts with
  | nil => simp at h
  | cons part rest ih =>
    cases rest with
    | nil => exact Or.inr ⟨part, by simp, by simpa using h⟩
    | cons next more =>
      rw [List.intercalate_cons_cons, List.mem_append, List.mem_append] at h
      rcases h with (h | h) | h
      · exact Or.inr ⟨part, by simp, h⟩
      · exact Or.inl h
      · rcases ih h with hsep | ⟨other, hmem, hc⟩
        · exact Or.inl hsep
        · exact Or.inr ⟨other, List.mem_cons_of_mem _ hmem, hc⟩

theorem mem_intercalate_of_mem {sep part : Text} {parts : List Text} {c : Char}
    (h : part ∈ parts) (hc : c ∈ part) : c ∈ sep.intercalate parts := by
  induction parts with
  | nil => simp at h
  | cons first rest ih =>
    cases rest with
    | nil =>
      obtain rfl := List.mem_singleton.mp h
      simpa using hc
    | cons next more =>
      rw [List.intercalate_cons_cons, List.mem_append]
      rcases List.mem_cons.mp h with rfl | h
      · exact Or.inl (List.mem_append_left _ hc)
      · exact Or.inr (ih h)

theorem mem_toText_ofText {t : Text} {c : Char} (h : c ∈ (ofText t).toText) :
    c ∈ t ∨ c = '/' ∨ c = '.' := by
  unfold toText at h
  split at h
  · exact Or.inr (Or.inr (List.mem_singleton.mp h))
  · rcases List.mem_append.mp h with h | h
    · have hslash : c = '/' := by
        revert h
        cases (ofText t).anchor <;> simp [Anchor.toText]
      exact Or.inr (Or.inl hslash)
    · rcases mem_intercalate h with h | ⟨name, hname, hc⟩
      · exact Or.inr (Or.inl (List.mem_singleton.mp h))
      · left
        have hjoin : List.intercalate ['/'] (t.splitOn '/') = t := List.intercalate_splitOn '/'
        rw [← hjoin]
        exact mem_intercalate_of_mem (List.mem_filter.mp hname).1 hc

theorem nul_notMem_toText_ofText {t : Text} (h : '\x00' ∉ t) : '\x00' ∉ (ofText t).toText := by
  intro hmem
  rcases mem_toText_ofText hmem with hmem | e | e
  · exact h hmem
  · exact absurd e (by decide)
  · exact absurd e (by decide)

end Path
end StepLocator
