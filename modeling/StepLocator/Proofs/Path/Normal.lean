import StepLocator.Proofs.Path.Text

/-!
Normal forms of paths. Resolving double dots is determined by three equations: for no names, for a
double dot at the end, and for any other name at the end. In the result no double dot follows any
other name, so whatever comes behind such a name is free of double dots.
-/
namespace StepLocator
namespace Path

theorem normalizeNames_concat (atRoot : Bool) (names : List Text) {name : Text}
    (h : name ≠ parentName) :
    normalizeNames atRoot (names ++ [name]) = normalizeNames atRoot names ++ [name] := by
  simp [normalizeNames, pushName, h]

theorem normalizeNames_append (atRoot : Bool) (names more : List Text)
    (h : ∀ name ∈ more, name ≠ parentName) :
    normalizeNames atRoot (names ++ more) = normalizeNames atRoot names ++ more := by
  induction more generalizing names with
  | nil => simp
  | cons name rest ih =>
    have hname := h name (by simp)
    have hrest := ih (names ++ [name]) fun other hmem => h other (by simp [hmem])
    rw [normalizeNames_concat atRoot names hname] at hrest
    simpa using hrest

/-- On a stack of names, the latest first, below a double dot there are only double dots. -/
def OnlyDotsBelow (stack : List Text) : Prop :=
  stack.Pairwise fun upper lower => upper = parentName → lower = parentName

theorem onlyDotsBelow_pushName {atRoot : Bool} {stack : List Text} (h : OnlyDotsBelow stack)
    (name : Text) : OnlyDotsBelow (pushName atRoot stack name) := by
  unfold pushName
  split
  · cases stack with
    | nil => cases atRoot <;> simp [OnlyDotsBelow]
    | cons top below =>
      have hcons := List.pairwise_cons.mp h
      show OnlyDotsBelow (if top = parentName then name :: top :: below else below)
      by_cases htop : top = parentName
      · rw [if_pos htop]
        refine List.pairwise_cons.mpr ⟨fun other hmem _ => ?_, h⟩
        rcases List.mem_cons.mp hmem with rfl | hmem
        · exact htop
        · exact hcons.1 other hmem htop
      · rw [if_neg htop]
        exact hcons.2
  · rename_i hname
    exact List.pairwise_cons.mpr ⟨fun _ _ e => absurd e hname, h⟩

theorem onlyDotsBelow_foldl {atRoot : Bool} (names : List Text) {stack : List Text}
    (h : OnlyDotsBelow stack) : OnlyDotsBelow (names.foldl (pushName atRoot) stack) := by
  induction names generalizing stack with
  | nil => exact h
  | cons name rest ih => exact ih (onlyDotsBelow_pushName h name)

/-- Behind a name other than a double dot a normal form has no double dots. -/
theorem ne_parent_of_normalizeNames_append {atRoot : Bool} {names first second : List Text}
    (h : normalizeNames atRoot names = first ++ second) {name : Text} (hname : name ∈ first)
    (hne : name ≠ parentName) : ∀ other ∈ second, other ≠ parentName := by
  have hstack : OnlyDotsBelow (names.foldl (pushName atRoot) []) :=
    onlyDotsBelow_foldl names List.Pairwise.nil
  have hreverse : names.foldl (pushName atRoot) [] = second.reverse ++ first.reverse := by
    rw [← List.reverse_append, ← h, normalizeNames, List.reverse_reverse]
  rw [hreverse] at hstack
  intro other hmem e
  have hlower := (List.pairwise_append.mp hstack).2.2 other (by simpa using hmem) name
    (by simpa using hname)
  exact hne (hlower e)

theorem mem_pushName {atRoot : Bool} {stack : List Text} {name other : Text}
    (h : other ∈ pushName atRoot stack name) : other ∈ stack ∨ other = name := by
  unfold pushName at h
  split at h
  · cases stack with
    | nil => cases atRoot <;> simp_all
    | cons top below =>
      by_cases htop : top = parentName
      · simp only [htop, if_true, List.mem_cons] at h ⊢
        exact h.symm
      · simp only [htop, if_false] at h
        exact Or.inl (List.mem_cons_of_mem _ h)
  · rcases List.mem_cons.mp h with h | h
    · exact Or.inr h
    · exact Or.inl h

theorem mem_of_mem_normalizeNames {atRoot : Bool} {names : List Text} {name : Text}
    (h : name ∈ normalizeNames atRoot names) : name ∈ names := by
  have hfold : ∀ (more stack : List Text), name ∈ more.foldl (pushName atRoot) stack →
      name ∈ stack ∨ name ∈ more := by
    intro more
    induction more with
    | nil => exact fun _ hmem => Or.inl hmem
    | cons first rest ih =>
      intro stack hmem
      rcases ih _ hmem with hmem | hmem
      · rcases mem_pushName hmem with hmem | rfl
        · exact Or.inl hmem
        · exact Or.inr List.mem_cons_self
      · exact Or.inr (List.mem_cons_of_mem _ hmem)
  have hmem := hfold names [] (by simpa [normalizeNames] using h)
  simpa using hmem

theorem WellFormed.normalize {p : Path} (h : p.WellFormed) : p.normalize.WellFormed :=
  fun name hmem => h name (mem_of_mem_normalizeNames hmem)

end Path
end StepLocator
