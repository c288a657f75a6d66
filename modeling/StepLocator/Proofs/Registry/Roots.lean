import StepLocator.Proofs.Registry.Containment
import StepLocator.Proofs.Text.Trimming

/-!
Registries by the text of their root. The names on the way to a target are those in the text of the
root and those of the mention, however the root is spelled. Where the way begins is told by the root
as well, unless the slashes at its end are all that it holds: then it is told by what is behind. So
two spellings of a root are taken for the same, but for roots without names, of which one spelling
is nothing but slashes and the other one is not.
-/
namespace StepLocator

namespace Text

def IsSlashes (text : Text) : Prop := ∀ c ∈ text, c = '/'

instance (text : Text) : Decidable (IsSlashes text) :=
  List.decidableBAll (· = '/') text

theorem exists_stem (text : Text) : ∃ stem slashes, text = stem ++ slashes ∧ IsSlashes slashes ∧
    EndsClear (· == '/') stem ∧ trimRight (· == '/') text = stem := by
  obtain ⟨hends, slashes, hslashes, htext⟩ :=
    trimRight_eq_iff.mp (rfl : trimRight (· == '/') text = _)
  exact ⟨_, slashes, htext, fun c hc => by simpa using hslashes c hc, hends, rfl⟩

theorem trimRight_eq_nil_iff {text : Text} : trimRight (· == '/') text = [] ↔ IsSlashes text := by
  constructor
  · intro h
    obtain ⟨stem, slashes, htext, hslashes, -, hstem⟩ := exists_stem text
    rw [htext, ← hstem, h]
    exact hslashes
  · intro h
    exact trimRight_eq_iff.mpr ⟨nofun, text, fun c hc => by simpa using h c hc, rfl⟩

end Text

theorem Anchor.ofText_append {t : Text} (hends : Text.EndsClear (· == '/') t) (hne : t ≠ [])
    (more : Text) : Anchor.ofText (t ++ more) = Anchor.ofText t := by
  have hlast : t.getLast? ≠ some '/' := fun h => absurd (hends '/' h) (by decide)
  cases t with
  | nil => exact absurd rfl hne
  | cons c rest =>
    by_cases hc : c = '/'
    · subst hc
      cases rest with
      | nil => exact absurd rfl hlast
      | cons d rest =>
        by_cases hd : d = '/'
        · subst hd
          cases rest with
          | nil => exact absurd rfl hlast
          | cons e rest => by_cases he : e = '/' <;> simp [Anchor.ofText, he]
        · simp [Anchor.ofText, hd]
    · simp [Anchor.ofText, hc]

namespace Path

theorem namesOf_of_isSlashes {text : Text} (h : Text.IsSlashes text) : namesOf text = [] := by
  induction text with
  | nil => exact namesOf_nil
  | cons c rest ih =>
    obtain rfl := h c List.mem_cons_self
    rw [namesOf_slash]
    exact ih fun d hd => h d (List.mem_cons_of_mem _ hd)

theorem namesOf_append_slashes (text : Text) {slashes : Text} (h : Text.IsSlashes slashes) :
    namesOf (text ++ slashes) = namesOf text := by
  cases slashes with
  | nil => rw [List.append_nil]
  | cons c rest =>
    obtain rfl := h c List.mem_cons_self
    have hrest := namesOf_of_isSlashes fun d hd => h d (List.mem_cons_of_mem _ hd)
    rw [namesOf_append_slash, hrest, List.append_nil]

theorem isSlashes_toText_iff {p : Path} (h : p.WellFormed) :
    Text.IsSlashes p.toText ↔ p.names = [] ∧ p.isAbsolute = true := by
  obtain ⟨anchor, names⟩ := p
  constructor
  · intro hslashes
    have hnames : names = [] := (namesOf_toText h).symm.trans (namesOf_of_isSlashes hslashes)
    subst hnames
    refine ⟨rfl, ?_⟩
    cases anchor with
    | here => exact absurd (hslashes '.' (by simp [toText])) (by decide)
    | root => rfl
    | doubleRoot => rfl
  · rintro ⟨rfl, habsolute⟩
    cases anchor with
    | here => cases habsolute
    | root => decide
    | doubleRoot => decide

end Path

namespace Registry

variable {root other : Text} {mention : Mention}

def behindRoot (mention : Mention) : Text :=
  List.intercalate ['/'] (mention.components ++
    [fileName mention.key.toText mention.components mention.key.extension])

theorem targetText_eq (root : Text) (mention : Mention) :
    targetText root mention.key.toText mention.components mention.key.extension =
      Text.trimRight (· == '/') root ++ '/' :: behindRoot mention := by
  rw [targetText, List.cons_append, List.intercalate_cons_of_ne_nil (by simp), List.append_assoc,
    List.singleton_append, behindRoot]

theorem names_targetOf (root : Text) (mention : Mention) :
    (targetOf root mention).names = Path.normalizeNames (targetOf root mention).isAbsolute
      (Path.namesOf root ++ Path.namesOf (behindRoot mention)) := by
  have hway : Path.namesOf (Text.trimRight (· == '/') root ++ '/' :: behindRoot mention) =
      Path.namesOf root ++ Path.namesOf (behindRoot mention) := by
    obtain ⟨stem, slashes, rfl, hslashes, -, hstem⟩ := Text.exists_stem root
    rw [hstem, Path.namesOf_append_slash, Path.namesOf_append_slashes stem hslashes]
  rw [← hway, ← targetText_eq]
  rfl

theorem anchor_targetOf (root : Text) (mention : Mention) :
    (targetOf root mention).anchor =
      if Text.IsSlashes root then Anchor.ofText ('/' :: behindRoot mention)
      else Anchor.ofText root := by
  have hanchor : (targetOf root mention).anchor =
      Anchor.ofText (Text.trimRight (· == '/') root ++ '/' :: behindRoot mention) := by
    rw [← targetText_eq]
    rfl
  rw [hanchor]
  by_cases h : Text.IsSlashes root
  · rw [if_pos h, Text.trimRight_eq_nil_iff.mpr h, List.nil_append]
  · have hne := mt Text.trimRight_eq_nil_iff.mp h
    rw [if_neg h]
    obtain ⟨stem, slashes, rfl, -, hends, hstem⟩ := Text.exists_stem root
    rw [hstem] at hne ⊢
    rw [Anchor.ofText_append hends hne, Anchor.ofText_append hends hne]

/-! ### Two spellings of a root -/

def respelled (root : Text) : Text := (Path.ofText root).toText

/-- Whether a root is spelled so that it is taken for another one: it is nothing at all, or it
begins with a slash and has no names, but holds more than slashes. -/
def IsOdd (root : Text) : Prop :=
  root = [] ∨ (Path.ofText root).isAbsolute = true ∧ Path.namesOf root = [] ∧ ¬ Text.IsSlashes root

instance (root : Text) : Decidable (IsOdd root) :=
  inferInstanceAs (Decidable (root = [] ∨
    (Path.ofText root).isAbsolute = true ∧ Path.namesOf root = [] ∧ ¬ Text.IsSlashes root))

theorem ofText_respelled (root : Text) : Path.ofText (respelled root) = Path.ofText root :=
  Path.ofText_toText (Path.wellFormed_ofText root)

theorem isOdd_iff : IsOdd root ↔ ¬ (Text.IsSlashes root ↔ Text.IsSlashes (respelled root)) := by
  rw [respelled, Path.isSlashes_toText_iff (Path.wellFormed_ofText root)]
  by_cases h : Text.IsSlashes root
  · have hnames : (Path.ofText root).names = [] := Path.namesOf_of_isSlashes h
    cases root with
    | nil => simp [IsOdd, Path.isAbsolute_ofText_iff, h]
    | cons c rest =>
      obtain rfl := h c List.mem_cons_self
      simp [IsOdd, Path.isAbsolute_ofText_iff, h, hnames]
  · have hne : root ≠ [] := by
      rintro rfl
      exact h (by decide)
    have hnames : (Path.ofText root).names = Path.namesOf root := rfl
    simp [IsOdd, h, hne, hnames, and_comm]

theorem names_of_isOdd (h : IsOdd root) : (Path.ofText root).names = [] := by
  rcases h with rfl | ⟨-, hnames, -⟩
  · exact Path.namesOf_nil
  · exact hnames

/-- Targets from two spellings of a root are the same where they begin at the same place. -/
theorem targetOf_congr (h : Path.ofText root = Path.ofText other)
    (hanchor : (targetOf root mention).anchor = (targetOf other mention).anchor) :
    targetOf root mention = targetOf other mention := by
  have hroot : Path.namesOf root = Path.namesOf other := congrArg Path.names h
  have hnames : (targetOf root mention).names = (targetOf other mention).names := by
    rw [names_targetOf, names_targetOf, hroot, Path.isAbsolute, Path.isAbsolute, hanchor]
  generalize targetOf root mention = target at hanchor hnames ⊢
  generalize targetOf other mention = target' at hanchor hnames ⊢
  cases target
  cases target'
  subst hanchor hnames
  rfl

theorem isUnder_normalize_iff {p base : Path} (h : base.names = []) :
    p.isUnder base.normalize = true ↔ p.anchor = base.anchor := by
  have hnames : base.normalize.names = [] := by
    rw [Path.normalize, h]
    rfl
  rw [Path.isUnder_iff, hnames, Path.normalize_anchor]
  simp

/-- Of two targets from an oddly spelled root and from its other spelling, one begins as the root
does, and the other as what is behind it does. -/
theorem anchors_of_isOdd (h : IsOdd root) (mention : Mention) :
    (targetOf root mention).anchor = Anchor.ofText ('/' :: behindRoot mention) ∧
        (targetOf (respelled root) mention).anchor = (Path.ofText root).anchor ∨
      (targetOf root mention).anchor = (Path.ofText root).anchor ∧
        (targetOf (respelled root) mention).anchor = Anchor.ofText ('/' :: behindRoot mention) := by
  have hanchor : Anchor.ofText (respelled root) = (Path.ofText root).anchor :=
    congrArg Path.anchor (ofText_respelled root)
  have hone := isOdd_iff.mp h
  rw [anchor_targetOf, anchor_targetOf, hanchor]
  by_cases hslashes : Text.IsSlashes root
  · by_cases hother : Text.IsSlashes (respelled root)
    · exact absurd (iff_of_true hslashes hother) hone
    · exact .inl ⟨if_pos hslashes, if_neg hother⟩
  · by_cases hother : Text.IsSlashes (respelled root)
    · exact .inr ⟨if_neg hslashes, if_pos hother⟩
    · exact absurd (iff_of_false hslashes hother) hone

theorem targetOf_respelled (h : ¬ IsOdd root) (mention : Mention) :
    targetOf root mention = targetOf (respelled root) mention := by
  apply targetOf_congr (ofText_respelled root).symm
  have hanchor : Anchor.ofText (respelled root) = Anchor.ofText root :=
    congrArg Path.anchor (ofText_respelled root)
  rw [isOdd_iff, Classical.not_not] at h
  rw [anchor_targetOf, anchor_targetOf, hanchor]
  simp only [h]

/-- What a line that holds a mention refers to, from two spellings of a root. -/
theorem resolveLine_respelled_iff {line : Text} (h : Mention.ofLine? line = some mention) :
    (resolveLine root line).value = (resolveLine (respelled root) line).value ↔
      (IsOdd root → Anchor.ofText ('/' :: behindRoot mention) = (Path.ofText root).anchor) := by
  simp only [resolveLine_value, h, ofText_respelled]
  by_cases hodd : IsOdd root
  · have hunder (target : Path) := isUnder_normalize_iff (p := target) (names_of_isOdd hodd)
    by_cases hbegin : Anchor.ofText ('/' :: behindRoot mention) = (Path.ofText root).anchor
    · have hanchor :
          (targetOf root mention).anchor = (targetOf (respelled root) mention).anchor := by
        rcases anchors_of_isOdd hodd mention with ⟨hroot, hother⟩ | ⟨hroot, hother⟩ <;>
          rw [hroot, hother, hbegin]
      rw [targetOf_congr (ofText_respelled root).symm hanchor]
      simp [hbegin]
    · -- the two targets begin at different places, and only one of them where the root does
      rcases anchors_of_isOdd hodd mention with ⟨hroot, hother⟩ | ⟨hroot, hother⟩ <;>
        simp [hunder, hroot, hother, hodd, hbegin]
  · simp [targetOf_respelled hodd, hodd]

theorem resolve_of_none {lines : List Text} {n : Int} (h : lineAt? lines n = none) (root : Text) :
    (resolve lines n root).value = .error ⟨n, lines.length⟩ := by
  simp [resolve, h]

theorem resolve_of_some {lines : List Text} {n : Int} {line : Text}
    (h : lineAt? lines n = some line) (root : Text) :
    (resolve lines n root).value = .ok (resolveLine root line).value := by
  simp [resolve, h]

theorem resolve_value_respelled_iff (root : Text) (lines : List Text) (n : Int) :
    (resolve lines n root).value = (resolve lines n (respelled root)).value ↔
      ∀ mention, (lineAt? lines n).bind Mention.ofLine? = some mention → IsOdd root →
        Anchor.ofText ('/' :: behindRoot mention) = (Path.ofText root).anchor := by
  cases hline : lineAt? lines n with
  | none => simp [resolve_of_none hline]
  | some line =>
    rw [resolve_of_some hline, resolve_of_some hline, Except.ok.injEq, Option.bind_some]
    cases hmention : Mention.ofLine? line with
    | none => simp [resolveLine_value, hmention]
    | some mention =>
      rw [resolveLine_respelled_iff hmention]
      simp

/-- The answer about a line is the same from a root as it is spelled and from the text of its path,
unless the root is oddly spelled, the line holds a mention, and what is behind the root would begin
elsewhere than the root if it stood alone behind a slash. So just the oddly spelled roots are taken
for others. -/
theorem resolve_respelled_iff (root : Text) :
    (∀ lines n, (resolve lines n root).value = (resolve lines n (Path.ofText root).toText).value ↔
      ∀ mention, (lineAt? lines n).bind Mention.ofLine? = some mention → IsOdd root →
        Anchor.ofText ('/' :: behindRoot mention) = (Path.ofText root).anchor) ∧
    ((∀ lines n, (resolve lines n root).value = (resolve lines n (Path.ofText root).toText).value) ↔
      ¬ IsOdd root) := by
  refine ⟨resolve_value_respelled_iff root, ?_, ?_⟩
  · intro hall hodd
    -- behind the root stands a second slash if the value is empty, and else none
    have hbare := (resolve_value_respelled_iff root ["ref:".toList] 0).mp (hall _ _)
      ⟨.ref, [[]]⟩ (by decide) hodd
    have hplain := (resolve_value_respelled_iff root ["ref: a".toList] 0).mp (hall _ _)
      ⟨.ref, [['a']]⟩ (by decide) hodd
    rw [← hplain] at hbare
    exact absurd hbare (by decide)
  · intro hplain lines n
    apply (resolve_value_respelled_iff root lines n).mpr
    intro _ _ hodd
    exact absurd hodd hplain

/-- A dot behind slashes is odd; before them it is not, nor is it before names. -/
example : IsOdd "//./".toList ∧ ¬ IsOdd ".//".toList ∧ ¬ IsOdd "/./r".toList := by
  decide

/-- The path of an empty root is written as a dot; from the dot a line leads to a file, and from the
empty root it does not. -/
theorem answers_differ_from_empty_root :
    (Path.ofText []).toText = ['.'] ∧
      (resolve ["ref: a".toList] 0 []).value = .ok none ∧
      (resolve ["ref: a".toList] 0 ['.']).value =
        .ok (some ⟨⟨.ref, [['a']]⟩, Path.ofText "a/a-ref.yaml".toList⟩) ∧
      ¬ ∀ root lines n,
        (resolve lines n root).value = (resolve lines n (Path.ofText root).toText).value := by
  have hempty : (resolve ["ref: a".toList] 0 []).value = .ok none := rfl
  have hdot : (resolve ["ref: a".toList] 0 ['.']).value =
      .ok (some ⟨⟨.ref, [['a']]⟩, Path.ofText "a/a-ref.yaml".toList⟩) := rfl
  refine ⟨by decide, hempty, hdot, fun hall => ?_⟩
  have hsame := hall [] ["ref: a".toList] 0
  rw [hempty] at hsame
  cases hsame.trans hdot

end Registry
end StepLocator
