import StepLocator.Contract
import StepLocator.Proofs.Path.Normal
import StepLocator.Proofs.Session.Handshake

/-!
References stay in the registry. The target of a mention is found by joining texts and resolving
double dots, and then compared with the root name by name; whatever slashes, dots and empty parts a
value holds, a definition lies strictly below the root of the registry, and only those values are
dropped whose names lead out of it.
-/
namespace StepLocator

/-- Whether a path lies below another one: at least one name behind all of its names, and none of
these names leads anywhere but down. -/
def Path.IsBelow (p base : Path) : Prop :=
  p.anchor = base.anchor ∧ ∃ rest, rest ≠ [] ∧
    (∀ name ∈ rest, name ≠ [] ∧ name ≠ ['.'] ∧ name ≠ Path.parentName) ∧
    p.names = base.names ++ rest

namespace Registry

/-- The names on the way that a mention describes, from a root on: those of each part of the value
and of the file name, with double dots resolved. -/
def wayNames (root : Path) (mention : Mention) : List Text :=
  Path.normalizeNames root.isAbsolute (root.names ++
    (mention.components ++
      [fileName mention.key.toText mention.components mention.key.extension]).flatMap Path.namesOf)

theorem namesOf_fileName (mention : Mention) :
    ∃ before last,
      Path.namesOf (fileName mention.key.toText mention.components mention.key.extension) =
        before ++ [last] ∧ mention.key.extension <:+ last := by
  have hslash : '/' ∉ mention.key.extension := by cases mention.key <;> decide
  obtain ⟨before, last, hsplit, hend⟩ := Path.splitOn_append_ending hslash
    (List.intercalate ['-'] (mention.components ++ [mention.key.toText]))
  have hlast : Path.isName last = true := by
    obtain ⟨front, rfl⟩ := hend
    cases mention.key <;> cases front <;> simp [Key.extension, Path.isName]
  refine ⟨before.filter Path.isName, last, ?_, hend⟩
  simp [Path.namesOf, fileName, hsplit, hlast]

theorem wayNames_eq_concat (root : Path) (mention : Mention) :
    ∃ before last, wayNames root mention = before ++ [last] ∧ mention.key.extension <:+ last := by
  obtain ⟨before, last, hnames, hend⟩ := namesOf_fileName mention
  have hlast : last ≠ Path.parentName := by
    rintro rfl
    revert hend
    cases mention.key <;> decide
  refine ⟨Path.normalizeNames root.isAbsolute
    (root.names ++ (mention.components.flatMap Path.namesOf ++ before)), last, ?_, hend⟩
  rw [wayNames, List.flatMap_append, List.flatMap_singleton, hnames, ← List.append_assoc,
    ← List.append_assoc, Path.normalizeNames_concat _ _ hlast, List.append_assoc]

theorem trimRight_toText {root : Path} (h : root.WellFormed) (hn : root.names ≠ []) :
    Text.trimRight (· == '/') root.toText = root.toText := by
  have hlast := h (root.names.getLast hn) (List.getLast_mem hn)
  obtain ⟨front, hfront⟩ := Path.joinNames_concat root.names.dropLast (root.names.getLast hn)
  rw [List.dropLast_concat_getLast hn] at hfront
  have hname := List.dropLast_concat_getLast (Path.ne_nil_of_isName hlast.1)
  have hc : (root.names.getLast hn).getLast (Path.ne_nil_of_isName hlast.1) ≠ '/' :=
    fun e => hlast.2 (e ▸ List.getLast_mem _)
  rw [Path.toText_of_names_ne_nil hn, hfront, ← hname]
  simp [Text.trimRight, hc]

/-- The target of a mention, from a root that has names, is at the names on the way. -/
theorem targetOf_eq {root : Path} (h : root.WellFormed) (hn : root.names ≠ [])
    (mention : Mention) :
    targetOf root.toText mention = ⟨root.anchor, wayNames root mention⟩ := by
  have hjoin : ∃ tail, targetText root.toText mention.key.toText mention.components
      mention.key.extension = root.toText ++ tail := by
    rw [targetText, trimRight_toText h hn]
    exact Path.joinNames_cons _ _
  have hanchor : Anchor.ofText (targetText root.toText mention.key.toText mention.components
      mention.key.extension) = root.anchor := by
    obtain ⟨tail, htail⟩ := hjoin
    rw [htail, Path.anchor_ofText_append h hn]
  have hnames : Path.namesOf (targetText root.toText mention.key.toText mention.components
      mention.key.extension) = root.names ++ (mention.components ++
        [fileName mention.key.toText mention.components mention.key.extension]).flatMap
          Path.namesOf := by
    rw [targetText, trimRight_toText h hn, List.cons_append, Path.namesOf_intercalate,
      List.flatMap_cons, Path.namesOf_toText h]
  simp only [targetOf, target, Path.ofText, Path.normalize, hanchor, hnames, Path.isAbsolute,
    wayNames]

theorem registryNames_names :
    ∀ name ∈ Layout.registryNames, Path.isName name = true ∧ '/' ∉ name := by
  decide

theorem normalizeNames_registry (atRoot : Bool) (names : List Text) :
    Path.normalizeNames atRoot (names ++ Layout.registryNames) =
      Path.normalizeNames atRoot names ++ Layout.registryNames :=
  Path.normalizeNames_append atRoot names _ (by decide)

theorem wellFormed_wayNames {root : Path} (h : root.WellFormed) (anchor : Anchor)
    (mention : Mention) : Path.WellFormed ⟨anchor, wayNames root mention⟩ := by
  intro name hmem
  rcases List.mem_append.mp (Path.mem_of_mem_normalizeNames hmem) with hmem | hmem
  · exact h name hmem
  · obtain ⟨part, _, hpart⟩ := List.mem_flatMap.mp hmem
    exact Path.mem_namesOf hpart

theorem isBelow_of_prefix {root : Path} (h : root.WellFormed) {mention : Mention}
    (hwithin : (root.append Layout.registryNames).normalize.names <+:
      wayNames (root.append Layout.registryNames) mention) :
    Path.IsBelow ⟨root.anchor, wayNames (root.append Layout.registryNames) mention⟩
      (root.append Layout.registryNames).normalize := by
  obtain ⟨rest, hrest⟩ := hwithin
  have hroot : (root.append Layout.registryNames).normalize.names =
      Path.normalizeNames root.isAbsolute root.names ++ Layout.registryNames :=
    normalizeNames_registry _ _
  refine ⟨rfl, rest, ?_, ?_, hrest.symm⟩
  · -- the last name on the way is that of a file, the last name of the root is not
    rintro rfl
    obtain ⟨before, last, hway, hend⟩ :=
      wayNames_eq_concat (root.append Layout.registryNames) mention
    rw [List.append_nil, hroot, hway] at hrest
    have hlast : "step-registry".toList = last := by
      simpa [Layout.registryNames] using congrArg List.getLast? hrest
    subst hlast
    revert hend
    cases mention.key <;> decide
  · intro name hmem
    have hway : name ∈ wayNames (root.append Layout.registryNames) mention := by
      rw [← hrest]
      exact List.mem_append_right _ hmem
    have hname := (wellFormed_wayNames (h.append registryNames_names) root.anchor mention name
      hway).1
    refine ⟨Path.ne_nil_of_isName hname, Path.ne_dot_of_isName hname, ?_⟩
    have hmark : "step-registry".toList ∈ (root.append Layout.registryNames).normalize.names := by
      rw [hroot]
      exact List.mem_append_right _ (by decide)
    exact Path.ne_parent_of_normalizeNames_append hrest.symm hmark (by decide) name hmem

theorem lineAt?_natCast (lines : List Text) (n : Nat) : lineAt? lines n = lines[n]? := rfl

theorem definitions_of_none {lines : List Text} {line : Int} (h : lineAt? lines line = none)
    (root : Text) : (definitions lines line root).value = .error ⟨line, lines.length⟩ := by
  simp [definitions, resolve, h]

theorem definitions_of_some {lines : List Text} {line : Int} {text : Text}
    (h : lineAt? lines line = some text) (root : Text) :
    (definitions lines line root).value =
      .ok ((resolveLine root text).value.toList.map fun reference => reference.target.toText) := by
  simp only [definitions, resolve, h]
  cases hline : (resolveLine root text).value <;> simp [hline]

theorem resolveLine_value (root text : Text) :
    (resolveLine root text).value =
      match Mention.ofLine? text with
      | none => none
      | some mention =>
        if (targetOf root mention).isUnder (Path.ofText root).normalize then
          some ⟨mention, targetOf root mention⟩
        else none := by
  cases hmention : Mention.ofLine? text with
  | none => simp [resolveLine, hmention]
  | some mention =>
    simp only [resolveLine, hmention]
    split <;> rfl

theorem resolveLine_registry {root : Path} (h : root.WellFormed) (text : Text) :
    (resolveLine (root.append Layout.registryNames).toText text).value =
      match Mention.ofLine? text with
      | none => none
      | some mention =>
        if (root.append Layout.registryNames).normalize.names <+:
            wayNames (root.append Layout.registryNames) mention then
          some ⟨mention, ⟨root.anchor, wayNames (root.append Layout.registryNames) mention⟩⟩
        else none := by
  have hroot := h.append registryNames_names
  have hn : (root.append Layout.registryNames).names ≠ [] := by simp [Layout.registryNames]
  rw [resolveLine_value]
  cases Mention.ofLine? text with
  | none => rfl
  | some mention =>
    simp only [targetOf_eq hroot hn, Path.ofText_toText hroot, Path.isUnder_iff,
      Path.normalize_anchor, Path.append_anchor, true_and]

section

variable {root : Path} {lines : List Text} {n : Nat}

theorem definitions_at (h : root.WellFormed) (hn : n < lines.length) :
    (definitions lines n (root.append Layout.registryNames).toText).value =
      .ok (match Mention.ofLine? lines[n] with
        | none => []
        | some mention =>
          if (root.append Layout.registryNames).normalize.names <+:
              wayNames (root.append Layout.registryNames) mention then
            [Path.toText ⟨root.anchor, wayNames (root.append Layout.registryNames) mention⟩]
          else []) := by
  have hline : lineAt? lines n = some lines[n] := by
    rw [lineAt?_natCast, List.getElem?_eq_getElem hn]
  rw [definitions_of_some hline, resolveLine_registry h]
  cases Mention.ofLine? lines[n] with
  | none => rfl
  | some mention =>
    by_cases hwithin : (root.append Layout.registryNames).normalize.names <+:
        wayNames (root.append Layout.registryNames) mention
    · simp [hwithin]
    · simp [hwithin]

/-- A line leads nowhere if it holds no mention, or if its mention leads out of the registry. -/
theorem definitions_eq_nil_iff (h : root.WellFormed) (hn : n < lines.length) :
    (definitions lines n (root.append Layout.registryNames).toText).value = .ok [] ↔
      Mention.ofLine? lines[n] = none ∨ ∃ mention, Mention.ofLine? lines[n] = some mention ∧
        ¬ (root.append Layout.registryNames).normalize.names <+:
          wayNames (root.append Layout.registryNames) mention := by
  rw [definitions_at h hn]
  cases Mention.ofLine? lines[n] with
  | none => simp
  | some mention => simp

theorem eq_of_definitions_eq_ok (h : root.WellFormed) (hn : n < lines.length)
    {places : List Text}
    (hplaces : (definitions lines n (root.append Layout.registryNames).toText).value = .ok places)
    (hne : places ≠ []) :
    ∃ mention place, Mention.ofLine? lines[n] = some mention ∧ places = [place] ∧
      Path.ofText place = ⟨root.anchor, wayNames (root.append Layout.registryNames) mention⟩ ∧
      (Path.ofText place).IsBelow (root.append Layout.registryNames).normalize := by
  rw [definitions_at h hn] at hplaces
  cases hmention : Mention.ofLine? lines[n] with
  | none => simp [hmention, hne.symm] at hplaces
  | some mention =>
    by_cases hwithin : (root.append Layout.registryNames).normalize.names <+:
        wayNames (root.append Layout.registryNames) mention
    · have hread := Path.ofText_toText
        (wellFormed_wayNames (h.append registryNames_names) root.anchor mention)
      refine ⟨mention, _, rfl, ?_, hread, ?_⟩
      · simpa [hmention, hwithin] using hplaces.symm
      · rw [hread]
        exact isBelow_of_prefix h hwithin
    · simp [hmention, hwithin, hne.symm] at hplaces

end

/-- What is asked of the registry of a session is answered in one of three ways: the line does not
exist, it leads nowhere, or it leads to the one file strictly below the root that its parts name. -/
theorem definitions_of_established {s : Session} (established : s.Established)
    (lines : List Text) (line : Int) :
    let root := s.registryRoot
    let found := (definitions lines line root.toText).value
    (found = .error ⟨line, lines.length⟩ ↔ line < 0 ∨ (lines.length : Int) ≤ line) ∧
    (∀ fault, found = .error fault →
      fault.breach.env = [("line".toList, .int line), ("line_count".toList, .int lines.length)]) ∧
    (∀ (n : Nat) (h : n < lines.length), line = n →
      (found = .ok [] ↔ Mention.ofLine? lines[n] = none ∨
        ∃ mention, Mention.ofLine? lines[n] = some mention ∧
          ¬ root.normalize.names <+: wayNames root mention)) ∧
    (∀ places, found = .ok places → places ≠ [] →
      ∃ (n : Nat) (h : n < lines.length) (mention : Mention) (place : Text), line = n ∧
        Mention.ofLine? lines[n] = some mention ∧ places = [place] ∧
        Path.ofText place = ⟨root.anchor, wayNames root mention⟩ ∧
        (Path.ofText place).IsBelow root.normalize) := by
  obtain ⟨root, hroot, hregistry⟩ := established.registryRoot_eq
  simp only [hregistry]
  by_cases hrange : line < 0 ∨ (lines.length : Int) ≤ line
  · rw [definitions_of_none (lineAt?_eq_none_iff.mpr hrange)]
    refine ⟨by simpa using hrange, ?_, ?_, by simp⟩
    · rintro fault ⟨⟩
      rfl
    · intro n h e
      omega
  · obtain ⟨n, rfl⟩ := Int.eq_ofNat_of_zero_le (a := line) (by omega)
    have hn : n < lines.length := by omega
    refine ⟨?_, ?_, ?_, ?_⟩
    · rw [definitions_at hroot hn]
      simpa using hrange
    · rw [definitions_at hroot hn]
      simp
    · intro m hm e
      obtain rfl := Int.ofNat.inj e
      exact definitions_eq_nil_iff hroot hn
    · intro places hplaces hne
      obtain ⟨mention, place, hfound⟩ := eq_of_definitions_eq_ok hroot hn hplaces hne
      exact ⟨n, hn, mention, place, rfl, hfound⟩

/-- In the workspace `/w` a value with slashes and dots in it leads to a file, one that climbs out
of the registry leads nowhere, and there is no fourth line. -/
theorem definitions_in_workspace :
    ∃ s : Session, s.Established ∧
      let answer (line : Int) := (definitions
        ["- ref: a/.././b".toList, "chain: ../../x".toList, "# ref".toList] line
        s.registryRoot.toText).value
      answer 3 = .error ⟨3, 3⟩ ∧ answer 2 = .ok [] ∧ answer 1 = .ok [] ∧
      ∃ place, answer 0 = .ok [place] ∧
        (Path.ofText place).IsBelow s.registryRoot.normalize := by
  let layout := Layout.ofRoot ⟨.root, ["w".toList]⟩
  let s : Session := ⟨layout, Agent.fresh .config layout.configRoot true,
    Agent.fresh .registry layout.registryRoot true⟩
  have established : s.Established :=
    ⟨.fresh, .ofListing (.directory "w" .empty .empty), .clear, .calm,
      .list [.table [("uri", .text "file:///w")]], rfl⟩
  have h := definitions_of_established established
    ["- ref: a/.././b".toList, "chain: ../../x".toList, "# ref".toList]
  refine ⟨s, established, (h 3).1.mpr (by decide), ((h 2).2.2.1 2 (by decide) rfl).mpr (by decide),
    ((h 1).2.2.1 1 (by decide) rfl).mpr (.inr ⟨_, rfl, by decide⟩), ?_⟩
  obtain ⟨_, _, _, place, _, _, hplace, _, hbelow⟩ := (h 0).2.2.2 _ rfl (by decide)
  exact ⟨place, hplace ▸ rfl, hbelow⟩

end Registry
end StepLocator
