import StepLocator.Proofs.Registry.Indexed

/-!
Different references lead to different files. Whatever becomes of the directories on the way, the
last name of a target tells the parts and the key that it is made of, as long as no part holds a
slash: between hyphens stand the parts, and behind the last hyphen the key with its extension.
-/
namespace StepLocator

/-- Whether the value in a line, what is behind its first colon, holds no slash. -/
def Mention.IsFlat (line : Text) : Prop := ∀ cut ∈ Text.cutAt ':' line, '/' ∉ cut.2

instance (line : Text) : Decidable (Mention.IsFlat line) :=
  inferInstanceAs (Decidable (∀ cut ∈ Text.cutAt ':' line, '/' ∉ cut.2))

theorem Text.mem_of_mem_strip {c : Char} {text : Text} (h : c ∈ strip text) : c ∈ text := by
  obtain ⟨-, -, front, back, -, -, htext⟩ := trim_eq_iff.mp (rfl : trim isBlank text = strip text)
  rw [htext]
  exact List.mem_append_left _ (List.mem_append_right _ h)

namespace Registry

variable {root line : Text} {mention other : Mention}

theorem slash_notMem_of_isFlat (h : Mention.ofLine? line = some mention)
    (hflat : Mention.IsFlat line) : ∀ part ∈ mention.components, '/' ∉ part := by
  intro part hpart hslash
  obtain ⟨value, hwrites, hcomponents⟩ := Mention.ofLine?_eq_some_iff.mp h
  obtain ⟨fragment, hcut, -⟩ := Mention.cutAt_of_writes hwrites
  obtain ⟨dropped, -, -, hjoin⟩ := Mention.exists_parts mention.key value
  apply hflat (fragment, value) hcut
  apply Text.mem_of_mem_strip
  rw [← hjoin, ← hcomponents]
  exact Path.mem_intercalate_of_mem (List.mem_append_left _ hpart) hslash

theorem hyphen_notMem_of_ofLine? (h : Mention.ofLine? line = some mention) :
    ∀ part ∈ mention.components, '-' ∉ part := by
  obtain ⟨value, -, hcomponents⟩ := Mention.ofLine?_eq_some_iff.mp h
  obtain ⟨dropped, -, hparts, -⟩ := Mention.exists_parts mention.key value
  intro part hpart
  exact hparts part (List.mem_append_left _ (hcomponents ▸ hpart))

def fileNameOf (mention : Mention) : Text :=
  fileName mention.key.toText mention.components mention.key.extension

theorem fileNameOf_eq (mention : Mention) :
    fileNameOf mention =
      List.intercalate ['-']
        (mention.components ++ [mention.key.toText ++ mention.key.extension]) := by
  rw [fileNameOf, fileName]
  by_cases h : mention.components = []
  · simp [h]
  · rw [Path.intercalate_concat h, Path.intercalate_concat h, List.append_assoc]

/-- A file name is cut at its hyphens into the parts and the key. -/
theorem splitOn_fileNameOf (h : ∀ part ∈ mention.components, '-' ∉ part) :
    (fileNameOf mention).splitOn '-' =
      mention.components ++ [mention.key.toText ++ mention.key.extension] := by
  rw [fileNameOf_eq]
  apply List.splitOn_intercalate
  · intro part hpart
    rcases List.mem_append.mp hpart with hpart | hpart
    · exact h part hpart
    · obtain rfl := List.mem_singleton.mp hpart
      cases mention.key <;> decide
  · simp

theorem keyText_extension_injective {a b : Key}
    (h : a.toText ++ a.extension = b.toText ++ b.extension) : a = b := by
  cases a <;> cases b <;> first | rfl | exact absurd h (by decide)

theorem fileNameOf_injective (h : ∀ part ∈ mention.components, '-' ∉ part)
    (hother : ∀ part ∈ other.components, '-' ∉ part)
    (heq : fileNameOf mention = fileNameOf other) : mention = other := by
  have hsplit := congrArg (List.splitOn '-') heq
  rw [splitOn_fileNameOf h, splitOn_fileNameOf hother] at hsplit
  obtain ⟨hcomponents, hkey⟩ := List.append_inj' hsplit rfl
  obtain ⟨key, components⟩ := mention
  obtain ⟨otherKey, otherComponents⟩ := other
  obtain rfl := keyText_extension_injective (List.singleton_inj.mp hkey)
  obtain rfl : components = otherComponents := hcomponents
  rfl

theorem slash_notMem_fileNameOf (h : ∀ part ∈ mention.components, '/' ∉ part) :
    '/' ∉ fileNameOf mention := by
  rw [fileNameOf_eq]
  intro hmem
  rcases Path.mem_intercalate hmem with hmem | ⟨part, hpart, hmem⟩
  · exact absurd hmem (by decide)
  · rcases List.mem_append.mp hpart with hpart | hpart
    · exact h part hpart hmem
    · obtain rfl := List.mem_singleton.mp hpart
      revert hmem
      cases mention.key <;> decide

theorem namesOf_fileNameOf (h : ∀ part ∈ mention.components, '/' ∉ part) :
    Path.namesOf (fileNameOf mention) = [fileNameOf mention] ∧
      fileNameOf mention ≠ Path.parentName := by
  have hslash := slash_notMem_fileNameOf h
  have hlong : 2 < (fileNameOf mention).length := by
    rw [fileNameOf, fileName, List.length_append]
    cases mention.key <;> simp [Key.extension]
  obtain ⟨before, last, hnames, -, hlast⟩ := namesOf_append_ending hslash hlong []
  rw [List.nil_append] at hnames
  have hmem : last ∈ Path.namesOf (fileNameOf mention) := by simp [hnames]
  rw [Path.namesOf, List.splitOn_eq_singleton hslash] at hmem
  obtain ⟨hmem, hname⟩ := List.mem_filter.mp hmem
  obtain rfl := List.mem_singleton.mp hmem
  exact ⟨Path.namesOf_name hname hslash, hlast⟩

/-- Without slashes in its parts, a mention leads to a file with just the name made of them,
whatever the root is. -/
theorem name_targetOf_of_flat (root : Text) (h : ∀ part ∈ mention.components, '/' ∉ part) :
    (targetOf root mention).name = fileNameOf mention := by
  obtain ⟨hnames, hparent⟩ := namesOf_fileNameOf h
  have hlast : Path.namesOf (fileNameOf mention) = [] ++ [fileNameOf mention] := hnames
  exact name_targetOf root hlast hparent

/-- The target of a reference in a line whose value holds no slash has the name made of its parts,
and no part holds a hyphen. -/
theorem name_target_of_resolve {lines : List Text} {n : Int} {found : Reference}
    (h : (resolve lines n root).value = .ok (some found)) (hline : lineAt? lines n = some line)
    (hflat : Mention.IsFlat line) :
    found.target = targetOf root found.mention ∧ found.target.name = fileNameOf found.mention ∧
      ∀ part ∈ found.mention.components, '-' ∉ part := by
  obtain ⟨text, htext, hmention, htarget, -⟩ := exists_line_of_resolve h
  obtain rfl := Option.some.inj (htext.symm.trans hline)
  have hslash := slash_notMem_of_isFlat hmention hflat
  refine ⟨htarget, ?_, hyphen_notMem_of_ofLine? hmention⟩
  rw [htarget, name_targetOf_of_flat root hslash]

/-- Two references into one registry, from lines whose values hold no slash, lead to one file
exactly if they agree in the key and in the parts. Different ones even lead to files of different
names. -/
theorem target_eq_iff_of_resolve {lines lines' : List Text} {n n' : Int} {line line' : Text}
    {found found' : Reference} (h : (resolve lines n root).value = .ok (some found))
    (h' : (resolve lines' n' root).value = .ok (some found'))
    (hline : lineAt? lines n = some line) (hline' : lineAt? lines' n' = some line')
    (hflat : Mention.IsFlat line) (hflat' : Mention.IsFlat line') :
    (found.target = found'.target ↔ found.mention.key = found'.mention.key ∧
      found.mention.components = found'.mention.components) ∧
    (found.target.name = found'.target.name ↔ found.target = found'.target) := by
  obtain ⟨htarget, hname, hparts⟩ := name_target_of_resolve h hline hflat
  obtain ⟨htarget', hname', hparts'⟩ := name_target_of_resolve h' hline' hflat'
  have hmention : found.target.name = found'.target.name → found.mention = found'.mention := by
    rw [hname, hname']
    exact fileNameOf_injective hparts hparts'
  have hsame : found.mention = found'.mention → found.target = found'.target := by
    intro heq
    rw [htarget, htarget', heq]
  have hfields : found.mention = found'.mention ↔ found.mention.key = found'.mention.key ∧
      found.mention.components = found'.mention.components := by
    cases found.mention
    cases found'.mention
    exact Iff.of_eq (Mention.mk.injEq ..)
  constructor
  · rw [← hfields]
    exact ⟨fun heq => hmention (congrArg Path.name heq), hsame⟩
  · exact ⟨fun heq => hsame (hmention heq), congrArg Path.name⟩

/-- In the registry `/r` the chains `b-..-a` and `.-a` lead to two files of one directory. -/
theorem target_ne_of_dots :
    let lines := ["chain: b-..-a".toList, "- chain: .-a".toList]
    ∃ found found' : Reference,
      (resolve lines 0 "/r".toList).value = .ok (some found) ∧
      (resolve lines 1 "/r".toList).value = .ok (some found') ∧
      found.target.parent = found'.target.parent ∧ found.target.name ≠ found'.target.name ∧
      found.target ≠ found'.target := by
  intro lines
  let found : Reference := ⟨⟨.chain, [['b'], ['.', '.'], ['a']]⟩,
    Path.ofText "/r/a/b-..-a-chain.yaml".toList⟩
  let found' : Reference := ⟨⟨.chain, [['.'], ['a']]⟩, Path.ofText "/r/a/.-a-chain.yaml".toList⟩
  have h : (resolve lines 0 "/r".toList).value = .ok (some found) := by decide +kernel
  have h' : (resolve lines 1 "/r".toList).value = .ok (some found') := by decide +kernel
  obtain ⟨htarget, hname⟩ := target_eq_iff_of_resolve h h' rfl rfl (by decide) (by decide)
  have hne : found.target ≠ found'.target := by
    rw [ne_eq, htarget]
    decide
  exact ⟨found, found', h, h', by decide +kernel, fun heq => hne (hname.mp heq), hne⟩

/-- Slashes in a value may lead back to what another value names. -/
example : targetOf "/r".toList ⟨.ref, ["a/../b".toList]⟩ =
    targetOf "/r".toList ⟨.ref, ["b".toList]⟩ := by
  decide +kernel

end Registry
end StepLocator
