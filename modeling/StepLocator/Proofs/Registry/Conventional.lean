import StepLocator.Proofs.Registry.Distinct
import StepLocator.Proofs.Registry.Roots

/-!
Files laid out by the convention of the registry: in directories named by the parts, one in the
other, a file named by all parts and its key. A line that writes the parts behind the key leads to
this file, from every root in normal form but the one that is written as two slashes.
-/
namespace StepLocator

/-- Parts that may name a file by the convention. They are names of directories, none of which leads
to another one, hyphens and slashes do not occur in them, and blanks at the two ends would be
lost. -/
structure Conventional (parts : List Text) : Prop where
  ne_nil : parts ≠ []
  directories : ∀ part ∈ parts, part ≠ [] ∧ part ≠ ['.'] ∧ part ≠ ['.', '.']
  hyphen : ∀ part ∈ parts, '-' ∉ part
  slash : ∀ part ∈ parts, '/' ∉ part
  starts : ∀ part ∈ parts.head?, Text.StartsClear Text.isBlank part
  ends : ∀ part ∈ parts.getLast?, Text.EndsClear Text.isBlank part

/-- Whether a value spells parts under a key: among blanks stand the parts with hyphens between
them, under the key for commands with one more behind them, which is left out. -/
def Mention.Spells (value : Text) (key : Key) (parts : List Text) : Prop :=
  ∃ front kind back, (∀ c ∈ front ++ back, Text.isBlank c = true) ∧ '-' ∉ kind ∧
    value = front ++ (List.intercalate ['-'] (if key = .commands then parts ++ [kind] else parts) ++
      back)

def Registry.conventionalFile (root : Path) (key : Key) (parts : List Text) : Path :=
  root.append (parts ++ [List.intercalate ['-'] (parts ++ [key.toText]) ++ key.extension])

variable {parts : List Text} {key : Key} {value line : Text}

namespace Conventional

theorem startsClear_intercalate (h : Conventional parts) :
    Text.StartsClear Text.isBlank (List.intercalate ['-'] parts) := by
  cases parts with
  | nil => exact absurd rfl h.ne_nil
  | cons part rest =>
    have hpart := h.starts part rfl
    have hne := (h.directories part List.mem_cons_self).1
    cases rest with
    | nil => rwa [List.intercalate_singleton]
    | cons next more =>
      rw [List.intercalate_cons_cons, List.append_assoc]
      exact hpart.append hne _

theorem endsClear_intercalate (h : Conventional parts) :
    Text.EndsClear Text.isBlank (List.intercalate ['-'] parts) := by
  obtain ⟨before, last, hparts⟩ := (List.eq_nil_or_concat parts).resolve_left h.ne_nil
  rw [List.concat_eq_append] at hparts
  have hlast := h.ends last (by simp [hparts])
  have hne := (h.directories last (by simp [hparts])).1
  rw [hparts]
  by_cases hbefore : before = []
  · rwa [hbefore, List.nil_append, List.intercalate_singleton]
  · rw [Path.intercalate_concat hbefore]
    exact hlast.append hne _

theorem intercalate_ne_nil (h : Conventional parts) : List.intercalate ['-'] parts ≠ [] := by
  obtain ⟨part, hpart⟩ := List.exists_mem_of_ne_nil parts h.ne_nil
  obtain ⟨c, hc⟩ := List.exists_mem_of_ne_nil part (h.directories part hpart).1
  exact List.ne_nil_of_mem (Path.mem_intercalate_of_mem hpart hc)

end Conventional

theorem Conventional.strip_concat (h : Conventional parts) {front kind back : Text}
    (hfront : ∀ c ∈ front, Text.isBlank c = true) (hback : ∀ c ∈ back, Text.isBlank c = true) :
    Text.strip (front ++ (List.intercalate ['-'] (parts ++ [kind]) ++ back)) =
      List.intercalate ['-'] (parts ++ [Text.trimRight Text.isBlank kind]) := by
  obtain ⟨hends, blanks, hblanks, hkind⟩ :=
    Text.trimRight_eq_iff.mp (rfl : Text.trimRight Text.isBlank kind = _)
  rw [Path.intercalate_concat h.ne_nil, Path.intercalate_concat h.ne_nil]
  apply Text.trim_eq_iff.mpr
  refine ⟨?_, ?_, front, blanks ++ back, hfront, ?_, ?_⟩
  · rw [List.append_assoc]
    exact h.startsClear_intercalate.append h.intercalate_ne_nil _
  · by_cases hnone : Text.trimRight Text.isBlank kind = []
    · have hhyphen : Text.EndsClear Text.isBlank ['-'] :=
        Text.endsClear_of_all fun c hc => List.mem_singleton.mp hc ▸ by decide
      rw [hnone, List.append_nil]
      exact hhyphen.append (by simp) _
    · exact hends.append hnone _
  · intro c hc
    rcases List.mem_append.mp hc with hc | hc
    · exact hblanks c hc
    · exact hback c hc
  · conv => lhs; rw [hkind]
    simp only [List.append_assoc]

/-- Parts that are spelled in a value are read from it. -/
theorem Mention.componentsOf_of_spells (h : Conventional parts) (hspells : Spells value key parts) :
    componentsOf key value = parts := by
  obtain ⟨front, kind, back, hblank, hkind, rfl⟩ := hspells
  have hfront : ∀ c ∈ front, Text.isBlank c = true := fun c hc =>
    hblank c (List.mem_append_left _ hc)
  have hback : ∀ c ∈ back, Text.isBlank c = true := fun c hc =>
    hblank c (List.mem_append_right _ hc)
  by_cases hkey : key = .commands
  · rw [componentsOf, if_pos hkey, if_pos hkey, h.strip_concat hfront hback,
      List.splitOn_intercalate]
    · exact List.dropLast_concat
    · intro part hpart
      rcases List.mem_append.mp hpart with hpart | hpart
      · exact h.hyphen part hpart
      · obtain ⟨-, blanks, -, hall⟩ :=
          Text.trimRight_eq_iff.mp (rfl : Text.trimRight Text.isBlank kind = _)
        obtain rfl := List.mem_singleton.mp hpart
        exact fun hmem => hkind (hall ▸ List.mem_append_left blanks hmem)
    · simp
  · have hstrip : Text.strip (front ++ (List.intercalate ['-'] parts ++ back)) =
        List.intercalate ['-'] parts :=
      Text.trim_eq_iff.mpr ⟨h.startsClear_intercalate, h.endsClear_intercalate, front, back, hfront,
        hback, (List.append_assoc ..).symm⟩
    rw [componentsOf, if_neg hkey, if_neg hkey, hstrip]
    exact List.splitOn_intercalate '-' h.hyphen h.ne_nil

namespace Registry

variable {root : Text}

def IsNormal (root : Text) : Prop :=
  (Path.ofText root).isAbsolute = true ∧ (Path.ofText root).normalize.toText = root

instance (root : Text) : Decidable (IsNormal root) :=
  inferInstanceAs (Decidable (_ ∧ _))

theorem IsNormal.normalize (h : IsNormal root) :
    (Path.ofText root).normalize = Path.ofText root := by
  have hread := Path.ofText_toText (Path.wellFormed_ofText root).normalize
  rw [h.2] at hread
  exact hread.symm

theorem IsNormal.eq_of_isSlashes (h : IsNormal root) (hslashes : Text.IsSlashes root) :
    root = ['/'] ∨ root = ['/', '/'] := by
  have hnames : (Path.ofText root).names = [] := Path.namesOf_of_isSlashes hslashes
  obtain ⟨habsolute, htext⟩ := h
  rw [← htext]
  generalize Path.ofText root = p at *
  obtain ⟨anchor, names⟩ := p
  subst hnames
  cases anchor with
  | here => cases habsolute
  | root => exact .inl rfl
  | doubleRoot => exact .inr rfl

theorem names_of_conventional (h : Conventional parts) (key : Key) :
    ∀ name ∈ parts ++ [fileNameOf ⟨key, parts⟩],
      (Path.isName name = true ∧ '/' ∉ name) ∧ name ≠ Path.parentName := by
  intro name hmem
  rcases List.mem_append.mp hmem with hmem | hmem
  · obtain ⟨hne, hdot, hparent⟩ := h.directories name hmem
    exact ⟨⟨by simp [Path.isName, hne, hdot], h.slash name hmem⟩, hparent⟩
  · obtain rfl := List.mem_singleton.mp hmem
    obtain ⟨hnames, hparent⟩ : Path.namesOf (fileNameOf ⟨key, parts⟩) = [fileNameOf ⟨key, parts⟩] ∧
        fileNameOf ⟨key, parts⟩ ≠ Path.parentName := namesOf_fileNameOf h.slash
    exact ⟨Path.mem_namesOf (hnames ▸ List.mem_singleton_self _), hparent⟩

theorem namesOf_behindRoot (h : Conventional parts) (key : Key) :
    Path.namesOf (behindRoot ⟨key, parts⟩) = parts ++ [fileNameOf ⟨key, parts⟩] :=
  Path.namesOf_joinNames fun name hmem => (names_of_conventional h key name hmem).1

theorem ofText_behindRoot (h : Conventional parts) (key : Key) :
    Anchor.ofText ('/' :: behindRoot ⟨key, parts⟩) = .root := by
  cases parts with
  | nil => exact absurd rfl h.ne_nil
  | cons part rest =>
    obtain ⟨tail, htail⟩ := Path.joinNames_cons part (rest ++ [fileNameOf ⟨key, part :: rest⟩])
    have hbehind : behindRoot ⟨key, part :: rest⟩ = part ++ tail := htail
    rw [hbehind]
    cases part with
    | nil => exact absurd rfl (h.directories [] List.mem_cons_self).1
    | cons c cs =>
      have hc : c ≠ '/' := fun heq =>
        h.slash (c :: cs) List.mem_cons_self (heq ▸ List.mem_cons_self)
      exact Path.ofText_toText_append .root hc (cs ++ tail)

/-- Of a root in normal form, only the two slashes are not where the way to a conventional file
begins. -/
theorem anchor_targetOf_eq_iff (h : Conventional parts) (hroot : IsNormal root) (key : Key) :
    (targetOf root ⟨key, parts⟩).anchor = (Path.ofText root).anchor ↔ root ≠ ['/', '/'] := by
  rw [anchor_targetOf]
  by_cases hslashes : Text.IsSlashes root
  · rw [if_pos hslashes, ofText_behindRoot h]
    rcases hroot.eq_of_isSlashes hslashes with rfl | rfl <;> decide
  · rw [if_neg hslashes]
    refine iff_of_true rfl ?_
    rintro rfl
    exact hslashes (by decide)

theorem names_targetOf_conventional (h : Conventional parts) (root : Text) (key : Key) :
    (targetOf root ⟨key, parts⟩).names =
      Path.normalizeNames (targetOf root ⟨key, parts⟩).isAbsolute (Path.namesOf root) ++
        (parts ++ [fileNameOf ⟨key, parts⟩]) := by
  rw [names_targetOf, namesOf_behindRoot h]
  exact Path.normalizeNames_append _ _ _ fun name hmem => (names_of_conventional h key name hmem).2

/-- From every root in normal form but the two slashes, the target is the conventional file. -/
theorem targetOf_conventional (h : Conventional parts) (hroot : IsNormal root)
    (hne : root ≠ ['/', '/']) (key : Key) :
    targetOf root ⟨key, parts⟩ = conventionalFile (Path.ofText root) key parts := by
  have hanchor := (anchor_targetOf_eq_iff h hroot key).mpr hne
  have hnames := names_targetOf_conventional h root key
  have hnormal : Path.normalizeNames (Path.ofText root).isAbsolute (Path.namesOf root) =
      Path.namesOf root := congrArg Path.names hroot.normalize
  rw [Path.isAbsolute, hanchor, ← Path.isAbsolute, hnormal] at hnames
  generalize targetOf root ⟨key, parts⟩ = target at hanchor hnames
  obtain ⟨anchor, names⟩ := target
  subst hanchor hnames
  rfl

theorem wellFormed_conventionalFile (h : Conventional parts) (root : Text) (key : Key) :
    (conventionalFile (Path.ofText root) key parts).WellFormed :=
  (Path.wellFormed_ofText root).append fun name hmem => (names_of_conventional h key name hmem).1

theorem resolveLine_conventional (h : Conventional parts) (hroot : IsNormal root)
    (hline : Mention.ofLine? line = some ⟨key, parts⟩) :
    (resolveLine root line).value =
      if root = ['/', '/'] then none
      else some ⟨⟨key, parts⟩, conventionalFile (Path.ofText root) key parts⟩ := by
  rw [resolveLine_value, hline, hroot.normalize]
  by_cases hne : root = ['/', '/']
  · have hleaves : ¬ (targetOf root ⟨key, parts⟩).isUnder (Path.ofText root) = true := by
      rw [Path.isUnder_iff, anchor_targetOf_eq_iff h hroot]
      exact fun hunder => hunder.1 hne
    simp only [if_pos hne, if_neg hleaves]
  · have hunder :
        (conventionalFile (Path.ofText root) key parts).isUnder (Path.ofText root) = true :=
      Path.isUnder_iff.mpr ⟨rfl, List.prefix_append ..⟩
    simp only [if_neg hne, targetOf_conventional h hroot hne key, if_pos hunder]

/-- A line that spells the parts of a conventional file leads to this file, from every root in
normal form but the two slashes; from there it leads nowhere. -/
theorem definitions_of_conventional {lines : List Text} {n : Int} (hparts : Conventional parts)
    (hspells : Mention.Spells value key parts) (hwrites : Mention.Writes line key value)
    (hline : lineAt? lines n = some line) (hroot : IsNormal root) :
    let file := conventionalFile (Path.ofText root) key parts
    (resolve lines n root).value =
        .ok (if root = ['/', '/'] then none else some ⟨⟨key, parts⟩, file⟩) ∧
      (definitions lines n root).value =
        .ok (if root = ['/', '/'] then [] else [file.toText]) ∧
      Path.ofText file.toText = file := by
  intro file
  have hmention : Mention.ofLine? line = some ⟨key, parts⟩ := by
    rw [Mention.ofLine?_of_writes hwrites, Mention.componentsOf_of_spells hparts hspells]
  have hvalue := resolveLine_conventional hparts hroot hmention
  refine ⟨?_, ?_, Path.ofText_toText (wellFormed_conventionalFile hparts root key)⟩
  · rw [resolve_of_some hline, hvalue]
  · rw [definitions_of_some hline, hvalue]
    split <;> rfl

/-- In the registry `/r` the script of the parts `.a:b` and `ü c` is found, with blanks around the
value and one more at the end of the part that is left out. -/
theorem definitions_of_spaced_commands :
    let line := "\t- commands: .a:b-ü c-x y ".toList
    (resolve [line] 0 "/r".toList).value =
        .ok (some ⟨⟨.commands, [".a:b".toList, "ü c".toList]⟩,
          ⟨.root, ["r".toList, ".a:b".toList, "ü c".toList, ".a:b-ü c-commands.sh".toList]⟩⟩) ∧
      (definitions [line] 0 "/r".toList).value =
        .ok ["/r/.a:b/ü c/.a:b-ü c-commands.sh".toList] := by
  intro line
  have hparts : Conventional [".a:b".toList, "ü c".toList] :=
    ⟨by decide, by decide, by decide, by decide, by decide, by decide⟩
  have hspells : Mention.Spells " .a:b-ü c-x y ".toList .commands [".a:b".toList, "ü c".toList] :=
    ⟨" ".toList, "x y ".toList, [], List.all_eq_true.mp (by decide), by decide, by decide⟩
  have hwrites : Mention.Writes line .commands " .a:b-ü c-x y ".toList :=
    ⟨"\t- commands".toList, Mention.keyText_eq_iff.mp (by decide), rfl⟩
  have hline : lineAt? [line] 0 = some line := rfl
  have hroot : IsNormal "/r".toList := by decide
  obtain ⟨hresolve, hdefinitions, -⟩ :=
    definitions_of_conventional hparts hspells hwrites hline hroot
  exact ⟨hresolve.trans (by decide +kernel), hdefinitions.trans (by decide +kernel)⟩

/-- Two slashes are a root in normal form, but the file that the parts name there is not found. -/
theorem conventional_unreachable_from_two_slashes :
    IsNormal ['/', '/'] ∧ Conventional [['a']] ∧ Mention.Spells " a".toList .ref [['a']] ∧
      Mention.Writes "- ref: a".toList .ref " a".toList ∧
      (conventionalFile (Path.ofText ['/', '/']) .ref [['a']]).toText = "//a/a-ref.yaml".toList ∧
      (definitions ["- ref: a".toList] 0 ['/', '/']).value = .ok [] ∧
      ¬ ∀ (root line value : Text) (key : Key) (parts : List Text), IsNormal root →
        Conventional parts → Mention.Spells value key parts → Mention.Writes line key value →
          (resolve [line] 0 root).value =
            .ok (some ⟨⟨key, parts⟩, conventionalFile (Path.ofText root) key parts⟩) := by
  have hparts : Conventional [['a']] :=
    ⟨by decide, by decide, by decide, by decide, by decide, by decide⟩
  have hspells : Mention.Spells " a".toList .ref [['a']] :=
    ⟨[' '], [], [], List.all_eq_true.mp (by decide), by decide, by decide⟩
  have hwrites : Mention.Writes "- ref: a".toList .ref " a".toList :=
    ⟨"- ref".toList, Mention.keyText_eq_iff.mp (by decide), rfl⟩
  have hnone : (resolve ["- ref: a".toList] 0 ['/', '/']).value = .ok none := rfl
  refine ⟨by decide, hparts, hspells, hwrites, by decide +kernel, rfl, fun hall => ?_⟩
  have hfound := hall ['/', '/'] _ _ _ _ (by decide) hparts hspells hwrites
  cases hnone.symm.trans hfound

end Registry
end StepLocator
