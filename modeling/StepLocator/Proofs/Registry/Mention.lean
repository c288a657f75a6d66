import StepLocator.Proofs.Path.Text
import StepLocator.Proofs.Text.Trimming
import StepLocator.Registry.Reference

/-!
Lines that hold a mention. A line is read as one exactly when it is written as one: blanks and list
markers, a key, blanks, a colon, and the value; and the parts of the value, joined again, are what
is written behind the colon.
-/
namespace StepLocator

theorem Key.toText_clear (key : Key) : key.toText ≠ [] ∧
    ∀ c ∈ key.toText, Text.isBlank c = false ∧ (c == '-') = false ∧ c ≠ ':' := by
  have hclear : (key.toText.all fun c => !Text.isBlank c && c != '-' && c != ':') = true := by
    cases key <;> decide
  refine ⟨by cases key <;> decide, fun c hc => ?_⟩
  simpa [and_assoc] using List.all_eq_true.mp hclear c hc

namespace Mention

/-- The text before a colon is a key, behind list markers and among blanks. -/
def Introduces (fragment : Text) (key : Key) : Prop :=
  ∃ (outer inner behind : Text) (markers : Nat),
    (∀ c ∈ outer ++ inner ++ behind, Text.isBlank c = true) ∧
      fragment = outer ++ List.replicate markers '-' ++ inner ++ key.toText ++ behind

/-- A line is written as a mention: a key with list markers and blanks, a colon, and a value. -/
def Writes (line : Text) (key : Key) (value : Text) : Prop :=
  ∃ fragment, Introduces fragment key ∧ line = fragment ++ ':' :: value

variable {fragment line value : Text} {key : Key} {mention : Mention}

theorem ne_of_isBlank {c : Char} (h : Text.isBlank c = true) : (c == '-') = false ∧ c ≠ ':' := by
  constructor
  · rw [beq_eq_false_iff_ne]
    rintro rfl
    exact absurd h (by decide)
  · rintro rfl
    exact absurd h (by decide)

theorem startsClear_toText (key : Key) : Text.StartsClear Text.isBlank key.toText :=
  Text.startsClear_of_all fun c hc => (key.toText_clear.2 c hc).1

theorem endsClear_toText (key : Key) : Text.EndsClear Text.isBlank key.toText :=
  Text.endsClear_of_all fun c hc => (key.toText_clear.2 c hc).1

theorem introduces_of_keyText (h : keyText fragment = key.toText) : Introduces fragment key := by
  obtain ⟨-, -, inner, right, hinner, hright, hmarked⟩ := Text.trim_eq_iff.mp h
  obtain ⟨-, markers, hmarkers, hstripped⟩ := Text.trimLeft_eq_iff.mp hmarked
  obtain ⟨-, -, outer, back, houter, hback, hfragment⟩ := Text.trim_eq_iff.mp hstripped
  have hreplicate : markers = List.replicate markers.length '-' :=
    List.eq_replicate_of_mem fun c hc => by simpa using hmarkers c hc
  refine ⟨outer, inner, right ++ back, markers.length, ?_, ?_⟩
  · simp only [List.mem_append]
    rintro c ((hc | hc) | hc | hc)
    · exact houter c hc
    · exact hinner c hc
    · exact hright c hc
    · exact hback c hc
  · rw [← hreplicate, hfragment]
    simp only [List.append_assoc]

theorem exists_strip_of_introduces (h : Introduces fragment key) :
    ∃ (markers : Nat) (inner : Text), (∀ c ∈ inner, Text.isBlank c = true) ∧
      Text.strip fragment = List.replicate markers '-' ++ (inner ++ key.toText) := by
  obtain ⟨outer, inner, behind, markers, hblank, rfl⟩ := h
  simp only [List.mem_append] at hblank
  have hends := (endsClear_toText key).append key.toText_clear.1
  cases markers with
  | zero =>
    refine ⟨0, [], by simp, Text.trim_eq_iff.mpr ⟨startsClear_toText key, endsClear_toText key,
      outer ++ inner, behind, ?_, fun c hc => hblank c (.inr hc), by simp⟩⟩
    exact fun c hc => hblank c (.inl (List.mem_append.mp hc))
  | succ n =>
    refine ⟨n + 1, inner, fun c hc => hblank c (.inl (.inr hc)), Text.trim_eq_iff.mpr
      ⟨?_, ?_, outer, behind, fun c hc => hblank c (.inl (.inl hc)),
        fun c hc => hblank c (.inr hc), by simp⟩⟩
    · intro c hc
      obtain rfl : '-' = c := by simpa [List.replicate_succ] using hc
      decide
    · rw [← List.append_assoc]
      exact hends _

/-- Of the text before a colon, what is found among the blanks and behind the markers is the key. -/
theorem keyText_eq_iff : keyText fragment = key.toText ↔ Introduces fragment key := by
  refine ⟨introduces_of_keyText, fun h => ?_⟩
  obtain ⟨markers, inner, hinner, hstrip⟩ := exists_strip_of_introduces h
  have hclear : Text.StartsClear (· == '-') (inner ++ key.toText) := by
    refine Text.startsClear_of_all fun c hc => ?_
    rcases List.mem_append.mp hc with hc | hc
    · exact (ne_of_isBlank (hinner c hc)).1
    · exact (key.toText_clear.2 c hc).2.1
  have hmarkers : ∀ c ∈ List.replicate markers '-', (c == '-') = true := fun c hc => by
    simp [(List.mem_replicate.mp hc).2]
  rw [keyText, hstrip, Text.trimLeft_append hmarkers hclear]
  exact Text.trim_eq_iff.mpr ⟨startsClear_toText key, endsClear_toText key, inner, [], hinner,
    by simp, by simp⟩

theorem colon_notMem (h : Introduces fragment key) : ':' ∉ fragment := by
  obtain ⟨outer, inner, behind, markers, hblank, rfl⟩ := h
  simp only [List.mem_append] at hblank ⊢
  rintro ((((hc | hc) | hc) | hc) | hc)
  · exact (ne_of_isBlank (hblank _ (.inl (.inl hc)))).2 rfl
  · exact absurd (List.mem_replicate.mp hc).2 (by decide)
  · exact (ne_of_isBlank (hblank _ (.inl (.inr hc)))).2 rfl
  · exact (key.toText_clear.2 _ hc).2.2 rfl
  · exact (ne_of_isBlank (hblank _ (.inr hc))).2 rfl

/-- A line is cut into what introduces a key and a value exactly where it is written so. -/
theorem cutAt_of_writes (h : Writes line key value) :
    ∃ fragment, Text.cutAt ':' line = some (fragment, value) ∧ keyText fragment = key.toText := by
  obtain ⟨fragment, hintroduces, rfl⟩ := h
  exact ⟨fragment, Text.cutAt_eq_some_iff.mpr ⟨rfl, colon_notMem hintroduces⟩,
    keyText_eq_iff.mpr hintroduces⟩

theorem ofLine?_of_writes (h : Writes line key value) :
    ofLine? line = some ⟨key, componentsOf key value⟩ := by
  obtain ⟨fragment, hcut, hkey⟩ := cutAt_of_writes h
  have hfound : Key.ofText? (keyText fragment) = some key := Key.ofText?_eq_some_iff.mpr hkey.symm
  simp [ofLine?, hcut, hfound]

theorem ofLine?_eq_some_iff : ofLine? line = some mention ↔
    ∃ value, Writes line mention.key value ∧
      mention.components = componentsOf mention.key value := by
  constructor
  · intro h
    simp only [ofLine?, Option.bind_eq_bind, Option.bind_eq_some_iff, Option.pure_def,
      Option.some.injEq] at h
    obtain ⟨⟨fragment, value⟩, hcut, key, hkey, rfl⟩ := h
    obtain ⟨hline, -⟩ := Text.cutAt_eq_some_iff.mp hcut
    have hintroduces := keyText_eq_iff.mp (Key.ofText?_eq_some_iff.mp hkey).symm
    exact ⟨value, ⟨fragment, hintroduces, hline⟩, rfl⟩
  · rintro ⟨value, hwrites, hcomponents⟩
    obtain ⟨key, components⟩ := mention
    rw [ofLine?_of_writes hwrites, ← hcomponents]

theorem Writes.value_eq {other : Text} (h : Writes line key value) (h' : Writes line key other) :
    value = other := by
  obtain ⟨fragment, hcut, -⟩ := cutAt_of_writes h
  obtain ⟨fragment', hcut', -⟩ := cutAt_of_writes h'
  exact (Prod.mk.inj (Option.some.inj (hcut.symm.trans hcut'))).2

theorem ofLine?_eq_none_iff : ofLine? line = none ↔ ∀ key value, ¬ Writes line key value := by
  constructor
  · intro h key value hwrites
    cases h.symm.trans (ofLine?_of_writes hwrites)
  · intro h
    refine Option.eq_none_iff_forall_not_mem.mpr fun mention hmention => ?_
    obtain ⟨value, hwrites, -⟩ := ofLine?_eq_some_iff.mp hmention
    exact h _ _ hwrites

/-- The value of a mention is told by its parts, and under the key for commands by one more. -/
theorem exists_parts (key : Key) (value : Text) :
    ∃ dropped : List Text, dropped.length = (if key = .commands then 1 else 0) ∧
      (∀ part ∈ componentsOf key value ++ dropped, '-' ∉ part) ∧
      List.intercalate ['-'] (componentsOf key value ++ dropped) = Text.strip value := by
  have hjoin : List.intercalate ['-'] ((Text.strip value).splitOn '-') = Text.strip value :=
    List.intercalate_splitOn '-'
  have hparts : ∀ part ∈ (Text.strip value).splitOn '-', '-' ∉ part :=
    fun part => Path.not_mem_of_mem_splitOn
  by_cases hkey : key = .commands
  · have hne := List.splitOn_ne_nil '-' (Text.strip value)
    have hlast := List.dropLast_concat_getLast hne
    refine ⟨[((Text.strip value).splitOn '-').getLast hne],
      by rw [if_pos hkey, List.length_singleton], ?_, ?_⟩
    · rwa [componentsOf, if_pos hkey, hlast]
    · rwa [componentsOf, if_pos hkey, hlast]
  · refine ⟨[], by rw [if_neg hkey, List.length_nil], ?_, ?_⟩
    · rwa [componentsOf, if_neg hkey, List.append_nil]
    · rwa [componentsOf, if_neg hkey, List.append_nil]

theorem componentsOf_ne_nil (h : key ≠ .commands) (value : Text) : componentsOf key value ≠ [] := by
  rw [componentsOf, if_neg h]
  exact List.splitOn_ne_nil _ _

/-- What is read in a line is what is written there: a key among blanks and behind list markers, and
the parts of the value behind the first colon. Whatever is written otherwise is no mention. Joined
with hyphens, and with the one part put back that names a kind of script, the parts give the value
again. -/
theorem mention_of_line (line : Text) :
    (∀ mention, ofLine? line = some mention ↔
      ∃ value, Writes line mention.key value ∧
        mention.components =
          if mention.key = .commands then ((Text.strip value).splitOn '-').dropLast
          else (Text.strip value).splitOn '-') ∧
    (ofLine? line = none ↔ ∀ key value, ¬ Writes line key value) ∧
    ∀ mention, ofLine? line = some mention →
      mention.key.extension = (if mention.key = .commands then ".sh" else ".yaml").toList ∧
      (∀ part ∈ mention.components, '-' ∉ part) ∧
      (mention.key ≠ .commands → mention.components ≠ []) ∧
      ∀ value, Writes line mention.key value →
        ∃ dropped : List Text, dropped.length = (if mention.key = .commands then 1 else 0) ∧
          (∀ part ∈ dropped, '-' ∉ part) ∧
          List.intercalate ['-'] (mention.components ++ dropped) = Text.strip value := by
  refine ⟨fun mention => ofLine?_eq_some_iff, ofLine?_eq_none_iff, fun mention hmention => ?_⟩
  obtain ⟨value, hwrites, hcomponents⟩ := ofLine?_eq_some_iff.mp hmention
  obtain ⟨dropped, hlength, hparts, hjoin⟩ := exists_parts mention.key value
  rw [← hcomponents] at hparts hjoin
  refine ⟨by cases mention.key <;> rfl, ?_, ?_, fun other hother => ?_⟩
  · exact fun part hpart => hparts part (List.mem_append_left _ hpart)
  · intro hkey
    rw [hcomponents]
    exact componentsOf_ne_nil hkey value
  · obtain rfl := hwrites.value_eq hother
    exact ⟨dropped, hlength, fun part hpart => hparts part (List.mem_append_right _ hpart), hjoin⟩

/-- Markers may stand in each other, and blanks around them, but not in a key. -/
example : ofLine? "\t-- ref\x0b: a-b ".toList = some ⟨.ref, ["a".toList, "b".toList]⟩ ∧
    ofLine? "- - ref: a".toList = none := by
  decide

end Mention
end StepLocator
