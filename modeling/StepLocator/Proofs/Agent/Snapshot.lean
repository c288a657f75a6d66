import Mathlib.Data.Char
import Mathlib.Data.List.Lex
import Mathlib.Order.Lattice
import StepLocator.Agent.Scan

/-!
Snapshots as sorted lists. The order of paths is that of lists of texts, which is linear, so the
files of a snapshot stand in one order only: two snapshots that give every path the same time are
the same list. A scan enters the files one after the other and so makes a sorted snapshot.
-/
namespace StepLocator

theorem nil_le_list {α : Type} [LinearOrder α] (t : List α) : [] ≤ t := by
  cases t with
  | nil => exact le_rfl
  | cons b bs => exact le_of_lt (List.nil_lt_cons b bs)

theorem cons_le_cons_iff_lex {α : Type} [LinearOrder α] {a b : α} {s t : List α} :
    a :: s ≤ b :: t ↔ a < b ∨ a = b ∧ s ≤ t := by
  simp only [le_iff_lt_or_eq, List.cons_lt_cons_iff, List.cons.injEq]
  tauto

theorem Text.le_iff {s t : Text} : Text.le s t = true ↔ s ≤ t := by
  induction s generalizing t with
  | nil => simp [Text.le, nil_le_list]
  | cons a as ih =>
    cases t with
    | nil => simp [Text.le]
    | cons b bs =>
      simp only [Text.le, Bool.or_eq_true, Bool.and_eq_true, decide_eq_true_eq, beq_iff_eq, ih,
        cons_le_cons_iff_lex]
      exact Iff.rfl

theorem Path.leNames_iff {ns ms : List Text} : Path.leNames ns ms = true ↔ ns ≤ ms := by
  induction ns generalizing ms with
  | nil => simp [Path.leNames, nil_le_list]
  | cons a as ih =>
    cases ms with
    | nil => simp [Path.leNames]
    | cons b bs =>
      by_cases h : a = b
      · simp [Path.leNames, h, ih, cons_le_cons_iff_lex]
      · simp only [Path.leNames, if_neg h, Text.le_iff, cons_le_cons_iff_lex]
        simp [h, le_iff_lt_or_eq]

theorem Anchor.toText_injective : Function.Injective Anchor.toText := by
  intro a b h
  cases a <;> cases b <;> first | rfl | cases h

namespace Snapshot

def key (p : Path) : List Text := p.anchor.toText :: p.names

theorem key_injective : Function.Injective key := by
  rintro ⟨a, ns⟩ ⟨b, ms⟩ h
  obtain ⟨hanchor, rfl⟩ := List.cons.inj h
  obtain rfl : a = b := Anchor.toText_injective hanchor
  rfl

theorem le_iff {p q : Path} : le p q = true ↔ key p ≤ key q := Path.leNames_iff

def Before (p q : Path) : Prop := key p < key q

theorem before_of_le {p q : Path} (h : le p q = true) (hne : p ≠ q) : Before p q :=
  lt_of_le_of_ne (le_iff.mp h) (key_injective.ne hne)

theorem before_of_not_le {p q : Path} (h : ¬ le p q = true) : Before q p :=
  lt_of_not_ge fun hle => h (le_iff.mpr hle)

/-- The files of a snapshot stand in order, and none of them twice. -/
def Sorted (s : Snapshot) : Prop := s.files.Pairwise Before

variable {s t : Snapshot} {path p : Path} {stamp : Int}

theorem stamp?_insert :
    (s.insert path stamp).stamp? p = if path = p then some stamp else s.stamp? p := by
  induction s with
  | nil => simp [insert, stamp?]
  | cons entry rest ih =>
    obtain ⟨q, time⟩ := entry
    simp only [insert]
    split
    · next h => by_cases hp : path = p <;> simp [stamp?, h, hp]
    · next h =>
      split
      · simp [stamp?]
      · by_cases hp : path = p
        · subst hp
          simp [stamp?, h, ih]
        · simp [stamp?, hp, ih]

theorem mem_files_iff : p ∈ s.files ↔ ∃ time, s.stamp? p = some time := by
  induction s with
  | nil => simp [files, stamp?]
  | cons entry rest ih =>
    obtain ⟨q, time⟩ := entry
    by_cases h : q = p
    · simp [files, stamp?, h]
    · simpa [files, stamp?, h, Ne.symm h] using ih

theorem mem_files_insert : p ∈ (s.insert path stamp).files ↔ p = path ∨ p ∈ s.files := by
  simp only [mem_files_iff, stamp?_insert]
  by_cases h : path = p
  · simp [h]
  · simp [h, Ne.symm h]

theorem stamp?_eq_none (h : p ∉ s.files) : s.stamp? p = none :=
  Option.eq_none_iff_forall_not_mem.mpr fun time htime => h (mem_files_iff.mpr ⟨time, htime⟩)

theorem Sorted.insert (h : s.Sorted) (path : Path) (stamp : Int) :
    (s.insert path stamp).Sorted := by
  induction s with
  | nil => exact List.pairwise_singleton _ _
  | cons entry rest ih =>
    obtain ⟨q, time⟩ := entry
    obtain ⟨hfirst, hrest⟩ := List.pairwise_cons.mp h
    unfold Snapshot.insert
    split
    · next heq => exact heq ▸ h
    · next hne =>
      split
      · next hle =>
        have hbefore : Before path q := before_of_le hle (Ne.symm hne)
        refine List.pairwise_cons.mpr ⟨fun p hp => ?_, h⟩
        rcases List.mem_cons.mp hp with rfl | hp
        · exact hbefore
        · exact lt_trans hbefore (hfirst p hp)
      · next hnot =>
        refine List.pairwise_cons.mpr ⟨fun p hp => ?_, ih hrest⟩
        rcases mem_files_insert.mp hp with rfl | hp
        · exact before_of_not_le hnot
        · exact hfirst p hp

theorem Sorted.ext (hs : s.Sorted) (ht : t.Sorted) (h : ∀ p, s.stamp? p = t.stamp? p) : s = t := by
  induction s generalizing t with
  | nil =>
    cases t with
    | nil => rfl
    | cons entry rest => simpa [stamp?] using h entry.1
  | cons first rest ih =>
    cases t with
    | nil => simpa [stamp?] using h first.1
    | cons second others =>
      obtain ⟨p, time⟩ := first
      obtain ⟨q, other⟩ := second
      obtain ⟨hp, hrest⟩ := List.pairwise_cons.mp hs
      obtain ⟨hq, hothers⟩ := List.pairwise_cons.mp ht
      have hmem : ∀ r, r ∈ files ((p, time) :: rest) ↔ r ∈ files ((q, other) :: others) :=
        fun r => by simp only [mem_files_iff, h r]
      -- were the first files different, each would come before the other
      obtain rfl : p = q := by
        by_contra hne
        have hpq : p ∈ files others :=
          (List.mem_cons.mp ((hmem p).mp List.mem_cons_self)).resolve_left hne
        have hqp : q ∈ files rest :=
          (List.mem_cons.mp ((hmem q).mpr List.mem_cons_self)).resolve_left (Ne.symm hne)
        exact lt_asymm (hp q hqp) (hq p hpq)
      obtain rfl : time = other := by simpa [stamp?] using h p
      have hnone : ∀ {l : Snapshot}, (∀ r ∈ l.files, Before p r) → l.stamp? p = none :=
        fun hl => stamp?_eq_none fun hmem => lt_irrefl _ (hl p hmem)
      have htail : rest = others := by
        refine ih hrest hothers fun r => ?_
        by_cases hr : p = r
        · rw [← hr, hnone hp, hnone hq]
        · simpa [stamp?, hr] using h r
      rw [htail]

theorem Sorted.ne_iff (hs : s.Sorted) (ht : t.Sorted) : s ≠ t ↔ ∃ p, s.stamp? p ≠ t.stamp? p := by
  constructor
  · intro hne
    by_contra hall
    exact hne (hs.ext ht fun p => not_not.mp fun hp => hall ⟨p, hp⟩)
  · rintro ⟨p, hp⟩ rfl
    exact hp rfl

end Snapshot

namespace Scan

def enter (snapshot : Snapshot) : Event → Snapshot
  | .file path stamp => snapshot.insert path stamp
  | _ => snapshot

theorem snapshotOf_eq (events : List Event) : snapshotOf events = events.foldl enter [] := rfl

theorem sorted_foldl_enter (events : List Event) {s : Snapshot} (h : s.Sorted) :
    (events.foldl enter s).Sorted := by
  induction events generalizing s with
  | nil => exact h
  | cons event rest ih =>
    cases event with
    | file path stamp => exact ih (h.insert path stamp)
    | _ => exact ih h

theorem sorted_snapshotOf (events : List Event) : (snapshotOf events).Sorted := by
  rw [snapshotOf_eq]
  exact sorted_foldl_enter events List.Pairwise.nil

theorem mem_files_foldl_enter (events : List Event) {s : Snapshot} {path : Path} :
    path ∈ (events.foldl enter s).files ↔
      path ∈ s.files ∨ ∃ stamp, .file path stamp ∈ events := by
  induction events generalizing s with
  | nil => simp
  | cons event rest ih =>
    rw [List.foldl_cons, ih]
    cases event with
    | file p stamp =>
      simp only [enter, Snapshot.mem_files_insert, List.mem_cons, Event.file.injEq]
      constructor
      · rintro ((rfl | h) | ⟨time, h⟩)
        · exact Or.inr ⟨stamp, Or.inl ⟨rfl, rfl⟩⟩
        · exact Or.inl h
        · exact Or.inr ⟨time, Or.inr h⟩
      · rintro (h | ⟨time, ⟨rfl, rfl⟩ | h⟩)
        · exact Or.inl (Or.inr h)
        · exact Or.inl (Or.inl rfl)
        · exact Or.inr ⟨time, h⟩
    | _ => simp [enter]

theorem mem_files_snapshotOf {events : List Event} {path : Path} :
    path ∈ (snapshotOf events).files ↔ ∃ stamp, .file path stamp ∈ events := by
  rw [snapshotOf_eq, mem_files_foldl_enter]
  simp [Snapshot.files]

theorem stamp?_foldl_enter_of_notMem (events : List Event) {s : Snapshot} {path : Path}
    (h : ∀ stamp, .file path stamp ∉ events) :
    (events.foldl enter s).stamp? path = s.stamp? path := by
  induction events generalizing s with
  | nil => rfl
  | cons event rest ih =>
    have hrest := ih (s := enter s event) fun stamp hmem => h stamp (List.mem_cons_of_mem _ hmem)
    rw [List.foldl_cons, hrest]
    cases event with
    | file p stamp =>
      have hne : p ≠ path := fun e => h stamp (by simp [e])
      simp [enter, Snapshot.stamp?_insert, hne]
    | _ => rfl

theorem stamp?_foldl_enter_of_mem (events : List Event) {s : Snapshot} {path : Path} {stamp : Int}
    (hmem : .file path stamp ∈ events)
    (honly : ∀ other, .file path other ∈ events → other = stamp) :
    (events.foldl enter s).stamp? path = some stamp := by
  induction events generalizing s with
  | nil => simp at hmem
  | cons event rest ih =>
    rw [List.foldl_cons]
    by_cases hrest : ∃ other, .file path other ∈ rest
    · obtain ⟨other, hother⟩ := hrest
      obtain rfl := honly other (List.mem_cons_of_mem _ hother)
      exact ih hother fun time htime => honly time (List.mem_cons_of_mem _ htime)
    · -- met for the last time: what is entered now stays
      have hnot : ∀ other, .file path other ∉ rest := fun other h => hrest ⟨other, h⟩
      obtain rfl := (List.mem_cons.mp hmem).resolve_right (hnot stamp)
      simp [stamp?_foldl_enter_of_notMem rest hnot, enter, Snapshot.stamp?_insert]

variable {fs : FileSystem} {kind : AgentKind} {path : Path} {stamp : Int}

theorem stamp_of_mem_examine {directory name : Text}
    (h : .file path stamp ∈ examine fs kind directory name) :
    fs.stamp path.toText = .ok stamp := by
  unfold examine at h
  simp only at h
  split at h
  · split at h
    · next hstamp =>
      obtain ⟨rfl, rfl⟩ := Event.file.inj (List.mem_singleton.mp h)
      exact hstamp
    · simp at h
  · simp at h

theorem stamp_of_mem_files {directory : Text} {listing : Listing}
    (h : .file path stamp ∈ files fs kind directory listing) :
    fs.stamp path.toText = .ok stamp := by
  induction listing with
  | empty => simp [files] at h
  | file name content time rest ih =>
    exact (List.mem_append.mp h).elim stamp_of_mem_examine ih
  | link name target rest ih =>
    rcases List.mem_append.mp h with h | h
    · split at h
      · simp at h
      · exact stamp_of_mem_examine h
    · exact ih h
  | directory name inner rest _ ih => exact ih h

theorem stamp_of_mem_below {levels : Nat} {directory : Text} {listing : Listing}
    (h : .file path stamp ∈ below fs kind levels directory listing) :
    fs.stamp path.toText = .ok stamp := by
  induction listing generalizing levels directory with
  | empty => simp [below] at h
  | file name content time rest ih => exact ih h
  | link name target rest ih => exact ih h
  | directory name inner rest ihinner ih =>
    rcases List.mem_append.mp h with h | h
    · split at h
      · simp at h
      · split at h
        · simp at h
        · exact (List.mem_append.mp h).elim stamp_of_mem_files ihinner
    · exact ih h

theorem stamp_of_mem_tree {recursive : Bool} {levels : Nat} {directory : Text} {listing : Listing}
    (h : .file path stamp ∈ tree fs kind recursive levels directory listing) :
    fs.stamp path.toText = .ok stamp := by
  unfold tree at h
  split at h
  · simp at h
  split at h
  · simp at h
  rcases List.mem_append.mp h with h | h
  · exact stamp_of_mem_files h
  · split at h
    · exact stamp_of_mem_below h
    · simp at h

theorem events_of_directory {recursive : Bool} {root : Path} {listing : Listing}
    (h : fs.entry root.toText = .ok (.directory listing)) :
    events fs kind recursive root =
      .ok (tree fs kind recursive nestingLimit root.toText listing) := by
  simp [events, FileSystem.isDirectory, h, Entry.isDirectory, Entry.inner?, bind, Except.bind, pure,
    Except.pure]

/-- A scan goes through the listing of its root, or there is none and it meets nothing. -/
theorem events_eq_ok {recursive : Bool} {root : Path} {met : List Event}
    (h : events fs kind recursive root = .ok met) :
    (met = [] ∧ ∀ listing, fs.entry root.toText ≠ .ok (.directory listing)) ∨
      ∃ listing, fs.entry root.toText = .ok (.directory listing) ∧
        met = tree fs kind recursive nestingLimit root.toText listing := by
  by_cases hroot : ∃ listing, fs.entry root.toText = .ok (.directory listing)
  · obtain ⟨listing, hentry⟩ := hroot
    exact .inr ⟨listing, hentry, Except.ok.inj (h.symm.trans (events_of_directory hentry))⟩
  · refine .inl ⟨?_, fun listing hentry => hroot ⟨listing, hentry⟩⟩
    unfold events at h
    cases hdirectory : fs.isDirectory root.toText with
    | error fault => simp [hdirectory, bind, Except.bind] at h
    | ok isDirectory =>
      simp only [hdirectory, bind, Except.bind] at h
      split at h
      · cases hentry : fs.entry root.toText with
        | error fault => simp [hentry] at h
        | ok entry =>
          cases entry with
          | directory listing => exact absurd ⟨listing, hentry⟩ hroot
          | _ => simpa [hentry, pure, Except.pure] using h.symm
      · simpa [pure, Except.pure] using h.symm

theorem stamp_of_mem_events {recursive : Bool} {root : Path} {met : List Event}
    (hevents : events fs kind recursive root = .ok met) (h : .file path stamp ∈ met) :
    fs.stamp path.toText = .ok stamp := by
  rcases events_eq_ok hevents with ⟨rfl, _⟩ | ⟨listing, _, rfl⟩
  · simp at h
  · exact stamp_of_mem_tree h

/-- The snapshot of a scan gives each file that it met the time that it met it with. -/
theorem stamp?_snapshotOf {recursive : Bool} {root : Path} {met : List Event}
    (hevents : events fs kind recursive root = .ok met) :
    (snapshotOf met).stamp? path = some stamp ↔ .file path stamp ∈ met := by
  have hof {time : Int} (hmem : .file path time ∈ met) :
      (snapshotOf met).stamp? path = some time := by
    refine stamp?_foldl_enter_of_mem met hmem fun other hother => ?_
    have htime := stamp_of_mem_events hevents hmem
    have hsame := stamp_of_mem_events hevents hother
    exact Except.ok.inj (hsame.symm.trans htime)
  refine ⟨fun h => ?_, hof⟩
  obtain ⟨time, hmem⟩ := mem_files_snapshotOf.mp (Snapshot.mem_files_iff.mpr ⟨stamp, h⟩)
  obtain rfl : time = stamp := Option.some.inj ((hof hmem).symm.trans h)
  exact hmem

end Scan
end StepLocator
