import StepLocator.Proofs.Files.Entries
import StepLocator.Proofs.Files.Tree

/-!
The shape of file trees. In a directory every name is a name, without a slash, and stands once; so a
directory is the map from its names to its entries, and whatever directory a path text leads to, it
is so there and below.
-/
namespace StepLocator

namespace Listing

variable {l listed : Listing} {name : Text} {names : List Text} {entry : Entry}

/-- A directory as file systems have them: no two entries have the same name, and each directory
among them is such a one again. -/
inductive WellFormed : Listing → Prop
  | intro {l : Listing} (distinct : (l.entries.map Prod.fst).Nodup)
    (named : ∀ e ∈ l.entries, Path.isName e.1 = true ∧ '/' ∉ e.1)
    (below : ∀ name inner, (name, Entry.directory inner) ∈ l.entries → WellFormed inner) :
    WellFormed l

theorem WellFormed.distinct (h : l.WellFormed) : (l.entries.map Prod.fst).Nodup := by
  cases h
  assumption

theorem wellFormed_empty : Listing.empty.WellFormed :=
  .intro List.nodup_nil (fun _ h => by cases h) fun _ _ h => by cases h

theorem WellFormed.find?_eq_some_iff (h : l.WellFormed) :
    l.find? name = some entry ↔ (name, entry) ∈ l.entries := by
  rw [find?_eq_find?_entries]
  have hdistinct := h.distinct
  generalize l.entries = entries at hdistinct
  induction entries with
  | nil => simp
  | cons e rest ih =>
    obtain ⟨other, first⟩ := e
    rw [List.map_cons, List.nodup_cons] at hdistinct
    by_cases hname : other = name
    · subst hname
      have hnone : (other, entry) ∉ rest := fun hmem =>
        hdistinct.1 (List.mem_map.mpr ⟨_, hmem, rfl⟩)
      simp [hnone, eq_comm]
    · simp [hname, Ne.symm hname, ← ih hdistinct.2]

theorem WellFormed.isName (h : l.WellFormed) (hfind : l.find? name = some entry) :
    Path.isName name = true ∧ '/' ∉ name := by
  have hmem := h.find?_eq_some_iff.mp hfind
  cases h with
  | intro _ named _ => exact named _ hmem

theorem WellFormed.inner (h : l.WellFormed) (hfind : l.find? name = some (.directory listed)) :
    listed.WellFormed := by
  have hmem := h.find?_eq_some_iff.mp hfind
  cases h with
  | intro _ _ below => exact below _ _ hmem

theorem WellFormed.at? (h : l.WellFormed) (hat : l.at? names = some (.directory listed)) :
    listed.WellFormed ∧ ∀ name ∈ names, Path.isName name = true ∧ '/' ∉ name := by
  induction names generalizing l with
  | nil =>
    rw [at?_nil] at hat
    cases hat
    exact ⟨h, fun _ hmem => by cases hmem⟩
  | cons name rest ih =>
    rw [at?_cons, Option.bind_eq_some_iff] at hat
    obtain ⟨entry, hfind, hrest⟩ := hat
    cases entry with
    | directory middle =>
      obtain ⟨hinner, hnames⟩ := ih (h.inner hfind) hrest
      refine ⟨hinner, fun other hother => ?_⟩
      rcases List.mem_cons.mp hother with rfl | hother
      · exact h.isName hfind
      · exact hnames other hother
    | _ => cases rest <;> cases hrest

end Listing

namespace FileSystem

variable {fs : FileSystem} {text : Text} {inner : Listing}

theorem wellFormed_of_entry (h : fs.root.WellFormed)
    (hentry : fs.entry text = .ok (.directory inner)) : inner.WellFormed := by
  obtain ⟨location, hspot⟩ := entry_eq_ok_iff.mp hentry
  refine spot_ends hspot (P := fun spot => ∀ location inner,
    spot = .found location (.directory inner) → inner.WellFormed) ?_ nofun nofun
      (fun haim => by cases haim) location inner rfl
  rintro start location inner ⟨⟩
  cases hat : fs.root.at? start with
  | none => exact Listing.wellFormed_empty
  | some entry =>
    cases entry with
    | directory inner => exact (h.at? hat).1
    | _ => exact Listing.wellFormed_empty

end FileSystem
end StepLocator
