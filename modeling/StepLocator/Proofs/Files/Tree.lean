import StepLocator.Files.Change

/-!
Changing one place of a file tree. What a place is, without what it holds, and the content of the
file there are told by the entry alone, so putting a file, or a directory without entries, at a
place that is no directory changes both there and nowhere else.
-/
namespace StepLocator

/-- What an entry is, without what it holds; a link is told by its target. -/
inductive Entry.Kind
  | file
  | link (target : Text)
  | directory
  deriving DecidableEq, Repr

namespace Entry

def kind : Entry → Kind
  | .file _ _ => .file
  | .link target => .link target
  | .directory _ => .directory

def content? : Entry → Option Bytes
  | .file content _ => some content
  | _ => none

def at? : Entry → List Text → Option Entry
  | .directory inner, location => inner.at? location
  | entry, [] => some entry
  | _, _ :: _ => none

def IsLeaf (e : Entry) : Prop := ∀ name rest, e.at? (name :: rest) = none

/-- A view of entries that does not look into directories. -/
def Shallow {α : Type} (view : Entry → α) : Prop :=
  ∀ inner other, view (.directory inner) = view (.directory other)

@[simp] theorem at?_nil (e : Entry) : e.at? [] = some e := by
  cases e with
  | directory inner => rw [at?, Listing.at?]
  | _ => rfl

theorem isLeaf_file (content : Bytes) (stamp : Int) : (file content stamp).IsLeaf :=
  fun _ _ => rfl

theorem isLeaf_empty : (directory .empty).IsLeaf := fun _ _ => rfl

theorem isLeaf_of_kind {e : Entry} (h : e.kind ≠ .directory) : e.IsLeaf := by
  cases e with
  | directory inner => exact absurd rfl h
  | _ => exact fun _ _ => rfl

theorem kind_eq_directory {e : Entry} (h : e.kind = .directory) :
    ∃ inner, e = .directory inner := by
  cases e with
  | directory inner => exact ⟨inner, rfl⟩
  | _ => cases h

theorem kind_eq_file {e : Entry} (h : e.kind = .file) :
    ∃ content stamp, e = .file content stamp := by
  cases e with
  | file content stamp => exact ⟨content, stamp, rfl⟩
  | _ => cases h

theorem kind_eq_link {e : Entry} {target : Text} (h : e.kind = .link target) :
    e = .link target := by
  cases e with
  | link other =>
    cases h
    rfl
  | _ => cases h

theorem shallow_kind : Shallow kind := fun _ _ => rfl

theorem shallow_content? : Shallow content? := fun _ _ => rfl

end Entry

namespace Listing

def kind? (l : Listing) (location : List Text) : Option Entry.Kind :=
  (l.at? location).map Entry.kind

def contentAt (l : Listing) (location : List Text) : Bytes :=
  ((l.at? location).bind Entry.content?).getD []

variable {l inner : Listing} {directory location : List Text} {name : Text} {entry : Entry}

@[simp] theorem at?_nil (l : Listing) : l.at? [] = some (.directory l) := by rw [at?]

theorem at?_cons (l : Listing) (name : Text) (rest : List Text) :
    l.at? (name :: rest) = (l.find? name).bind (·.at? rest) := by
  rw [at?]
  cases l.find? name with
  | none => rfl
  | some entry => cases entry <;> cases rest <;> simp [Entry.at?]

theorem at?_append (l : Listing) (first second : List Text) :
    l.at? (first ++ second) = (l.at? first).bind (·.at? second) := by
  induction first generalizing l with
  | nil => simp [Entry.at?]
  | cons name rest ih =>
    rw [List.cons_append, at?_cons, at?_cons, Option.bind_assoc]
    refine Option.bind_congr fun entry _ => ?_
    cases entry with
    | directory inner => exact ih inner
    | _ => cases rest <;> cases second <;> simp [Entry.at?]

theorem at?_concat (h : l.at? directory = some (.directory inner)) (name : Text) :
    l.at? (directory ++ [name]) = inner.find? name := by
  rw [at?_append, h, Option.bind_some, Entry.at?, at?_cons]
  cases inner.find? name <;> simp

theorem mem_entries_of_find? {name : Text} {entry : Entry} {l : Listing}
    (h : l.find? name = some entry) : (name, entry) ∈ l.entries := by
  rw [find?_eq_find?_entries, Option.map_eq_some_iff] at h
  obtain ⟨e, hfound, rfl⟩ := h
  obtain rfl : e.1 = name := by simpa using List.find?_some hfound
  exact List.mem_of_find?_eq_some hfound

theorem find?_put (name wanted : Text) (entry : Entry) (l : Listing) :
    (l.put name entry).find? wanted = if wanted = name then some entry else l.find? wanted := by
  rw [put, find?_ofEntries]
  split
  · rename_i hsome
    have hnames : ((fun e => decide (e.1 = wanted)) ∘ fun ((n, e) : Text × Entry) =>
        if n = name then (n, entry) else (n, e)) = fun e => decide (e.1 = wanted) := by
      funext e
      by_cases he : e.1 = name <;> simp [he]
    obtain ⟨old, hold⟩ := Option.isSome_iff_exists.mp hsome
    rw [List.find?_map, hnames]
    rw [find?_eq_find?_entries] at hold ⊢
    cases hfind : l.entries.find? fun e => decide (e.1 = wanted) with
    | none =>
      have hne : wanted ≠ name := by
        rintro rfl
        rw [hfind] at hold
        cases hold
      simp [hne]
    | some e =>
      obtain rfl : e.1 = wanted := by simpa using List.find?_some hfind
      by_cases he : e.1 = name <;> simp [he]
  · rename_i hnone
    rw [find?_eq_find?_entries] at hnone ⊢
    rw [List.find?_append]
    by_cases hname : wanted = name
    · subst hname
      have hfind : l.entries.find? (fun e => decide (e.1 = wanted)) = none :=
        Option.map_eq_none_iff.mp (Option.not_isSome_iff_eq_none.mp hnone)
      simp [hfind]
    · simp [hname, Ne.symm hname]

theorem at?_put_cons (l : Listing) (name : Text) (entry : Entry) (first : Text) (rest : List Text) :
    (l.put name entry).at? (first :: rest) =
      if first = name then entry.at? rest else l.at? (first :: rest) := by
  rw [at?_cons, find?_put]
  split
  · rfl
  · rw [at?_cons]

/-- At a location there is the same in two trees, as far as can be told without looking into
directories. -/
def SameAt (l l' : Listing) (location : List Text) : Prop :=
  ∀ (α : Type) (view : Entry → α), Entry.Shallow view →
    (l.at? location).map view = (l'.at? location).map view

theorem SameAt.kind? {l l' : Listing} (h : l.SameAt l' location) :
    l.kind? location = l'.kind? location := h _ _ Entry.shallow_kind

theorem SameAt.contentAt {l l' : Listing} (h : l.SameAt l' location) :
    l.contentAt location = l'.contentAt location := by
  have hview (tree : Listing) : (tree.at? location).bind Entry.content? =
      ((tree.at? location).map Entry.content?).join := by
    cases tree.at? location <;> rfl
  rw [Listing.contentAt, hview, h _ _ Entry.shallow_content?, ← hview, Listing.contentAt]

theorem at?_modify_append (change : Listing → Listing)
    (h : l.at? directory = some (.directory inner)) (below : List Text) :
    (l.modify change directory).at? (directory ++ below) = (change inner).at? below := by
  induction directory generalizing l with
  | nil =>
    obtain rfl : l = inner := by simpa using h
    rw [modify, List.nil_append]
  | cons name rest ih =>
    rw [at?_cons, Option.bind_eq_some_iff] at h
    obtain ⟨entry, hfind, hbelow⟩ := h
    cases entry with
    | directory middle =>
      rw [modify, hfind, List.cons_append, at?_put_cons, if_pos rfl]
      exact ih hbelow
    | _ => cases rest <;> simp [Entry.at?] at hbelow

/-- A change of the directory at a location leaves all that is not below it, and where there is no
directory it leaves everything. -/
theorem sameAt_modify (change : Listing → Listing)
    (h : ¬ directory <+: location ∨ l.kind? directory ≠ some .directory) :
    (l.modify change directory).SameAt l location := by
  intro α view hview
  induction directory generalizing l location with
  | nil =>
    rw [kind?, at?_nil] at h
    simp [Entry.kind] at h
  | cons name rest ih =>
    rw [modify]
    split
    · rename_i middle hfind
      cases location with
      | nil => simpa using hview _ _
      | cons first more =>
        rw [at?_put_cons]
        split
        · rename_i hname
          subst hname
          rw [at?_cons, hfind]
          refine ih (h.imp (fun hnot hfront => ?_) fun hkind => ?_)
          · exact hnot (List.cons_prefix_cons.mpr ⟨rfl, hfront⟩)
          · rwa [kind?, at?_cons, hfind] at hkind
        · rfl
    · rfl

theorem at?_of_kind? (h : l.kind? location = some .directory) :
    ∃ inner, l.at? location = some (.directory inner) := by
  obtain ⟨entry, hentry, hkind⟩ := Option.map_eq_some_iff.mp h
  obtain ⟨inner, rfl⟩ := Entry.kind_eq_directory hkind
  exact ⟨inner, hentry⟩

theorem at?_of_kind?_file (h : l.kind? location = some .file) :
    ∃ content stamp, l.at? location = some (.file content stamp) := by
  obtain ⟨entry, hentry, hkind⟩ := Option.map_eq_some_iff.mp h
  obtain ⟨content, stamp, rfl⟩ := Entry.kind_eq_file hkind
  exact ⟨content, stamp, hentry⟩

theorem at?_of_kind?_link {target : Text} (h : l.kind? location = some (.link target)) :
    l.at? location = some (.link target) := by
  obtain ⟨entry, hentry, hkind⟩ := Option.map_eq_some_iff.mp h
  rw [hentry, Entry.kind_eq_link hkind]

theorem kind?_of_at? (h : l.at? location = some entry) : l.kind? location = some entry.kind := by
  rw [kind?, h, Option.map_some]

theorem at?_put_self (h : l.kind? directory = some .directory) (name : Text) (entry : Entry) :
    (l.modify (·.put name entry) directory).at? (directory ++ [name]) = some entry := by
  obtain ⟨inner, hinner⟩ := at?_of_kind? h
  rw [at?_modify_append _ hinner, at?_put_cons, if_pos rfl, Entry.at?_nil]

/-- Putting an entry that has nothing below it in the place of another such one leaves all other
places. -/
theorem sameAt_put (hleaf : entry.IsLeaf) (hold : l.kind? (directory ++ [name]) ≠ some .directory)
    (hne : location ≠ directory ++ [name]) :
    (l.modify (·.put name entry) directory).SameAt l location := by
  by_cases hkind : l.kind? directory = some .directory
  · obtain ⟨inner, hinner⟩ := at?_of_kind? hkind
    by_cases hfront : directory <+: location
    · intro α view hview
      obtain ⟨below, rfl⟩ := hfront
      rw [at?_modify_append _ hinner, at?_append l, hinner, Option.bind_some, Entry.at?]
      cases below with
      | nil => simpa using hview _ _
      | cons first rest =>
        rw [at?_put_cons]
        split
        · rename_i hname
          subst hname
          cases rest with
          | nil => exact absurd rfl hne
          | cons second more =>
            -- below the place itself there is nothing, before and after
            have hnone : inner.at? (first :: second :: more) = none := by
              rw [at?_cons]
              cases hfind : inner.find? first with
              | none => rfl
              | some old =>
                have hat := (at?_concat hinner first).trans hfind
                refine Entry.isLeaf_of_kind (fun hdirectory => hold ?_) second more
                rw [kind?_of_at? hat, hdirectory]
            rw [hnone, hleaf second more]
        · rfl
    · exact sameAt_modify _ (.inl hfront)
  · exact sameAt_modify _ (.inr hkind)

end Listing
end StepLocator
