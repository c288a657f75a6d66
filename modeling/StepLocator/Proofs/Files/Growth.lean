import StepLocator.Proofs.Files.Tree

/-!
Growing file trees. Making directories, opening files and adding to them take nothing away: what is
there stays there and stays what it is. So a path text that leads to a file leads to the same file
ever after, and a file that was opened by its path is found under that path.
-/
namespace StepLocator

open Files

/-- What can be relied on of the spot at the end of a search. What is found and is no directory is
there, a free name is free, and it is free in a directory if the search has begun in one. -/
def Spot.Sound (root : Listing) (real : Prop) : Spot → Prop
  | .found location entry => entry.kind = .directory ∨ root.at? location = some entry
  | .free directory name =>
    root.at? (directory ++ [name]) = none ∧ (real → root.kind? directory = some .directory)

namespace Files

variable {fs fs' : FileSystem} {root : Listing} {aim : Aim} {directory names : List Text}
  {spot : Spot} {jump jump' : List Text → List Text → Except Cause Spot}

theorem kind?_nil (root : Listing) : root.kind? [] = some .directory := by
  rw [Listing.kind?, Listing.at?_nil]
  rfl

theorem kind?_of_concat {name : Text} {kind : Entry.Kind}
    (h : root.kind? (directory ++ [name]) = some kind) :
    root.kind? directory = some .directory := by
  obtain ⟨entry, hat, -⟩ := Option.map_eq_some_iff.mp h
  rw [Listing.at?_append, Option.bind_eq_some_iff] at hat
  obtain ⟨above, habove, hbelow⟩ := hat
  cases above with
  | directory inner => exact Listing.kind?_of_at? habove
  | _ => cases hbelow

theorem kind?_dropLast (h : root.kind? directory = some .directory) :
    root.kind? directory.dropLast = some .directory := by
  rcases List.eq_nil_or_concat directory with rfl | ⟨above, name, rfl⟩
  · exact kind?_nil root
  · rw [List.concat_eq_append] at h ⊢
    rw [List.dropLast_concat]
    exact kind?_of_concat h

theorem follow_sound {real : Prop}
    (hjump : ∀ directory names, (real → fs.root.kind? directory = some .directory) →
      jump directory names = .ok spot → spot.Sound fs.root real)
    (hreal : real → fs.root.kind? directory = some .directory)
    (h : follow fs aim jump directory names = .ok spot) : spot.Sound fs.root real := by
  induction names generalizing directory with
  | nil =>
    cases h
    exact .inl rfl
  | cons name rest ih =>
    rw [follow] at h
    split at h
    · cases h
    split at h
    · exact ih hreal h
    split at h
    · exact ih (fun hr => kind?_dropLast (hreal hr)) h
    split at h
    · cases h
    split at h
    · cases h
    split at h
    · rename_i hnone
      split at h
      · cases h
        exact ⟨hnone, hreal⟩
      · cases h
    · rename_i content stamp hfile
      split at h
      · cases h
        exact .inr hfile
      · cases h
    · rename_i inner hinner
      exact ih (fun _ => by rw [Listing.kind?, hinner]; rfl) h
    · rename_i target hlink
      split at h
      · cases h
        exact .inr hlink
      · refine hjump _ _ (fun hr => ?_) h
        split
        · exact kind?_nil fs.root
        · exact hreal hr

theorem resolve_sound {real : Prop} {links : Nat}
    (hreal : real → fs.root.kind? directory = some .directory)
    (h : resolve fs aim links directory names = .ok spot) : spot.Sound fs.root real := by
  induction links generalizing directory names with
  | zero => exact follow_sound (fun _ _ _ h => by cases h) hreal h
  | succ links ih => exact follow_sound (fun _ _ hreal h => ih hreal h) hreal h

/-- A search that ends at a place for a file ends there also in a tree that has grown, if there is a
file at the place by then. -/
theorem follow_file (hlocked : fs'.locked = fs.locked)
    (hkinds : ∀ location kind, fs.root.kind? location = some kind →
      fs'.root.kind? location = some kind)
    (haim : aim ≠ .itself) (hplace : ∀ location inner, spot ≠ .found location (.directory inner))
    (hfile : fs'.root.kind? spot.location = some .file)
    (hjump : ∀ directory names, jump directory names = .ok spot →
      ∃ content stamp, jump' directory names = .ok (.found spot.location (.file content stamp)))
    (h : follow fs aim jump directory names = .ok spot) :
    ∃ content stamp, follow fs' .behind jump' directory names =
      .ok (.found spot.location (.file content stamp)) := by
  induction names generalizing directory with
  | nil =>
    cases h
    exact absurd rfl (hplace _ _)
  | cons name rest ih =>
    rw [follow] at h ⊢
    rw [hlocked]
    split at h
    · cases h
    rw [if_neg ‹_›]
    split at h
    · rw [if_pos ‹_›]
      exact ih h
    rw [if_neg ‹_›]
    split at h
    · rw [if_pos ‹_›]
      exact ih h
    rw [if_neg ‹_›, if_neg (by simp)]
    split at h
    · cases h
    split at h
    · cases h
    rw [if_neg ‹_›]
    -- what the name stands for now is what it stood for, unless the file has been made since
    split at h
    · split at h
      · cases h
        obtain ⟨content, stamp, hnow⟩ := Listing.at?_of_kind?_file hfile
        rw [Spot.location] at hnow
        simp only [hnow]
        rw [if_pos ‹_›]
        exact ⟨content, stamp, rfl⟩
      · cases h
    · rename_i hat
      obtain ⟨content, stamp, hnow⟩ :=
        Listing.at?_of_kind?_file (hkinds _ _ (Listing.kind?_of_at? hat))
      simp only [hnow]
      split at h
      · cases h
        rw [if_pos ‹_›]
        exact ⟨content, stamp, rfl⟩
      · cases h
    · rename_i hat
      obtain ⟨inner, hnow⟩ := Listing.at?_of_kind? (hkinds _ _ (Listing.kind?_of_at? hat))
      simp only [hnow]
      exact ih h
    · rename_i hat
      have hnow := Listing.at?_of_kind?_link (hkinds _ _ (Listing.kind?_of_at? hat))
      rw [if_neg fun hitself => haim hitself.1] at h
      simp only [hnow]
      rw [if_neg fun hitself => by cases hitself.1]
      exact hjump _ _ h

theorem resolve_file {links : Nat} (hlocked : fs'.locked = fs.locked)
    (hkinds : ∀ location kind, fs.root.kind? location = some kind →
      fs'.root.kind? location = some kind)
    (haim : aim ≠ .itself) (hplace : ∀ location inner, spot ≠ .found location (.directory inner))
    (hfile : fs'.root.kind? spot.location = some .file)
    (h : resolve fs aim links directory names = .ok spot) :
    ∃ content stamp, resolve fs' .behind links directory names =
      .ok (.found spot.location (.file content stamp)) := by
  induction links generalizing directory names with
  | zero => exact follow_file hlocked hkinds haim hplace hfile (fun _ _ h => by cases h) h
  | succ links ih => exact follow_file hlocked hkinds haim hplace hfile (fun _ _ h => ih h) h

end Files

namespace FileSystem

/-- Files grow: what is there stays what it is, open files stay open, the current directory stays
the current one, and the directories that may not be searched stay the same. -/
structure Grows (fs fs' : FileSystem) : Prop where
  here : fs'.here = fs.here
  locked : fs'.locked = fs.locked
  kinds : ∀ location kind, fs.root.kind? location = some kind →
    fs'.root.kind? location = some kind
  opened : fs.opened <+: fs'.opened

/-- Files grow by directories and empty files alone. -/
structure Extends (fs fs' : FileSystem) : Prop extends Grows fs fs' where
  contents : ∀ location, fs'.root.contentAt location = fs.root.contentAt location

variable {fs fs' fs'' : FileSystem} {text name : Text} {directory location : List Text}
  {entry : Entry} {spot : Spot} {aim : Aim}

theorem Grows.refl (fs : FileSystem) : fs.Grows fs := ⟨rfl, rfl, fun _ _ h => h, List.prefix_rfl⟩

theorem Grows.trans (h : fs.Grows fs') (h' : fs'.Grows fs'') : fs.Grows fs'' :=
  ⟨h'.here.trans h.here, h'.locked.trans h.locked,
    fun location kind hkind => h'.kinds location kind (h.kinds _ _ hkind),
    h.opened.trans h'.opened⟩

theorem Extends.refl (fs : FileSystem) : fs.Extends fs := ⟨Grows.refl fs, fun _ => rfl⟩

theorem Extends.trans (h : fs.Extends fs') (h' : fs'.Extends fs'') : fs.Extends fs'' :=
  ⟨h.toGrows.trans h'.toGrows, fun location => (h'.contents location).trans (h.contents location)⟩

theorem Grows.getElem?_opened (h : fs.Grows fs') {number : Nat} {place : Option (List Text)}
    (hopened : fs.opened[number]? = some place) : fs'.opened[number]? = some place := by
  obtain ⟨more, hmore⟩ := h.opened
  rw [← hmore, List.getElem?_append_left (List.getElem?_eq_some_iff.mp hopened).1, hopened]

/-! ### Where texts lead -/

theorem spot_sound (h : fs.spot aim text = .ok spot) :
    spot.Sound fs.root (text.head? = some '/') := by
  unfold FileSystem.spot at h
  split at h
  · cases h
  split at h
  · cases h
  split at h
  · cases h
  simp only at h
  split at h
  · rename_i found hfound
    cases h
    refine resolve_sound (fun hslash => ?_) hfound
    rw [if_pos hslash]
    exact kind?_nil fs.root
  · cases h

/-- A text that has led to a place for a file leads there also when the files have grown, if there
is a file at the place by then. -/
theorem Grows.spot_file (hgrows : fs.Grows fs') (haim : aim ≠ .itself)
    (hplace : ∀ location inner, spot ≠ .found location (.directory inner))
    (hfile : fs'.root.kind? spot.location = some .file) (h : fs.spot aim text = .ok spot) :
    ∃ content stamp, fs'.spot .behind text = .ok (.found spot.location (.file content stamp)) := by
  unfold FileSystem.spot at h ⊢
  split at h
  · cases h
  rw [if_neg ‹_›]
  split at h
  · cases h
  rw [if_neg ‹_›]
  split at h
  · cases h
  rw [if_neg ‹_›]
  simp only at h ⊢
  split at h
  · rename_i found hfound
    cases h
    obtain ⟨content, stamp, hnow⟩ :=
      resolve_file hgrows.locked hgrows.kinds haim hplace hfile hfound
    rw [hgrows.here, hnow]
    exact ⟨content, stamp, rfl⟩
  · cases h

def fileLocation? (fs : FileSystem) (text : Text) : Option (List Text) :=
  match fs.spot .behind text with
  | .ok (.found location (.file _ _)) => some location
  | _ => none

theorem fileLocation?_eq_some_iff : fs.fileLocation? text = some location ↔
    ∃ content stamp, fs.spot .behind text = .ok (.found location (.file content stamp)) := by
  unfold fileLocation?
  constructor
  · intro h
    split at h
    · rename_i content stamp hspot
      cases h
      exact ⟨content, stamp, hspot⟩
    · cases h
  · rintro ⟨content, stamp, hspot⟩
    rw [hspot]

theorem at?_of_fileLocation? (h : fs.fileLocation? text = some location) :
    ∃ content stamp, fs.spot .behind text = .ok (.found location (.file content stamp)) ∧
      fs.root.at? location = some (.file content stamp) := by
  obtain ⟨content, stamp, hspot⟩ := fileLocation?_eq_some_iff.mp h
  exact ⟨content, stamp, hspot, (spot_sound hspot).resolve_left nofun⟩

theorem kind?_of_fileLocation? (h : fs.fileLocation? text = some location) :
    fs.root.kind? location = some .file := by
  obtain ⟨content, stamp, -, hat⟩ := at?_of_fileLocation? h
  exact Listing.kind?_of_at? hat

theorem read_of_fileLocation? (h : fs.fileLocation? text = some location) :
    fs.read text = .ok (fs.root.contentAt location) := by
  obtain ⟨content, stamp, hspot, hat⟩ := at?_of_fileLocation? h
  simp [read, FileSystem.entry, find, hspot, Listing.contentAt, hat, Entry.content?, bind,
    Except.bind, pure, Except.pure, Except.map]

/-- A text that leads to a file leads to the same file when the files have grown. -/
theorem Grows.fileLocation? (hgrows : fs.Grows fs') (h : fs.fileLocation? text = some location) :
    fs'.fileLocation? text = some location := by
  obtain ⟨content, stamp, hspot⟩ := fileLocation?_eq_some_iff.mp h
  have hplace : ∀ other inner,
      Spot.found location (.file content stamp) ≠ .found other (.directory inner) :=
    fun _ _ e => by cases e
  exact fileLocation?_eq_some_iff.mpr
    (hgrows.spot_file (by decide) hplace (hgrows.kinds _ _ (kind?_of_fileLocation? h)) hspot)

/-! ### What grows -/

theorem root_putAt_concat (fs : FileSystem) (directory : List Text) (name : Text) (entry : Entry) :
    (fs.putAt (directory ++ [name]) entry).root = fs.root.modify (·.put name entry) directory := by
  simp [putAt, modify]

theorem contentAt_of_kind?_none {root : Listing} (h : root.kind? location = none) :
    root.contentAt location = [] := by
  rw [Listing.contentAt, Option.map_eq_none_iff.mp h]
  rfl

theorem extends_putAt (hleaf : entry.IsLeaf) (hempty : entry.content?.getD [] = [])
    (hfree : fs.root.kind? (directory ++ [name]) = none) :
    fs.Extends (fs.putAt (directory ++ [name]) entry) := by
  have hold : fs.root.kind? (directory ++ [name]) ≠ some .directory := by simp [hfree]
  refine ⟨⟨rfl, rfl, fun location kind hkind => ?_, List.prefix_rfl⟩, fun location => ?_⟩
  · have hne : location ≠ directory ++ [name] := by
      rintro rfl
      rw [hfree] at hkind
      cases hkind
    rwa [root_putAt_concat, (Listing.sameAt_put hleaf hold hne).kind?]
  · rw [root_putAt_concat]
    by_cases hplace : location = directory ++ [name]
    · subst hplace
      by_cases hdirectory : fs.root.kind? directory = some .directory
      · rw [Listing.contentAt, Listing.at?_put_self hdirectory, Option.bind_some, hempty,
          contentAt_of_kind?_none hfree]
      · exact (Listing.sameAt_modify _ (.inr hdirectory)).contentAt
    · exact (Listing.sameAt_put hleaf hold hplace).contentAt

theorem extends_makeDirectory (h : fs.makeDirectory text = .ok fs') : fs.Extends fs' := by
  unfold makeDirectory at h
  cases hspot : fs.spot .itself text with
  | error fault => simp [hspot, bind, Except.bind] at h
  | ok spot =>
    cases spot with
    | found location entry =>
      simp [hspot, bind, Except.bind, throw, throwThe, MonadExceptOf.throw] at h
    | free directory name =>
      obtain rfl : fs.putAt (directory ++ [name]) (.directory .empty) = fs' := by
        simpa [hspot, bind, Except.bind, pure, Except.pure] using h
      have hfree : fs.root.kind? (directory ++ [name]) = none := by
        rw [Listing.kind?, (spot_sound hspot).1]
        rfl
      exact extends_putAt Entry.isLeaf_empty rfl hfree

theorem extends_ensureDirectory (fs : FileSystem) (text : Text) :
    fs.Extends (fs.ensureDirectory text).files := by
  unfold ensureDirectory
  split
  · rename_i hmade
    exact extends_makeDirectory hmade
  · split <;> exact Extends.refl fs

/-- Making a directory and those above it takes nothing away, also where it ends early. -/
theorem extends_makeDirectoriesUpTo (count : Nat) (fs : FileSystem) (p : Path) :
    fs.Extends (makeDirectoriesUpTo count fs p).files := by
  induction count generalizing p with
  | zero => exact extends_ensureDirectory fs p.toText
  | succ count ih =>
    rw [makeDirectoriesUpTo]
    split
    · split
      · exact Extends.refl fs
      · simp only
        split
        · exact ih p.parent
        · exact (ih p.parent).trans (extends_ensureDirectory _ _)
    · exact extends_ensureDirectory fs p.toText

theorem extends_openAt (fs : FileSystem) (location : List Text) :
    fs.Extends (fs.openAt location).1 :=
  ⟨⟨rfl, rfl, fun _ _ h => h, List.prefix_append _ _⟩, fun _ => rfl⟩

theorem opened_openAt (fs : FileSystem) (location : List Text) :
    (fs.openAt location).1.opened[(fs.openAt location).2]? = some (some location) := by
  simp [openAt]

theorem openAt_spot {grown : FileSystem} (hextends : fs.Extends grown)
    (hspot : fs.spot .place text = .ok spot)
    (hplace : ∀ location inner, spot ≠ .found location (.directory inner))
    (hfile : grown.root.kind? spot.location = some .file) :
    let opened := grown.openAt spot.location
    fs.Extends opened.1 ∧ ∃ location, opened.1.opened[opened.2]? = some (some location) ∧
      opened.1.fileLocation? text = some location := by
  intro opened
  have hall : fs.Extends opened.1 := hextends.trans (extends_openAt grown spot.location)
  refine ⟨hall, spot.location, opened_openAt grown spot.location, ?_⟩
  exact fileLocation?_eq_some_iff.mpr (hall.spot_file (by decide) hplace hfile hspot)

/-- A file that is opened to add to it is kept under its number, and it is the one that the text of
its path leads to. -/
theorem openToAppend_eq_ok {number : Nat} {stamp : Int} (hslash : text.head? = some '/')
    (h : fs.openToAppend text stamp = .ok (fs', number)) :
    fs.Extends fs' ∧ ∃ location, fs'.opened[number]? = some (some location) ∧
      fs'.fileLocation? text = some location := by
  unfold openToAppend at h
  cases hspot : fs.spot .place text with
  | error fault => simp [hspot, bind, Except.bind] at h
  | ok spot =>
    have hsound := spot_sound hspot
    cases spot with
    | found location entry =>
      cases entry with
      | file content stamp =>
        have hopened : fs.openAt location = (fs', number) := by
          simpa [hspot, bind, Except.bind, pure, Except.pure] using h
        have hfile : fs.root.kind? location = some .file :=
          Listing.kind?_of_at? (hsound.resolve_left nofun)
        have hend := openAt_spot (Extends.refl fs) hspot (fun _ _ e => by cases e) hfile
        rwa [Spot.location, hopened] at hend
      | _ => simp [hspot, bind, Except.bind, throw, throwThe, MonadExceptOf.throw] at h
    | free directory name =>
      have hopened : (fs.putAt (directory ++ [name]) (.file [] stamp)).openAt
          (directory ++ [name]) = (fs', number) := by
        simpa [hspot, bind, Except.bind, pure, Except.pure] using h
      have hfree : fs.root.kind? (directory ++ [name]) = none := by
        rw [Listing.kind?, hsound.1]
        rfl
      have hmade : (fs.putAt (directory ++ [name]) (.file [] stamp)).root.kind?
          (directory ++ [name]) = some .file := by
        rw [root_putAt_concat]
        exact Listing.kind?_of_at? (Listing.at?_put_self (hsound.2 hslash) name _)
      have hend := openAt_spot (extends_putAt (Entry.isLeaf_file [] stamp) rfl hfree) hspot
        (fun _ _ e => by cases e) hmade
      rwa [Spot.location, hopened] at hend

/-- Adding to an open file adds to the end of what the file holds, and to no other file. -/
theorem appendTo_of_opened {number : Nat} (hopened : fs.opened[number]? = some (some location))
    (hfile : fs.root.kind? location = some .file) (content : Bytes) :
    fs.Grows (fs.appendTo number content) ∧
      ∀ other, (fs.appendTo number content).root.contentAt other =
        fs.root.contentAt other ++ if other = location then content else [] := by
  obtain ⟨before, stamp, hat⟩ := Listing.at?_of_kind?_file hfile
  have happend : fs.appendTo number content =
      fs.putAt location (.file (before ++ content) stamp) := by
    simp only [appendTo, hopened, appendAt, hat]
  obtain ⟨directory, name, rfl⟩ : ∃ directory name, location = directory ++ [name] := by
    rcases List.eq_nil_or_concat location with rfl | ⟨directory, name, rfl⟩
    · rw [kind?_nil] at hfile
      cases hfile
    · exact ⟨directory, name, List.concat_eq_append⟩
  have hleaf := Entry.isLeaf_file (before ++ content) stamp
  have hold : fs.root.kind? (directory ++ [name]) ≠ some .directory := by simp [hfile]
  have hself := Listing.at?_put_self (kind?_of_concat hfile) name (.file (before ++ content) stamp)
  rw [happend]
  refine ⟨⟨rfl, rfl, fun other kind hkind => ?_, List.prefix_rfl⟩, fun other => ?_⟩
  · rw [root_putAt_concat]
    by_cases hplace : other = directory ++ [name]
    · subst hplace
      rw [Listing.kind?_of_at? hself, ← hkind, hfile]
      rfl
    · rwa [(Listing.sameAt_put hleaf hold hplace).kind?]
  · rw [root_putAt_concat]
    by_cases hplace : other = directory ++ [name]
    · subst hplace
      rw [if_pos rfl, Listing.contentAt, hself, Listing.contentAt, hat]
      rfl
    · rw [if_neg hplace, List.append_nil, (Listing.sameAt_put hleaf hold hplace).contentAt]

end FileSystem
end StepLocator
