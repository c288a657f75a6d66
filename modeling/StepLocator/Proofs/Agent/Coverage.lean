import Mathlib.Data.List.Nodup
import Mathlib.Data.List.Perm.Basic
import StepLocator.Proofs.Agent.Walk
import StepLocator.Proofs.Files.Shape
import StepLocator.Session.Controller

/-!
What a scan covers. It reaches the directories to which names lead down from its root through real
directories that can be listed, and in each of them that can be listed itself it examines whatever
is no directory. So its snapshot and its reports are told by the tree alone, place by place.
-/
namespace StepLocator

open Files

def Path.isChildOf (p directory : Path) : Bool := p.names != [] && p.parent == directory

theorem Path.isChildOf_append_concat_iff {directory : Path} {names : List Text} {name : Text} :
    (directory.append (names ++ [name])).isChildOf directory = true ↔ names = [] := by
  obtain ⟨anchor, front⟩ := directory
  simp [isChildOf, parent, append, ← List.append_assoc]

namespace Snapshot

variable {s : Snapshot} {path : Path}

theorem stamp?_filter (keep : Path → Bool) :
    stamp? path (s.filter fun e => keep e.1) = if keep path then s.stamp? path else none := by
  induction s with
  | nil => simp [stamp?]
  | cons e rest ih =>
    obtain ⟨p, time⟩ := e
    rw [List.filter_cons]
    by_cases hp : p = path
    · subst hp
      cases hkeep : keep p <;> simp [stamp?, ih, hkeep]
    · cases hkeep : keep p <;> simp [stamp?, ih, hp]

theorem Sorted.filter (h : s.Sorted) (keep : Path × Int → Bool) :
    Sorted (s.filter keep) :=
  List.Pairwise.sublist (List.filter_sublist.map Prod.fst) h

end Snapshot

namespace Scan

variable {fs : FileSystem} {kind : AgentKind} {recursive : Bool} {levels : Nat}
  {directory name text : Text} {names : List Text} {listing inner : Listing} {entry : Entry}
  {root : Path} {e : Event}

/-! ### Entry by entry -/

def eventAt (fs : FileSystem) (path : Path) : Event :=
  match fs.stamp path.toText with
  | .ok stamp => .file path stamp
  | .error fault => .unread path fault

theorem examine_eq : examine fs kind directory name =
    if kind.accepts ((Path.ofText directory).child name) then
      [eventAt fs ((Path.ofText directory).child name)]
    else [] := by
  simp only [examine, eventAt]
  cases fs.stamp ((Path.ofText directory).child name).toText <;> rfl

theorem mem_examine_iff : e ∈ examine fs kind directory name ↔
    kind.accepts ((Path.ofText directory).child name) = true ∧
      e = eventAt fs ((Path.ofText directory).child name) := by
  rw [examine_eq]
  split <;> simp [*]

theorem mem_files_iff (h : listing.WellFormed) :
    e ∈ files fs kind directory listing ↔
      ∃ name entry, listing.find? name = some entry ∧ Plain fs directory name entry ∧
        e ∈ examine fs kind directory name := by
  simp only [files_eq, List.mem_flatMap, Prod.exists, mem_filesOf_iff, h.find?_eq_some_iff]

theorem mem_below_iff (h : listing.WellFormed) :
    e ∈ below fs kind levels directory listing ↔
      ∃ name inner, listing.find? name = some (.directory inner) ∧
        e ∈ tree fs kind true levels (entryText directory name) inner := by
  simp only [below_eq, List.mem_flatMap, Prod.exists, h.find?_eq_some_iff]
  refine ⟨?_, ?_⟩
  · rintro ⟨name, entry, hmem, he⟩
    cases entry with
    | directory inner => exact ⟨name, inner, hmem, he⟩
    | _ => cases he
  · rintro ⟨name, inner, hmem, he⟩
    exact ⟨name, .directory inner, hmem, he⟩

/-! ### The directories on the way -/

/-- From a listing that is known by a text, names lead down through real directories that can be
listed to another one. Into subdirectories a scan goes only if it is recursive. -/
structure Reaches (fs : FileSystem) (recursive : Bool) (text : Text) (listing : Listing)
    (names : List Text) (inner : Listing) : Prop where
  way : listing.at? names = some (.directory inner)
  deep : recursive = true ∨ names = []
  above : ∀ front, front <+: names → front ≠ names → fs.listingFault? (wayText text front) = none

theorem Reaches.here (fs : FileSystem) (recursive : Bool) (text : Text) (listing : Listing) :
    Reaches fs recursive text listing [] listing :=
  ⟨listing.at?_nil, .inr rfl, fun _ hfront hne => absurd (List.prefix_nil.mp hfront) hne⟩

theorem Reaches.down (listed : fs.listingFault? text = none)
    (find : listing.find? name = some (.directory inner)) {listed' : Listing}
    (h : Reaches fs true (entryText text name) inner names listed') :
    Reaches fs true text listing (name :: names) listed' where
  way := by
    rw [Listing.at?_cons, find]
    exact h.way
  deep := .inl rfl
  above front hfront hne := by
    rcases List.prefix_cons_iff.mp hfront with rfl | ⟨more, rfl, hmore⟩
    · exact listed
    · exact h.above more hmore fun hsame => hne (by rw [hsame])

theorem Reaches.cases (h : Reaches fs recursive text listing names inner) :
    (names = [] ∧ inner = listing) ∨
      ∃ name rest middle, names = name :: rest ∧ recursive = true ∧
        fs.listingFault? text = none ∧ listing.find? name = some (.directory middle) ∧
        Reaches fs true (entryText text name) middle rest inner := by
  have hway := h.way
  cases names with
  | nil =>
    rw [Listing.at?_nil] at hway
    cases hway
    exact .inl ⟨rfl, rfl⟩
  | cons name rest =>
    rw [Listing.at?_cons, Option.bind_eq_some_iff] at hway
    obtain ⟨entry, hfind, hrest⟩ := hway
    cases entry with
    | directory middle =>
      refine .inr ⟨name, rest, middle, rfl, h.deep.resolve_right (by simp),
        h.above [] List.nil_prefix (by simp), hfind, hrest, .inl rfl, fun front hfront hne => ?_⟩
      exact h.above (name :: front) (List.cons_prefix_cons.mpr ⟨rfl, hfront⟩) (by simpa using hne)
    | _ => cases rest <;> cases hrest

/-- What a scan meets in a directory that it enters, subdirectories apart. -/
inductive MeetsAt (fs : FileSystem) (kind : AgentKind) (text : Text) (listing : Listing) :
    Event → Prop
  | unlisted {fault : Files.Fault} (refused : fs.listingFault? text = some fault) :
    MeetsAt fs kind text listing (.unlisted fault)
  | examined {name : Text} {entry : Entry} {e : Event} (listed : fs.listingFault? text = none)
    (find : listing.find? name = some entry) (plain : Plain fs text name entry)
    (mem : e ∈ examine fs kind text name) : MeetsAt fs kind text listing e

theorem meetsAt_of_refused {fault : Files.Fault} (h : fs.listingFault? text = some fault) :
    MeetsAt fs kind text listing e ↔ e = .unlisted fault := by
  constructor
  · intro hmeets
    cases hmeets with
    | unlisted refused =>
      cases h.symm.trans refused
      rfl
    | examined listed => cases h.symm.trans listed
  · rintro rfl
    exact .unlisted h

theorem meetsAt_of_listed (hlisting : listing.WellFormed) (h : fs.listingFault? text = none) :
    MeetsAt fs kind text listing e ↔ e ∈ files fs kind text listing := by
  rw [mem_files_iff hlisting]
  constructor
  · intro hmeets
    cases hmeets with
    | unlisted refused => cases h.symm.trans refused
    | examined _ find plain mem => exact ⟨_, _, find, plain, mem⟩
  · rintro ⟨name, entry, hfind, hplain, he⟩
    exact .examined h hfind hplain he

/-- What a scan meets in the directory to which names lead down, if it may enter so many directories
one within the other. -/
def MeetsBelow (fs : FileSystem) (kind : AgentKind) (levels : Nat) (text : Text)
    (names : List Text) (inner : Listing) (e : Event) : Prop :=
  names.length < levels ∧ MeetsAt fs kind (wayText text names) inner e ∨
    names.length = levels ∧ e = .tooDeep (wayText text names)

theorem meetsBelow_zero_iff : MeetsBelow fs kind 0 text [] inner e ↔ e = .tooDeep text := by
  simp [MeetsBelow, wayText]

theorem meetsBelow_here_iff :
    MeetsBelow fs kind (levels + 1) text [] inner e ↔ MeetsAt fs kind text inner e := by
  simp [MeetsBelow, wayText]

theorem meetsBelow_cons_iff :
    MeetsBelow fs kind (levels + 1) text (name :: names) inner e ↔
      MeetsBelow fs kind levels (entryText text name) names inner e := by
  simp [MeetsBelow, wayText]

/-- What a scan meets it meets in a directory that it reaches. -/
theorem mem_tree_iff (h : listing.WellFormed) :
    e ∈ tree fs kind recursive levels text listing ↔
      ∃ names inner, Reaches fs recursive text listing names inner ∧
        MeetsBelow fs kind levels text names inner e := by
  -- on the depth of the tree
  induction h generalizing recursive levels text with
  | @intro listing distinct named below ih =>
    have hlisting := Listing.WellFormed.intro distinct named below
    have hhere (he : MeetsBelow fs kind levels text [] listing e) :
        ∃ names inner, Reaches fs recursive text listing names inner ∧
          MeetsBelow fs kind levels text names inner e := ⟨[], listing, .here .., he⟩
    cases levels with
    | zero =>
      rw [tree, List.mem_singleton, ← meetsBelow_zero_iff]
      refine ⟨hhere, ?_⟩
      rintro ⟨names, inner, hreaches, hmeets⟩
      rcases hreaches.cases with ⟨rfl, rfl⟩ | ⟨name, rest, _, rfl, _⟩
      · exact hmeets
      · simp [MeetsBelow] at hmeets
    | succ levels =>
      cases hlisted : fs.listingFault? text with
      | some fault =>
        rw [tree_of_refused hlisted, List.mem_singleton, ← meetsAt_of_refused hlisted,
          ← meetsBelow_here_iff]
        refine ⟨hhere, ?_⟩
        rintro ⟨names, inner, hreaches, hmeets⟩
        rcases hreaches.cases with ⟨rfl, rfl⟩ | ⟨_, _, _, _, _, hnone, _⟩
        · exact hmeets
        · cases hlisted.symm.trans hnone
      | none =>
        rw [tree_of_listed hlisted, List.mem_append, ← meetsAt_of_listed hlisting hlisted,
          ← meetsBelow_here_iff]
        constructor
        · rintro (hmeets | hbelow)
          · exact hhere hmeets
          · cases recursive with
            | false => cases hbelow
            | true =>
              obtain ⟨name, inner, hfind, he⟩ := (mem_below_iff hlisting).mp hbelow
              obtain ⟨names, found, hreaches, hmeets⟩ :=
                (ih name inner (hlisting.find?_eq_some_iff.mp hfind)).mp he
              exact ⟨name :: names, found, hreaches.down hlisted hfind,
                meetsBelow_cons_iff.mpr hmeets⟩
        · rintro ⟨names, inner, hreaches, hmeets⟩
          rcases hreaches.cases with ⟨rfl, rfl⟩ | ⟨name, rest, middle, rfl, rfl, _, hfind, hrest⟩
          · exact .inl hmeets
          · refine .inr ((mem_below_iff hlisting).mpr ⟨name, middle, hfind, ?_⟩)
            exact (ih name middle (hlisting.find?_eq_some_iff.mp hfind)).mpr
              ⟨rest, inner, hrest, meetsBelow_cons_iff.mp hmeets⟩

/-- A scan reaches the directories on the way to one that it reaches. -/
theorem Reaches.above_of_prefix (h : Reaches fs recursive text listing names inner)
    {front : List Text} (hfront : front <+: names) :
    ∃ middle, Reaches fs recursive text listing front middle := by
  obtain ⟨rest, rfl⟩ := hfront
  have hway := h.way
  rw [Listing.at?_append, Option.bind_eq_some_iff] at hway
  obtain ⟨entry, hentry, hrest⟩ := hway
  cases entry with
  | directory middle =>
    refine ⟨middle, hentry, h.deep.imp_right fun hnone => (List.append_eq_nil_iff.mp hnone).1,
      fun more hmore hne => h.above more (hmore.trans (List.prefix_append _ _)) ?_⟩
    rintro rfl
    exact hne (hmore.eq_of_length_le (by simp))
  | _ => cases rest <;> cases hrest

/-- A scan gets to the bottom of a directory exactly if it may enter every directory that it
reaches. -/
theorem toBottom_tree_iff (h : listing.WellFormed) :
    ToBottom (tree fs kind recursive levels text listing) ↔
      ∀ names inner, Reaches fs recursive text listing names inner → names.length < levels := by
  constructor
  · intro deep names inner hreaches
    by_contra hlength
    have htake : (names.take levels).length = levels := by
      rw [List.length_take]
      omega
    obtain ⟨middle, hmiddle⟩ := hreaches.above_of_prefix (names.take_prefix levels)
    exact deep _ ((mem_tree_iff h).mpr ⟨_, middle, hmiddle, .inr ⟨htake, rfl⟩⟩)
  · intro hall directory hmem
    obtain ⟨names, inner, hreaches, ⟨_, hmeets⟩ | ⟨hlength, _⟩⟩ := (mem_tree_iff h).mp hmem
    · cases hmeets with
      | examined _ _ _ mem => exact toBottom_examine directory mem
    · exact absurd (hall names inner hreaches) (by omega)

/-! ### Place by place -/

def Event.place : Event → Path
  | .file path _ => path
  | .unread path _ => path
  | .unlisted (.refused _ text) => Path.ofText text
  | .unlisted .nulInPath => Path.ofText []
  | .tooDeep directory => Path.ofText directory

theorem place_eventAt (fs : FileSystem) (path : Path) : (eventAt fs path).place = path := by
  unfold eventAt
  split <;> rfl

theorem eventAt_eq_file_iff {path other : Path} {stamp : Int} :
    eventAt fs path = .file other stamp ↔ path = other ∧ fs.stamp path.toText = .ok stamp := by
  unfold eventAt
  cases fs.stamp path.toText <;> simp

theorem fault?_eventAt_iff {path : Path} {fault : Files.Fault} :
    (eventAt fs path).fault? = some fault ↔ fs.stamp path.toText = .error fault := by
  unfold eventAt
  cases fs.stamp path.toText <;> simp [Event.fault?]

theorem place_of_listingFault? {fault : Files.Fault} (h : fs.listingFault? text = some fault) :
    (Event.unlisted fault).place = Path.ofText text := by
  unfold FileSystem.listingFault? at h
  split at h
  · cases h
    rfl
  split at h
  · cases h
    rfl
  split at h
  · cases h
    rfl
  · cases h

theorem place_of_mem_examine (h : e ∈ examine fs kind directory name) :
    e.place = (Path.ofText directory).child name := by
  obtain ⟨_, rfl⟩ := mem_examine_iff.mp h
  exact place_eventAt _ _

theorem MeetsAt.place (h : MeetsAt fs kind text listing e) :
    e.place = Path.ofText text ∨ ∃ name, e.place = (Path.ofText text).child name := by
  cases h with
  | unlisted refused => exact .inl (place_of_listingFault? refused)
  | examined _ _ _ mem => exact .inr ⟨_, place_of_mem_examine mem⟩

theorem MeetsBelow.place (h : MeetsBelow fs kind levels text names listing e) :
    e.place = Path.ofText (wayText text names) ∨
      ∃ name, e.place = (Path.ofText (wayText text names)).child name := by
  rcases h with ⟨_, hmeets⟩ | ⟨_, rfl⟩
  · exact hmeets.place
  · exact .inl rfl

theorem place_of_mem_tree (h : root.WellFormed)
    (hnames : ∀ name ∈ names, Path.isName name = true ∧ '/' ∉ name) (hlisting : listing.WellFormed)
    (he : e ∈ tree fs kind recursive levels (wayText root.toText names) listing) :
    ∃ more, e.place = root.append (names ++ more) := by
  obtain ⟨below, inner, hreaches, hmeets⟩ := (mem_tree_iff hlisting).mp he
  have hbelow := (hlisting.at? hreaches.way).2
  have htext : Path.ofText (wayText (wayText root.toText names) below) =
      root.append (names ++ below) := by
    rw [wayText, wayText, ← List.foldl_append]
    exact Path.ofText_wayText h (List.forall_mem_append.mpr ⟨hnames, hbelow⟩)
  rcases hmeets.place with hplace | ⟨name, hplace⟩
  · exact ⟨below, by rw [hplace, htext]⟩
  · refine ⟨below ++ [name], ?_⟩
    rw [hplace, htext, Path.child_append, List.append_assoc]

theorem nodup_place_examine : ((examine fs kind directory name).map Event.place).Nodup := by
  rw [examine_eq]
  split
  · exact List.nodup_singleton _
  · exact List.nodup_nil

theorem place_of_mem_entry (h : root.WellFormed)
    (hnames : ∀ name ∈ names, Path.isName name = true ∧ '/' ∉ name) (hlisting : listing.WellFormed)
    {p : Text × Entry} (hp : p ∈ listing.entries)
    (he : e ∈ filesOf fs kind (wayText root.toText names) p ++
      belowOf fs kind levels (wayText root.toText names) p) :
    ∃ more, e.place = root.append (names ++ p.1 :: more) := by
  obtain ⟨name, entry⟩ := p
  have hfind := hlisting.find?_eq_some_iff.mpr hp
  rcases List.mem_append.mp he with he | he
  · refine ⟨[], ?_⟩
    rw [place_of_mem_examine (mem_filesOf_iff.mp he).2, Path.ofText_wayText h hnames,
      Path.child_append]
  · cases entry with
    | directory inner =>
      have hdown : ∀ other ∈ names ++ [name], Path.isName other = true ∧ '/' ∉ other :=
        List.forall_mem_append.mpr ⟨hnames, List.forall_mem_singleton.mpr (hlisting.isName hfind)⟩
      have he' : e ∈ tree fs kind true levels (wayText root.toText (names ++ [name])) inner := by
        rw [wayText_concat]
        exact he
      obtain ⟨more, hplace⟩ := place_of_mem_tree h hdown (hlisting.inner hfind) he'
      exact ⟨more, by rw [hplace, List.append_assoc, List.singleton_append]⟩
    | _ => cases he

/-- A scan of a whole tree meets each place once. -/
theorem nodup_places (h : root.WellFormed)
    (hnames : ∀ name ∈ names, Path.isName name = true ∧ '/' ∉ name)
    (hlisting : listing.WellFormed) :
    ((tree fs kind true levels (wayText root.toText names) listing).map Event.place).Nodup := by
  induction hlisting generalizing levels names with
  | @intro listing distinct named below ih =>
    have hlisting := Listing.WellFormed.intro distinct named below
    rcases levels with _ | levels
    · exact List.nodup_singleton _
    cases hlisted : fs.listingFault? (wayText root.toText names) with
    | some fault => simp [tree_of_refused hlisted]
    | none =>
      -- the files come before the subdirectories, which makes no difference here
      rw [tree_of_listed hlisted, if_pos rfl, files_eq, below_eq,
        ((List.flatMap_append_perm ..).map _).nodup_iff, List.map_flatMap, List.nodup_flatMap]
      refine ⟨?_, (List.pairwise_map.mp distinct).imp_of_mem ?_⟩
      · rintro ⟨name, entry⟩ hmem
        cases entry with
        | file content stamp => simpa [filesOf, belowOf] using nodup_place_examine
        | link target =>
          simp only [filesOf, belowOf, List.append_nil]
          split
          · exact List.nodup_nil
          · exact nodup_place_examine
        | directory inner =>
          have hdown : ∀ other ∈ names ++ [name], Path.isName other = true ∧ '/' ∉ other :=
            List.forall_mem_append.mpr ⟨hnames, List.forall_mem_singleton.mpr (named _ hmem)⟩
          simpa only [filesOf, belowOf, List.nil_append, wayText_concat] using
            ih name inner hmem hdown
      · intro p q hp hq hne place hplace hplace'
        obtain ⟨e, he, rfl⟩ := List.mem_map.mp hplace
        obtain ⟨e', he', hsame⟩ := List.mem_map.mp hplace'
        obtain ⟨more, hmore⟩ := place_of_mem_entry h hnames hlisting hp he
        obtain ⟨more', hmore'⟩ := place_of_mem_entry h hnames hlisting hq he'
        rw [hmore, hmore'] at hsame
        have hlists := congrArg Path.names hsame
        simp only [Path.append_names, List.append_cancel_left_eq, List.cons.injEq] at hlists
        exact hne hlists.1.symm

theorem events_of_no_directory (h : fs.isDirectory root.toText = .ok false) :
    events fs kind recursive root = .ok [] := by
  simp [events, h, bind, Except.bind, pure, Except.pure]

theorem tree_sublist : (tree fs kind recursive levels text listing).Sublist
    (tree fs kind true levels text listing) := by
  cases recursive with
  | true => exact List.Sublist.refl _
  | false =>
    cases levels with
    | zero => exact List.Sublist.refl _
    | succ levels =>
      cases hlisted : fs.listingFault? text with
      | some fault => rw [tree_of_refused hlisted, tree_of_refused hlisted]
      | none =>
        rw [tree_of_listed hlisted, tree_of_listed hlisted]
        simp

theorem nodup_places_events (h : root.WellFormed) (proper : fs.root.WellFormed) {met : List Event}
    (hmet : events fs kind recursive root = .ok met) : (met.map Event.place).Nodup := by
  rcases events_eq_ok hmet with ⟨rfl, _⟩ | ⟨listing, hentry, rfl⟩
  · exact List.nodup_nil
  · have hall :
        ((tree fs kind true nestingLimit (wayText root.toText []) listing).map
          Event.place).Nodup :=
      nodup_places h (by simp) (FileSystem.wellFormed_of_entry proper hentry)
    exact hall.sublist (List.Sublist.map _ tree_sublist)

end Scan

namespace Agent

variable {a : Agent} {fs : FileSystem} {hook : Hook} {path : Path} {stamp : Int} {s t : Snapshot}
  {met : List Scan.Event} {names : List Text} {inner : Listing} {fault : Files.Fault}

/-! ### What a scan examines and misses -/

/-- A directory that the scan of an agent reaches: its root, or what names lead down to. -/
def Reaches (a : Agent) (fs : FileSystem) (names : List Text) (inner : Listing) : Prop :=
  ∃ listing, fs.entry a.root.toText = .ok (.directory listing) ∧
    Scan.Reaches fs a.recursive a.root.toText listing names inner

/-- A path that the scan of an agent examines: it counts, and in a directory that the scan reaches
and can list, an entry that is no directory is under its name. -/
inductive Examines (a : Agent) (fs : FileSystem) : Path → Prop
  | intro {names : List Text} {inner : Listing} {name : Text} {entry : Entry}
    (reached : a.Reaches fs names inner)
    (listed : fs.listingFault? (Scan.wayText a.root.toText names) = none)
    (find : inner.find? name = some entry)
    (plain : Scan.Plain fs (Scan.wayText a.root.toText names) name entry)
    (accepted : a.kind.accepts (a.root.append (names ++ [name])) = true) :
    Examines a fs (a.root.append (names ++ [name]))

/-- What the scan of an agent misses, and why: a directory that it reaches and cannot list, or a
path that it examines in vain. -/
inductive Misses (a : Agent) (fs : FileSystem) : Path → Files.Fault → Prop
  | unlisted {names : List Text} {inner : Listing} {fault : Files.Fault}
    (reached : a.Reaches fs names inner)
    (refused : fs.listingFault? (Scan.wayText a.root.toText names) = some fault) :
    Misses a fs (a.root.append names) fault
  | unread {path : Path} {fault : Files.Fault} (examined : a.Examines fs path)
    (refused : fs.stamp path.toText = .error fault) : Misses a fs path fault

theorem Reaches.wellFormed (h : a.Reaches fs names inner) (proper : fs.root.WellFormed) :
    inner.WellFormed ∧ ∀ name ∈ names, Path.isName name = true ∧ '/' ∉ name := by
  obtain ⟨listing, hentry, hreaches⟩ := h
  exact (FileSystem.wellFormed_of_entry proper hentry).at? hreaches.way

theorem Reaches.ofText_wayText (h : a.Reaches fs names inner) (root : a.root.WellFormed)
    (proper : fs.root.WellFormed) :
    Path.ofText (Scan.wayText a.root.toText names) = a.root.append names :=
  Path.ofText_wayText root (h.wellFormed proper).2

/-- An agent may enter every directory that its scan reaches. -/
def Shallow (a : Agent) (fs : FileSystem) : Prop :=
  ∀ names inner, a.Reaches fs names inner → names.length < Scan.nestingLimit

/-- The scan of an agent gets to the bottom exactly if the agent may enter every directory that it
reaches. -/
theorem toBottom_iff (proper : fs.root.WellFormed)
    (hmet : Scan.events fs a.kind a.recursive a.root = .ok met) :
    Scan.ToBottom met ↔ a.Shallow fs := by
  rcases Scan.events_eq_ok hmet with ⟨rfl, hroot⟩ | ⟨listing, hentry, rfl⟩
  · refine iff_of_true nofun ?_
    rintro names inner ⟨listing, hentry, _⟩
    exact absurd hentry (hroot listing)
  · rw [Scan.toBottom_tree_iff (FileSystem.wellFormed_of_entry proper hentry)]
    constructor
    · rintro hall names inner ⟨other, hother, hreaches⟩
      cases hentry.symm.trans hother
      exact hall names inner hreaches
    · exact fun hall names inner hreaches => hall names inner ⟨listing, hentry, hreaches⟩

theorem mem_events_iff (proper : fs.root.WellFormed)
    (hmet : Scan.events fs a.kind a.recursive a.root = .ok met) (deep : Scan.ToBottom met)
    {e : Scan.Event} :
    e ∈ met ↔ ∃ names inner, a.Reaches fs names inner ∧
      Scan.MeetsAt fs a.kind (Scan.wayText a.root.toText names) inner e := by
  have shallow := (toBottom_iff proper hmet).mp deep
  rcases Scan.events_eq_ok hmet with ⟨rfl, hroot⟩ | ⟨listing, hentry, rfl⟩
  · simp only [List.not_mem_nil, false_iff, not_exists, not_and]
    rintro names inner ⟨listing, hentry, _⟩ _
    exact hroot listing hentry
  · rw [Scan.mem_tree_iff (FileSystem.wellFormed_of_entry proper hentry)]
    constructor
    · rintro ⟨names, inner, hreaches, ⟨_, hmeets⟩ | ⟨hlength, _⟩⟩
      · exact ⟨names, inner, ⟨listing, hentry, hreaches⟩, hmeets⟩
      · exact absurd (shallow names inner ⟨listing, hentry, hreaches⟩) (by omega)
    · rintro ⟨names, inner, ⟨other, hother, hreaches⟩, hmeets⟩
      cases hentry.symm.trans hother
      exact ⟨names, inner, hreaches, .inl ⟨shallow names inner ⟨_, hentry, hreaches⟩, hmeets⟩⟩

theorem mem_events_cases (root : a.root.WellFormed) (proper : fs.root.WellFormed)
    (hmet : Scan.events fs a.kind a.recursive a.root = .ok met) (deep : Scan.ToBottom met)
    {e : Scan.Event} :
    e ∈ met ↔ (∃ path, a.Examines fs path ∧ e = Scan.eventAt fs path) ∨
      ∃ names inner fault, a.Reaches fs names inner ∧
        fs.listingFault? (Scan.wayText a.root.toText names) = some fault ∧ e = .unlisted fault := by
  rw [mem_events_iff proper hmet deep]
  have hchild {names : List Text} {inner : Listing} (hreaches : a.Reaches fs names inner)
      (name : Text) : (Path.ofText (Scan.wayText a.root.toText names)).child name =
        a.root.append (names ++ [name]) := by
    rw [hreaches.ofText_wayText root proper, Path.child_append]
  constructor
  · rintro ⟨names, inner, hreaches, hmeets⟩
    cases hmeets with
    | unlisted refused => exact .inr ⟨names, inner, _, hreaches, refused, rfl⟩
    | examined listed find plain mem =>
      obtain ⟨haccepts, rfl⟩ := Scan.mem_examine_iff.mp mem
      rw [hchild hreaches] at haccepts ⊢
      exact .inl ⟨_, .intro hreaches listed find plain haccepts, rfl⟩
  · rintro (⟨path, ⟨hreaches, listed, find, plain, accepted⟩, rfl⟩ |
      ⟨names, inner, fault, hreaches, hrefused, rfl⟩)
    · refine ⟨_, _, hreaches, .examined listed find plain (Scan.mem_examine_iff.mpr ?_)⟩
      rw [hchild hreaches]
      exact ⟨accepted, rfl⟩
    · exact ⟨names, inner, hreaches, .unlisted hrefused⟩

theorem mem_events_file_iff (root : a.root.WellFormed) (proper : fs.root.WellFormed)
    (hmet : Scan.events fs a.kind a.recursive a.root = .ok met) (deep : Scan.ToBottom met) :
    .file path stamp ∈ met ↔ a.Examines fs path ∧ fs.stamp path.toText = .ok stamp := by
  rw [mem_events_cases root proper hmet deep]
  constructor
  · rintro (⟨other, hexamines, hevent⟩ | ⟨_, _, _, _, _, hevent⟩)
    · obtain ⟨rfl, hstamp⟩ := Scan.eventAt_eq_file_iff.mp hevent.symm
      exact ⟨hexamines, hstamp⟩
    · cases hevent
  · rintro ⟨hexamines, hstamp⟩
    exact .inl ⟨path, hexamines, (Scan.eventAt_eq_file_iff.mpr ⟨rfl, hstamp⟩).symm⟩

/-- A failure is met at a place exactly if the scan misses that place for it. -/
theorem misses_iff (root : a.root.WellFormed) (proper : fs.root.WellFormed)
    (hmet : Scan.events fs a.kind a.recursive a.root = .ok met) (deep : Scan.ToBottom met) :
    (∃ e ∈ met, e.place = path ∧ e.fault? = some fault) ↔ a.Misses fs path fault := by
  constructor
  · rintro ⟨e, he, rfl, hfault⟩
    rcases (mem_events_cases root proper hmet deep).mp he with
      ⟨path, hexamines, rfl⟩ | ⟨names, inner, _, hreaches, hrefused, rfl⟩
    · rw [Scan.place_eventAt]
      exact .unread hexamines (Scan.fault?_eventAt_iff.mp hfault)
    · cases hfault
      rw [Scan.place_of_listingFault? hrefused, hreaches.ofText_wayText root proper]
      exact .unlisted hreaches hrefused
  · intro hmisses
    cases hmisses with
    | unlisted reached refused =>
      refine ⟨_, (mem_events_cases root proper hmet deep).mpr
        (.inr ⟨_, _, _, reached, refused, rfl⟩), ?_, rfl⟩
      rw [Scan.place_of_listingFault? refused, reached.ofText_wayText root proper]
    | unread examined refused =>
      exact ⟨_, (mem_events_cases root proper hmet deep).mpr (.inl ⟨path, examined, rfl⟩),
        Scan.place_eventAt fs path, Scan.fault?_eventAt_iff.mpr refused⟩

/-! ### What a completed scan says -/

theorem reports_reload (a : Agent) (fs : FileSystem) (hook : Hook) :
    (a.reload fs hook).reports = (a.scan fs hook).reports ∧
      ∃ news, (a.reload fs hook).records = (a.scan fs hook).reports.map a.faultRecord ++ news := by
  unfold reload
  simp only
  split
  · exact ⟨rfl, [], (List.append_nil _).symm⟩
  · split
    · exact ⟨rfl, [], (List.append_nil _).symm⟩
    · exact ⟨rfl, _, rfl⟩

theorem reports_attempt {attempt : Controller.Attempt} (hkind : attempt.kind = a.kind)
    (hroot : attempt.root = a.root) (deep : a.recursive = true) :
    (attempt.run fs .clear hook).reports =
      (a.scan fs hook).reports.map fun fault => (a.kind, fault) := by
  obtain ⟨kind, path⟩ := attempt
  cases hkind
  cases hroot
  have hsame := scan_congr (a := fresh a.kind a.root (a.kind == .config || !false)) (b := a) rfl rfl
    (by simp [fresh, deep]) fs hook
  have hstart : (start a.kind a.root false fs hook).reports = (a.scan fs hook).reports := by
    rw [← hsame]
    exact (reports_reload _ fs hook).1
  cases hk : a.kind <;>
    simp only [Controller.Attempt.run, Controller.Obstacles.of, Controller.Obstacles.clear, hk,
      ← hstart]

def faultPlaces (met : List Scan.Event) : List (Path × Files.Fault) :=
  met.filterMap fun e => e.fault?.map fun fault => (e.place, fault)

theorem map_snd_faultPlaces (met : List Scan.Event) :
    (faultPlaces met).map Prod.snd = met.filterMap Scan.Event.fault? := by
  rw [faultPlaces, List.map_filterMap]
  congr
  funext e
  cases e.fault? <;> rfl

theorem map_fst_faultPlaces_sublist (met : List Scan.Event) :
    ((faultPlaces met).map Prod.fst).Sublist (met.map Scan.Event.place) := by
  induction met with
  | nil => exact .slnil
  | cons e rest ih =>
    rw [faultPlaces, List.filterMap_cons]
    cases e.fault? with
    | none => exact ih.cons _
    | some fault => exact ih.cons_cons _

theorem mem_faultPlaces_iff :
    (path, fault) ∈ faultPlaces met ↔ ∃ e ∈ met, e.place = path ∧ e.fault? = some fault := by
  rw [faultPlaces, List.mem_filterMap]
  refine exists_congr fun e => and_congr_right fun _ => ?_
  cases e.fault? with
  | none => simp
  | some other => simp [and_comm]

theorem examines_flat_iff (flat : a.recursive = false) :
    a.Examines fs path ↔
      { a with recursive := true }.Examines fs path ∧ path.isChildOf a.root = true := by
  constructor
  · rintro ⟨⟨listing, hentry, hreaches⟩, listed, find, plain, accepted⟩
    rcases hreaches.cases with ⟨rfl, rfl⟩ | ⟨_, _, _, _, hdeep, _⟩
    · exact ⟨.intro ⟨_, hentry, .here ..⟩ listed find plain accepted,
        Path.isChildOf_append_concat_iff.mpr rfl⟩
    · cases flat.symm.trans hdeep
  · rintro ⟨⟨⟨listing, hentry, hreaches⟩, listed, find, plain, accepted⟩, hchild⟩
    obtain rfl := Path.isChildOf_append_concat_iff.mp hchild
    rcases hreaches.cases with ⟨-, rfl⟩ | ⟨_, _, _, hnames, _⟩
    · exact .intro ⟨_, hentry, .here ..⟩ listed find plain accepted
    · cases hnames

theorem stamp?_scan (root : a.root.WellFormed) (proper : fs.root.WellFormed)
    (hscan : (a.scan fs hook).outcome = .ok s) :
    s.stamp? path = some stamp ↔ a.Examines fs path ∧ fs.stamp path.toText = .ok stamp := by
  obtain ⟨met, hmet, rfl⟩ := scan_eq_ok hscan
  rw [Scan.stamp?_snapshotOf hmet,
    mem_events_file_iff root proper hmet (complete_of_scan hscan hmet).1]

/-- The flat agent knows the direct children among what the recursive one knows. -/
theorem scan_flat (root : a.root.WellFormed) (proper : fs.root.WellFormed)
    (hscan : (a.scan fs hook).outcome = .ok s) (flat : a.recursive = false) {other : Hook}
    (hdeep : ({ a with recursive := true }.scan fs other).outcome = .ok t) :
    s = t.filter fun e => e.1.isChildOf a.root := by
  refine (scan_sorted hscan).ext ((scan_sorted hdeep).filter _) fun path => ?_
  refine Option.ext fun stamp => ?_
  have hall : t.stamp? path = some stamp ↔ { a with recursive := true }.Examines fs path ∧
      fs.stamp path.toText = .ok stamp := stamp?_scan root proper hdeep
  rw [stamp?_scan root proper hscan, examines_flat_iff flat,
    Snapshot.stamp?_filter fun path => path.isChildOf a.root]
  split
  · rename_i hchild
    simp only [hchild, and_true, hall]
  · rename_i hchild
    simp [hchild]

/-- A completed scan, whatever its hook. The snapshot has exactly the paths that the scan examines
and whose time can be told, each with its time. What it misses is reported, each place once, and
nothing else is, with the name of the agent. A root that is no directory has no files and is not
reported. The snapshot of a flat agent is that of the recursive one restricted to the entries of the
root. -/
theorem scan_covers (root : a.root.WellFormed) (proper : fs.root.WellFormed)
    (hscan : (a.scan fs hook).outcome = .ok s) :
    (∀ path stamp, s.stamp? path = some stamp ↔
      a.Examines fs path ∧ fs.stamp path.toText = .ok stamp) ∧
    (∃ places : List (Path × Files.Fault), (places.map Prod.fst).Nodup ∧
      (∀ path fault, (path, fault) ∈ places ↔ a.Misses fs path fault) ∧
      (a.scan fs hook).reports = places.map Prod.snd ∧
      (a.reload fs hook).reports = places.map Prod.snd ∧
      (∃ news, (a.reload fs hook).records = (places.map fun p => a.faultRecord p.2) ++ news) ∧
      ∀ attempt : Controller.Attempt, attempt.kind = a.kind → attempt.root = a.root →
        a.recursive = true → (attempt.run fs .clear hook).reports =
          places.map fun p => (a.kind, p.2)) ∧
    (fs.isDirectory a.root.toText = .ok false → s = [] ∧ (a.scan fs hook).reports = []) ∧
    (a.recursive = false → ∀ other t,
      ({ a with recursive := true }.scan fs other).outcome = .ok t →
        s = t.filter fun e => e.1.isChildOf a.root) := by
  obtain ⟨met, hmet, hsnapshot⟩ := scan_eq_ok hscan
  obtain ⟨deep, hreports⟩ := complete_of_scan hscan hmet
  rw [← map_snd_faultPlaces] at hreports
  refine ⟨fun path stamp => stamp?_scan root proper hscan,
    ⟨faultPlaces met, ?_, ?_, hreports, ?_, ?_, ?_⟩, ?_,
    fun flat other t => scan_flat root proper hscan flat⟩
  · exact (Scan.nodup_places_events root proper hmet).sublist (map_fst_faultPlaces_sublist met)
  · intro path fault
    rw [mem_faultPlaces_iff, misses_iff root proper hmet deep]
  · rw [(reports_reload a fs hook).1, hreports]
  · obtain ⟨news, hnews⟩ := (reports_reload a fs hook).2
    rw [hreports, List.map_map] at hnews
    exact ⟨news, hnews⟩
  · intro attempt hkind hroot deep
    rw [reports_attempt hkind hroot deep, hreports, List.map_map]
    rfl
  · intro hroot
    have hnone : Scan.events fs a.kind a.recursive a.root = .ok [] :=
      Scan.events_of_no_directory hroot
    obtain rfl := Except.ok.inj (hmet.symm.trans hnone)
    exact ⟨hsnapshot.symm, hreports⟩

/-- A file, links to it, to nothing, to itself and to a directory, a directory with the name of a
file, and one that cannot be listed. -/
theorem scan_covers_every_kind_of_entry :
    let listing : Listing := .file "a.yaml" [] 1 <| .link "b.yaml" "a.yaml" <|
      .link "c.yaml" "nowhere" <| .link "d.yaml" "d.yaml" <| .link "e.yaml" "f.yaml" <|
      .directory "f.yaml" (.file "g.yaml" [] 2 .empty) <|
      .directory "h" (.file "i.yaml" [] 3 .empty) .empty
    let fs : FileSystem := ⟨.directory "w" listing .empty, [], ["/w/h"], [], []⟩
    let a := fresh .config ⟨.root, ["w"]⟩ true
    ∃ s, (a.scan fs .calm).outcome = .ok s ∧ s.files.map Path.toText =
        ["/w/a.yaml", "/w/b.yaml", "/w/f.yaml/g.yaml"].map String.toList ∧
      a.Examines fs ⟨.root, ["w", "b.yaml"]⟩ ∧
      (∃ path, a.Misses fs path (.refused .denied "/w/h")) ∧
      (a.scan fs .calm).reports.map Files.Fault.message =
        ["[Errno 2] No such file or directory: '/w/c.yaml'",
          "[Errno 40] Too many levels of symbolic links: '/w/d.yaml'",
          "[Errno 13] Permission denied: '/w/h'"].map String.toList := by
  intro listing fs a
  have root : a.root.WellFormed := by
    intro name hname
    obtain rfl := List.mem_singleton.mp hname
    decide
  have proper : fs.root.WellFormed := by
    refine .intro (by decide) (by decide) fun name inner hmem => ?_
    cases List.mem_singleton.mp hmem
    refine .intro (by decide) (by decide) fun name inner hmem => ?_
    have hone (name : Text) (stamp : Int) (hname : Path.isName name = true ∧ '/' ∉ name) :
        (Listing.file name [] stamp .empty).WellFormed :=
      .intro (List.nodup_singleton _) (List.forall_mem_singleton.mpr hname)
        fun _ _ h => by cases List.mem_singleton.mp h
    have hinner : inner = .file "g.yaml" [] 2 .empty ∨ inner = .file "i.yaml" [] 3 .empty := by
      simp [listing, Listing.entries] at hmem
      exact hmem.imp And.right And.right
    rcases hinner with rfl | rfl <;> exact hone _ _ (by decide)
  have hscan : (a.scan fs .calm).outcome = .ok
      [(⟨.root, ["w", "a.yaml"]⟩, 1), (⟨.root, ["w", "b.yaml"]⟩, 1),
        (⟨.root, ["w", "f.yaml", "g.yaml"]⟩, 2)] :=
    found?_eq_some_iff (v := ⟨fs, .calm⟩) |>.mp (by decide +kernel)
  have hreports : (a.scan fs .calm).reports = [.refused .missing "/w/c.yaml",
      .refused .linkLoop "/w/d.yaml", .refused .denied "/w/h"] := by decide +kernel
  obtain ⟨hfiles, ⟨places, -, hplaces, hmissed, -⟩, -, -⟩ := scan_covers root proper hscan
  have hdenied : Files.Fault.refused .denied "/w/h" ∈ places.map Prod.snd := by
    rw [← hmissed, hreports]
    decide
  obtain ⟨⟨path, fault⟩, hmem, hfault⟩ := List.mem_map.mp hdenied
  obtain rfl : fault = .refused .denied "/w/h" := hfault
  refine ⟨_, hscan, by decide, ((hfiles _ 1).mp (by decide)).1, ⟨path, (hplaces _ _).mp hmem⟩, ?_⟩
  rw [hreports]
  decide +kernel

end Agent
end StepLocator
