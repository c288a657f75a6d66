import StepLocator.Proofs.Agent.Run
import StepLocator.Proofs.Files.Entries
import StepLocator.Proofs.Files.Tree
import StepLocator.Proofs.Path.Text

/-!
The way of a scan. From the root of an agent a scan goes down through real directories, as far as
they can be listed, and so it comes by every file that such a way leads to. It completes only if it
gets to the bottom of each of them.
-/
namespace StepLocator

open Files

/-! ### Texts on the way -/

namespace Scan

/-- The text by which a scan knows what it finds when it goes down from a directory by names. -/
def wayText (directory : Text) (names : List Text) : Text := names.foldl entryText directory

variable {directory name : Text} {names : List Text}

theorem entryText_ne_nil (h : directory ≠ []) (name : Text) : entryText directory name ≠ [] := by
  unfold entryText
  split <;> simp [h]

theorem wayText_concat (directory : Text) (names : List Text) (name : Text) :
    wayText directory (names ++ [name]) = entryText (wayText directory names) name :=
  List.foldl_append

theorem wayText_append (front : Text) (h : directory ≠ []) (names : List Text) :
    wayText (front ++ directory) names = front ++ wayText directory names := by
  induction names generalizing directory with
  | nil => rfl
  | cons name rest ih =>
    have hlast : (front ++ directory).getLast? = directory.getLast? := by
      rw [List.getLast?_append, List.getLast?_eq_some_getLast h, Option.some_or]
    have hentry : entryText (front ++ directory) name = front ++ entryText directory name := by
      unfold entryText
      rw [hlast]
      split <;> simp
    show wayText (entryText (front ++ directory) name) rest = _
    rw [hentry, ih (entryText_ne_nil h name)]
    rfl

end Scan

namespace Path

theorem entryText_toText {p : Path} (h : p.WellFormed) (hp : p.anchor ≠ .here ∨ p.names ≠ [])
    (name : Text) : Scan.entryText p.toText name = (p.child name).toText := by
  have hchild : (p.child name).toText = p.anchor.toText ++ joinNames (p.names ++ [name]) :=
    toText_of_names_ne_nil (by simp [child])
  rw [hchild]
  by_cases hn : p.names = []
  · obtain ⟨anchor, names⟩ := p
    subst hn
    cases anchor with
    | here => simp at hp
    | root => simp [Scan.entryText, toText, Anchor.toText, joinNames]
    | doubleRoot => simp [Scan.entryText, toText, Anchor.toText, joinNames]
  · rw [Scan.entryText, if_neg (getLast?_toText h hn), joinNames, intercalate_concat hn,
      ← joinNames, toText_of_names_ne_nil hn]
    simp only [List.append_assoc, List.singleton_append]

theorem wayText_toText {root : Path} (h : root.WellFormed) {names : List Text}
    (hnames : ∀ name ∈ names, isName name = true ∧ '/' ∉ name) (hne : names ≠ []) :
    Scan.wayText root.toText names = (root.append names).toText ∨
      root.anchor = .here ∧
        Scan.wayText root.toText names = "./".toList ++ (root.append names).toText := by
  have hway : ∀ (p : Path), p.WellFormed → (p.anchor ≠ .here ∨ p.names ≠ []) → ∀ names : List Text,
      (∀ name ∈ names, isName name = true ∧ '/' ∉ name) →
        Scan.wayText p.toText names = (p.append names).toText := by
    intro p hp hstart names hnames
    induction names generalizing p with
    | nil => simp [Scan.wayText, append]
    | cons name rest ih =>
      have hname := hnames name List.mem_cons_self
      have hrest := ih (p.child name) (hp.child hname.1 hname.2) (.inr (by simp [child]))
        fun other hother => hnames other (List.mem_cons_of_mem _ hother)
      show Scan.wayText (Scan.entryText p.toText name) rest = _
      rw [entryText_toText hp hstart, hrest]
      simp [child, append]
  by_cases hstart : root.anchor ≠ .here ∨ root.names ≠ []
  · exact .inl (hway root h hstart names hnames)
  · -- the current directory is written as a dot, which stays in front of its entries
    obtain ⟨hanchor, hnone⟩ : root.anchor = .here ∧ root.names = [] := by simpa using hstart
    obtain ⟨anchor, _⟩ := root
    subst hanchor hnone
    cases names with
    | nil => exact absurd rfl hne
    | cons name rest =>
      have hname := hnames name List.mem_cons_self
      have hfirst : WellFormed ⟨.here, [name]⟩ := h.child hname.1 hname.2
      have hrest := hway ⟨.here, [name]⟩ hfirst (.inr (by simp)) rest
        fun other hother => hnames other (List.mem_cons_of_mem _ hother)
      have hown : toText ⟨.here, [name]⟩ = name := by simp [toText, Anchor.toText, joinNames]
      rw [hown] at hrest
      refine .inr ⟨rfl, ?_⟩
      show Scan.wayText ("./".toList ++ name) rest = _
      rw [Scan.wayText_append _ (ne_nil_of_isName hname.1), hrest]
      rfl

/-- What a scan finds is at the path that leads to it from the root. -/
theorem ofText_wayText {root : Path} (h : root.WellFormed) {names : List Text}
    (hnames : ∀ name ∈ names, isName name = true ∧ '/' ∉ name) :
    ofText (Scan.wayText root.toText names) = root.append names := by
  by_cases hne : names = []
  · subst hne
    simpa [Scan.wayText, append] using ofText_toText h
  · have happend := h.append hnames
    rcases wayText_toText h hnames hne with hway | ⟨hanchor, hway⟩
    · rw [hway, ofText_toText happend]
    · have hnamesOf : namesOf ("./".toList ++ (root.append names).toText) =
          namesOf (root.append names).toText := namesOf_append_slash ['.'] _
      have hhere : Anchor.ofText ("./".toList ++ (root.append names).toText) = .here := rfl
      rw [hway, ofText, hhere, hnamesOf, namesOf_toText happend, ← hanchor]
      rfl

end Path

/-! ### What a scan comes by -/

namespace Scan

/-- Every directory on the way down from a directory can be listed, the first and the last too. -/
def Listable (fs : FileSystem) (directory : Text) (names : List Text) : Prop :=
  ∀ front, front <+: names → fs.listingFault? (wayText directory front) = none

/-- From a root, names lead down through real directories, each of which can be listed, to a file or
to a link that leads to one. -/
structure LeadsToFile (fs : FileSystem) (root : Path) (names : List Text) : Prop where
  way : ∃ listing entry, fs.entry root.toText = .ok (.directory listing) ∧
    listing.at? names = some entry ∧ entry.isDirectory = false
  listable : Listable fs root.toText names.dropLast
  file : ∃ content stamp, fs.entry (root.append names).toText = .ok (.file content stamp)

/-- A scan gets to the bottom if no directory that it comes by lies too deep. -/
def ToBottom (met : List Event) : Prop := ∀ directory, .tooDeep directory ∉ met

variable {fs : FileSystem} {kind : AgentKind} {recursive : Bool} {levels : Nat}
  {directory name text : Text} {names : List Text} {listing inner : Listing} {entry : Entry}
  {root : Path} {e : Event}

theorem ToBottom.of_subset {met more : List Event} (h : ToBottom more) (hsubset : met ⊆ more) :
    ToBottom met := fun directory hmem => h directory (hsubset hmem)

theorem toBottom_cons_iff {met : List Event} :
    ToBottom (e :: met) ↔ (∀ directory, e ≠ .tooDeep directory) ∧ ToBottom met := by
  simp only [ToBottom, List.mem_cons, not_or, forall_and, ne_eq, eq_comm]

/-! ### The entries of a directory -/

def filesOf (fs : FileSystem) (kind : AgentKind) (directory : Text) : Text × Entry → List Event
  | (name, .file _ _) => examine fs kind directory name
  | (name, .link _) =>
    if leadsToDirectory fs (entryText directory name) then [] else examine fs kind directory name
  | (_, .directory _) => []

/-- An entry of a directory that is no directory itself and does not lead to one. -/
def Plain (fs : FileSystem) (directory name : Text) : Entry → Prop
  | .file _ _ => True
  | .link _ => leadsToDirectory fs (entryText directory name) = false
  | .directory _ => False

theorem mem_filesOf_iff :
    e ∈ filesOf fs kind directory (name, entry) ↔
      Plain fs directory name entry ∧ e ∈ examine fs kind directory name := by
  cases entry with
  | file content stamp => simp [filesOf, Plain]
  | link target =>
    cases h : leadsToDirectory fs (entryText directory name) <;> simp [filesOf, Plain, h]
  | directory inner => simp [filesOf, Plain]

def belowOf (fs : FileSystem) (kind : AgentKind) (levels : Nat) (directory : Text) :
    Text × Entry → List Event
  | (name, .directory inner) => tree fs kind true levels (entryText directory name) inner
  | _ => []

theorem files_eq (listing : Listing) :
    files fs kind directory listing = listing.entries.flatMap (filesOf fs kind directory) := by
  induction listing with
  | empty => rfl
  | file name content stamp rest ih => exact congrArg (examine fs kind directory name ++ ·) ih
  | link name target rest ih => rw [files, ih]; rfl
  | directory name inner rest _ ih => exact ih

theorem below_eq (listing : Listing) : below fs kind levels directory listing =
    listing.entries.flatMap (belowOf fs kind levels directory) := by
  induction listing with
  | empty => rfl
  | file name content stamp rest ih => exact ih
  | link name target rest ih => exact ih
  | directory name inner rest _ ih =>
    rw [below_directory, ih]
    rfl

theorem tree_subset_below (h : listing.find? name = some (.directory inner)) :
    tree fs kind true levels (entryText directory name) inner ⊆
      below fs kind levels directory listing := by
  intro e he
  rw [below_eq]
  exact List.mem_flatMap.mpr ⟨_, Listing.mem_entries_of_find? h, he⟩

theorem plain_of_isDirectory (hentry : entry.isDirectory = false)
    (hlink : leadsToDirectory fs (entryText directory name) = false) :
    Plain fs directory name entry := by
  cases entry with
  | file content stamp => trivial
  | link target => exact hlink
  | directory inner => cases hentry

theorem examine_subset_files (h : listing.find? name = some entry)
    (plain : Plain fs directory name entry) :
    examine fs kind directory name ⊆ files fs kind directory listing := by
  intro e he
  rw [files_eq]
  exact List.mem_flatMap.mpr
    ⟨_, Listing.mem_entries_of_find? h, mem_filesOf_iff.mpr ⟨plain, he⟩⟩

/-! ### Down a listable way -/

theorem Listable.first (h : Listable fs directory names) : fs.listingFault? directory = none :=
  h [] List.nil_prefix

theorem Listable.below (h : Listable fs directory (name :: names)) :
    Listable fs (entryText directory name) names :=
  fun front hfront => h (name :: front) (List.cons_prefix_cons.mpr ⟨rfl, hfront⟩)

/-- A scan that gets to the bottom comes by the files of every directory that a listable way leads
to. -/
theorem files_subset_tree (hlistable : Listable fs directory names)
    (h : listing.at? names = some (.directory inner))
    (deep : ToBottom (tree fs kind true levels directory listing)) :
    files fs kind (wayText directory names) inner ⊆
      tree fs kind true levels directory listing := by
  induction names generalizing levels directory listing with
  | nil =>
    rw [Listing.at?_nil] at h
    cases h
    cases levels with
    | zero => exact absurd (List.mem_singleton_self _) (deep directory)
    | succ levels =>
      rw [tree_of_listed hlistable.first]
      exact List.subset_append_left _ _
  | cons name rest ih =>
    rw [Listing.at?_cons, Option.bind_eq_some_iff] at h
    obtain ⟨entry, hentry, hrest⟩ := h
    cases levels with
    | zero => exact absurd (List.mem_singleton_self _) (deep directory)
    | succ levels =>
      cases entry with
      | directory listed =>
        rw [tree_of_listed hlistable.first, if_pos rfl] at deep ⊢
        have hdown : tree fs kind true levels (entryText directory name) listed ⊆
            files fs kind directory listing ++ below fs kind levels directory listing :=
          List.Subset.trans (tree_subset_below hentry) (List.subset_append_right _ _)
        exact List.Subset.trans (ih hlistable.below hrest (deep.of_subset hdown)) hdown
      | _ => cases rest <;> cases hrest

theorem leadsToDirectory_iff :
    leadsToDirectory fs text = true ↔ ∃ inner, fs.entry text = .ok (.directory inner) := by
  unfold leadsToDirectory
  cases fs.entry text with
  | error fault => simp
  | ok entry => cases entry <;> simp [Entry.isDirectory, Entry.inner?]

theorem leadsToDirectory_wayText (h : root.WellFormed)
    (hnames : ∀ name ∈ names, Path.isName name = true ∧ '/' ∉ name) (hne : names ≠ [])
    {content : Bytes} {stamp : Int}
    (hfile : fs.entry (root.append names).toText = .ok (.file content stamp)) :
    leadsToDirectory fs (wayText root.toText names) = false := by
  rw [Bool.eq_false_iff, ne_eq, leadsToDirectory_iff]
  rintro ⟨inner, hdirectory⟩
  rcases Path.wayText_toText h hnames hne with hway | ⟨hanchor, hway⟩
  · rw [hway, hfile] at hdirectory
    cases hdirectory
  · have happend := h.append hnames
    have hstart := Path.head?_toText happend hanchor
    have hnonempty := Path.toText_ne_nil happend (by simp [hne])
    obtain ⟨location, hspot⟩ := FileSystem.entry_eq_ok_iff.mp hdirectory
    rw [hway] at hspot
    have hsame := FileSystem.entry_eq_ok_iff.mpr
      ⟨location, FileSystem.spot_dot hnonempty hstart hspot⟩
    rw [hfile] at hsame
    cases hsame

/-- A scan that gets to the bottom meets every file that counts and to which a listable way through
real directories leads. -/
theorem mem_events_of_leadsToFile (h : root.WellFormed)
    (hnames : ∀ name ∈ names, Path.isName name = true ∧ '/' ∉ name)
    (accepted : kind.accepts (root.append names) = true) (leads : LeadsToFile fs root names)
    {met : List Event} (hmet : events fs kind true root = .ok met) (deep : ToBottom met) :
    ∃ stamp, .file (root.append names) stamp ∈ met := by
  obtain ⟨listing, entry, hroot, hentry, hdirectory⟩ := leads.way
  obtain ⟨content, stamp, hfile⟩ := leads.file
  obtain rfl := Except.ok.inj (hmet.symm.trans (events_of_directory hroot))
  rcases List.eq_nil_or_concat names with rfl | ⟨front, last, rfl⟩
  · rw [Listing.at?_nil] at hentry
    cases hentry
    cases hdirectory
  rw [List.concat_eq_append] at *
  have hfront : ∃ inner, listing.at? front = some (.directory inner) := by
    rw [Listing.at?_append, Option.bind_eq_some_iff] at hentry
    obtain ⟨above, habove, hbelow⟩ := hentry
    cases above with
    | directory inner => exact ⟨inner, habove⟩
    | _ => cases hbelow
  obtain ⟨inner, hinner⟩ := hfront
  rw [Listing.at?_concat hinner] at hentry
  have hlistable : Listable fs root.toText front := by
    simpa using leads.listable
  have hlink : leadsToDirectory fs (entryText (wayText root.toText front) last) = false := by
    have hway := leadsToDirectory_wayText h hnames (by simp) hfile
    rwa [wayText_concat] at hway
  have hpath : (Path.ofText (wayText root.toText front)).child last =
      root.append (front ++ [last]) := by
    rw [Path.ofText_wayText h fun name hname => hnames name (List.mem_append_left _ hname),
      Path.child_append]
  have hexamine : examine fs kind (wayText root.toText front) last =
      [.file (root.append (front ++ [last])) stamp] := by
    simp [examine, hpath, accepted, FileSystem.stamp, hfile, bind, Except.bind, pure, Except.pure]
  refine ⟨stamp, files_subset_tree hlistable hinner deep ?_⟩
  exact examine_subset_files hentry (plain_of_isDirectory hdirectory hlink)
    (hexamine ▸ List.mem_singleton_self _)

end Scan

/-! ### Down to the bottom -/

/-- How many directories of a listing are within each other at most. -/
def Listing.depth : Listing → Nat
  | .empty => 0
  | .file _ _ _ rest => rest.depth
  | .link _ _ rest => rest.depth
  | .directory _ inner rest => max (inner.depth + 1) rest.depth

namespace Scan

variable {fs : FileSystem} {kind : AgentKind} {recursive : Bool} {levels : Nat}
  {directory name : Text} {listing : Listing} {root : Path}

theorem toBottom_examine : ToBottom (examine fs kind directory name) := by
  intro other h
  unfold examine at h
  simp only at h
  split at h
  · split at h <;> cases List.mem_singleton.mp h
  · cases h

theorem toBottom_files : ToBottom (files fs kind directory listing) := by
  intro other h
  rw [files_eq] at h
  obtain ⟨⟨name, entry⟩, _, hmem⟩ := List.mem_flatMap.mp h
  exact toBottom_examine other (mem_filesOf_iff.mp hmem).2

theorem toBottom_tree (h : ToBottom (below fs kind levels directory listing)) :
    ToBottom (tree fs kind recursive (levels + 1) directory listing) := by
  intro other hmem
  cases hlisted : fs.listingFault? directory with
  | some fault =>
    rw [tree_of_refused hlisted] at hmem
    cases List.mem_singleton.mp hmem
  | none =>
    rw [tree_of_listed hlisted] at hmem
    refine (List.mem_append.mp hmem).elim (toBottom_files other) fun hbelow => ?_
    split at hbelow
    · exact h other hbelow
    · cases hbelow

theorem toBottom_below (h : listing.depth ≤ levels) :
    ToBottom (below fs kind levels directory listing) := by
  induction listing generalizing levels directory with
  | empty => exact fun _ hmem => by cases hmem
  | file name content stamp rest ih => exact ih h
  | link name target rest ih => exact ih h
  | directory name inner rest ihinner ih =>
    obtain ⟨hinner, hrest⟩ := Nat.max_le.mp h
    cases levels with
    | zero => cases hinner
    | succ levels =>
      rw [below_directory]
      exact fun other hmem => (List.mem_append.mp hmem).elim
        (toBottom_tree (ihinner (Nat.le_of_succ_le_succ hinner)) other) (ih hrest other)

/-- The directories at a root are not nested too deeply for a scan. -/
def WithinDepth (fs : FileSystem) (root : Path) : Prop :=
  ∀ listing, fs.entry root.toText = .ok (.directory listing) → listing.depth < nestingLimit

theorem WithinDepth.toBottom (h : WithinDepth fs root) {met : List Event}
    (hmet : events fs kind recursive root = .ok met) : ToBottom met := by
  rcases events_eq_ok hmet with ⟨rfl, _⟩ | ⟨listing, hentry, rfl⟩
  · exact nofun
  · exact toBottom_tree (toBottom_below (Nat.le_of_lt_succ (h listing hentry)))

end Scan

namespace Agent

variable {a : Agent} {fs : FileSystem} {hook : Hook} {names : List Text} {met : List Scan.Event}

/-- Reporting comes to the end of what a scan meets only if the scan gets to the bottom, and then
every failed access has been reported. -/
theorem report_eq_none {reports : List Files.Fault} (h : report hook met = (reports, none)) :
    Scan.ToBottom met ∧ reports = met.filterMap Scan.Event.fault? := by
  induction met generalizing reports with
  | nil =>
    cases h
    exact ⟨nofun, rfl⟩
  | cons e rest ih =>
    rw [Scan.toBottom_cons_iff]
    cases e with
    | file path stamp =>
      obtain ⟨deep, hreports⟩ := ih h
      exact ⟨⟨nofun, deep⟩, hreports⟩
    | tooDeep directory => cases h
    | unread path fault | unlisted fault =>
      rw [report] at h
      cases hhook : hook fault with
      | some text =>
        rw [hhook] at h
        cases h
      | none =>
        rw [hhook] at h
        cases hrest : report hook rest with
        | mk more failure =>
          rw [hrest] at h
          cases h
          obtain ⟨deep, hmore⟩ := ih hrest
          exact ⟨⟨nofun, deep⟩, congrArg (fault :: ·) hmore⟩

/-- A hook that does not fail is told of all failed accesses, up to a directory that lies too
deep. -/
theorem report_calm (met : List Scan.Event) :
    (report .calm met).2 = none ∧ Scan.ToBottom met ∨
      (report .calm met).2 = some .tooDeep ∧ ¬ Scan.ToBottom met := by
  induction met with
  | nil => exact .inl ⟨rfl, nofun⟩
  | cons e rest ih =>
    rw [Scan.toBottom_cons_iff]
    cases e with
    | tooDeep directory => exact .inr ⟨rfl, fun h => h.1 directory rfl⟩
    | _ => simpa [report, Hook.calm] using ih

/-- A scan that completes gets to the bottom, and has reported all failed accesses that it has
met. -/
theorem complete_of_scan {s : Snapshot} (hscan : (a.scan fs hook).outcome = .ok s)
    (hmet : Scan.events fs a.kind a.recursive a.root = .ok met) :
    Scan.ToBottom met ∧ (a.scan fs hook).reports = met.filterMap Scan.Event.fault? := by
  simp only [scan, hmet] at hscan ⊢
  cases hreport : report hook met with
  | mk reports failure =>
    rw [hreport] at hscan
    cases failure with
    | some fault => cases hscan
    | none => exact report_eq_none hreport

/-- With a hook that does not fail, a scan completes if it gets to the bottom, and otherwise it
fails because of that. -/
theorem scan_calm (h : Scan.events fs a.kind a.recursive a.root = .ok met) :
    (a.scan fs .calm).outcome = .ok (Scan.snapshotOf met) ∧ Scan.ToBottom met ∨
      (a.scan fs .calm).outcome = .error .tooDeep ∧ ¬ Scan.ToBottom met := by
  have hends := report_calm met
  simp only [scan, h]
  cases hreport : report .calm met with
  | mk reports failure =>
    rw [hreport] at hends
    rcases hends with ⟨rfl, deep⟩ | ⟨rfl, shallow⟩
    · exact .inl ⟨rfl, deep⟩
    · exact .inr ⟨rfl, shallow⟩

theorem scan_calm_of_withinDepth {listing : Listing}
    (h : fs.entry a.root.toText = .ok (.directory listing)) (within : Scan.WithinDepth fs a.root) :
    ∃ s, (a.scan fs .calm).outcome = .ok s := by
  have hmet : Scan.events fs a.kind a.recursive a.root = .ok _ := Scan.events_of_directory h
  rcases scan_calm hmet with ⟨hscan, _⟩ | ⟨_, hnot⟩
  · exact ⟨_, hscan⟩
  · exact absurd (within.toBottom hmet) hnot

/-- A scan over a whole tree that completes finds every file that counts and that a listable way
through real directories leads to. -/
theorem mem_files_scan (recursive : a.recursive = true) (h : a.root.WellFormed)
    (hnames : ∀ name ∈ names, Path.isName name = true ∧ '/' ∉ name)
    (accepted : a.kind.accepts (a.root.append names) = true)
    (leads : Scan.LeadsToFile fs a.root names) {s : Snapshot}
    (hscan : (a.scan fs hook).outcome = .ok s) : a.root.append names ∈ s.files := by
  obtain ⟨met, hmet, rfl⟩ := scan_eq_ok hscan
  have deep := (complete_of_scan hscan hmet).1
  rw [recursive] at hmet
  exact Scan.mem_files_snapshotOf.mpr
    (Scan.mem_events_of_leadsToFile h hnames accepted leads hmet deep)

theorem scan_of_reload_eq_ok {changed : Bool} (h : (a.reload fs hook).outcome = .ok changed) :
    (a.scan fs hook).outcome = .ok (a.reload fs hook).agent.snapshot := by
  rcases a.reload_cases fs hook with ⟨_, _, hout, _⟩ | ⟨hscan, _, hsame⟩ | ⟨s, hscan, _, _, hnext⟩
  · cases hout.symm.trans h
  · rw [hscan, hsame]
  · rw [hscan, hnext]

end Agent
end StepLocator
