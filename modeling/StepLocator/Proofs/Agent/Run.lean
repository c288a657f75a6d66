import Mathlib.Data.List.Induction
import StepLocator.Proofs.Agent.Reload
import StepLocator.Proofs.Agent.Snapshot

/-!
Runs of an agent. A run is a list of visits; on each of them the files are as they are then, and a
hook of its own is told of failures. What an agent finds on a visit does not depend on the visits
before, so a run has a list of snapshots, those of the scans that complete. The agent holds the last
of them and counts how often one differs from the one before it.
-/
namespace StepLocator

/-- How often the snapshots of a list differ from the one before them. -/
def Snapshot.changes (before : Snapshot) : List Snapshot → Nat
  | [] => 0
  | s :: rest => (if s = before then 0 else 1) + s.changes rest

theorem Snapshot.changes_concat (before : Snapshot) (ss : List Snapshot) (s : Snapshot) :
    before.changes (ss ++ [s]) =
      before.changes ss + if s = ss.getLastD before then 0 else 1 := by
  induction ss generalizing before with
  | nil => simp [changes]
  | cons t rest ih =>
    rw [List.cons_append, changes, changes, ih, List.getLastD_cons]
    omega

namespace Agent

structure Visit where
  fs : FileSystem
  hook : Hook

/-- What an agent finds on a visit, if its scan completes. -/
def found? (a : Agent) (v : Visit) : Option Snapshot := (a.scan v.fs v.hook).outcome.toOption

def after (a : Agent) : List Visit → Agent
  | [] => a
  | v :: rest => (a.reload v.fs v.hook).agent.after rest

def scans (a : Agent) (vs : List Visit) : List Snapshot := vs.filterMap a.found?

variable {a b : Agent} {v : Visit} {vs : List Visit}

theorem after_append (a : Agent) (vs more : List Visit) :
    a.after (vs ++ more) = (a.after vs).after more := by
  induction vs generalizing a with
  | nil => rfl
  | cons v rest ih => exact ih _

theorem found?_eq_none_iff :
    a.found? v = none ↔ ∃ fault, (a.scan v.fs v.hook).outcome = .error fault := by
  unfold found?
  cases (a.scan v.fs v.hook).outcome <;> simp [Except.toOption]

theorem found?_eq_some_iff {s : Snapshot} :
    a.found? v = some s ↔ (a.scan v.fs v.hook).outcome = .ok s := by
  unfold found?
  cases (a.scan v.fs v.hook).outcome <;> simp [Except.toOption]

theorem scan_congr (hkind : a.kind = b.kind) (hroot : a.root = b.root)
    (hrecursive : a.recursive = b.recursive) (fs : FileSystem) (hook : Hook) :
    a.scan fs hook = b.scan fs hook := by
  simp only [scan, hkind, hroot, hrecursive]

/-- The snapshot of a scan that completes is made of what the scan meets, whatever the hook. -/
theorem scan_eq_ok {fs : FileSystem} {hook : Hook} {s : Snapshot}
    (h : (a.scan fs hook).outcome = .ok s) :
    ∃ events, Scan.events fs a.kind a.recursive a.root = .ok events ∧
      Scan.snapshotOf events = s := by
  unfold scan at h
  split at h
  · cases h
  · next events hevents =>
    split at h
    · cases h
    · exact ⟨events, hevents, Except.ok.inj h⟩

theorem scan_unique {fs : FileSystem} {hook other : Hook} {s t : Snapshot}
    (hs : (a.scan fs hook).outcome = .ok s) (ht : (a.scan fs other).outcome = .ok t) : s = t := by
  obtain ⟨events, hevents, rfl⟩ := scan_eq_ok hs
  obtain ⟨same, hsame, rfl⟩ := scan_eq_ok ht
  rw [Except.ok.inj (hevents.symm.trans hsame)]

theorem scan_sorted {fs : FileSystem} {hook : Hook} {s : Snapshot}
    (h : (a.scan fs hook).outcome = .ok s) : s.Sorted := by
  obtain ⟨events, _, rfl⟩ := scan_eq_ok h
  exact Scan.sorted_snapshotOf events

/-! ### The agent under reloads -/

theorem scan_reload (a : Agent) (v : Visit) (fs : FileSystem) (hook : Hook) :
    (a.reload v.fs v.hook).agent.scan fs hook = a.scan fs hook :=
  have hkeeps := a.reload_keeps v.fs v.hook
  scan_congr hkeeps.2.1 hkeeps.1 hkeeps.2.2 fs hook

theorem scan_after (a : Agent) (vs : List Visit) (fs : FileSystem) (hook : Hook) :
    (a.after vs).scan fs hook = a.scan fs hook := by
  induction vs generalizing a with
  | nil => rfl
  | cons v rest ih => exact (ih _).trans (scan_reload a v fs hook)

/-- A reload fails exactly if its scan does, and then it leaves the agent as it was. -/
theorem reload_eq_error_iff {fault : Fault} :
    (a.reload v.fs v.hook).outcome = .error fault ↔
      (a.scan v.fs v.hook).outcome = .error fault := by
  rcases a.reload_cases v.fs v.hook with ⟨_, hscan, hout, _⟩ | ⟨hscan, hout, _⟩ |
    ⟨_, hscan, _, hout, _⟩
  all_goals simp [hscan, hout]

theorem reload_of_scan_eq_error {fault : Fault}
    (h : (a.scan v.fs v.hook).outcome = .error fault) : (a.reload v.fs v.hook).agent = a := by
  rcases a.reload_cases v.fs v.hook with ⟨_, _, _, hsame⟩ | ⟨hscan, _⟩ | ⟨_, hscan, _⟩
  · exact hsame
  · cases hscan.symm.trans h
  · cases hscan.symm.trans h

/-- A reload whose scan completes takes its snapshot over, and counts it if it is another one. -/
theorem reload_of_scan_eq_ok {s : Snapshot} (h : (a.scan v.fs v.hook).outcome = .ok s) :
    (a.reload v.fs v.hook).outcome = .ok (decide (s ≠ a.snapshot)) ∧
      (a.reload v.fs v.hook).agent.snapshot = s ∧
      (a.reload v.fs v.hook).agent.generation =
        a.generation + if s = a.snapshot then 0 else 1 := by
  rcases a.reload_cases v.fs v.hook with ⟨_, hscan, _⟩ | ⟨hscan, hout, hsame⟩ |
    ⟨t, hscan, hne, hout, hnext⟩
  · cases hscan.symm.trans h
  · obtain rfl : a.snapshot = s := Except.ok.inj (hscan.symm.trans h)
    simp [hout, hsame]
  · obtain rfl : t = s := Except.ok.inj (hscan.symm.trans h)
    simp [hout, hnext, hne]

/-- What a run leaves of an agent that had not scanned before: it has counted the changes among the
snapshots of the run and holds the last of them. -/
structure Follows (a : Agent) (vs : List Visit) : Prop where
  generation : a.generation = Snapshot.changes [] (a.scans vs)
  snapshot : a.snapshot = (a.scans vs).getLastD []

theorem Follows.fresh (kind : AgentKind) (root : Path) (recursive : Bool) :
    (fresh kind root recursive).Follows [] := ⟨rfl, rfl⟩

theorem Follows.reload (h : a.Follows vs) (v : Visit) :
    (a.reload v.fs v.hook).agent.Follows (vs ++ [v]) := by
  -- the agent scans after the reload as it did before, so the run has at most one snapshot more
  have hscans : (a.reload v.fs v.hook).agent.scans (vs ++ [v]) =
      a.scans vs ++ (a.found? v).toList := by
    have hfound : (a.reload v.fs v.hook).agent.found? = a.found? :=
      funext fun w => by rw [found?, scan_reload, found?]
    rw [scans, scans, hfound, List.filterMap_append]
    cases hv : a.found? v <;> simp [hv]
  cases hv : a.found? v with
  | none =>
    obtain ⟨fault, hscan⟩ := found?_eq_none_iff.mp hv
    have hsame := reload_of_scan_eq_error hscan
    rw [hv, Option.toList_none, List.append_nil] at hscans
    exact ⟨by rw [hscans, hsame, h.generation], by rw [hscans, hsame, h.snapshot]⟩
  | some s =>
    obtain ⟨_, hsnapshot, hgeneration⟩ := reload_of_scan_eq_ok (found?_eq_some_iff.mp hv)
    rw [hv, Option.toList_some] at hscans
    refine ⟨?_, ?_⟩
    · rw [hscans, Snapshot.changes_concat, hgeneration, h.generation, ← h.snapshot]
    · rw [hscans, hsnapshot, List.getLastD_concat]

theorem Follows.after (h : a.Follows vs) (more : List Visit) :
    (a.after more).Follows (vs ++ more) := by
  induction more generalizing a vs with
  | nil => simpa [Agent.after] using h
  | cons v rest ih =>
    have hrest := ih (h.reload v)
    rw [List.append_assoc, List.singleton_append] at hrest
    exact hrest

/-! ### Generations -/

theorem generation_le_after (a : Agent) (vs : List Visit) :
    a.generation ≤ (a.after vs).generation := by
  induction vs generalizing a with
  | nil => exact le_rfl
  | cons v rest ih =>
    refine le_trans ?_ (ih _)
    rcases a.reload_cases v.fs v.hook with ⟨_, _, _, h⟩ | ⟨_, _, h⟩ | ⟨_, _, _, _, h⟩
    all_goals simp [h]

theorem after_eq_of_generation (h : (a.after vs).generation = a.generation) : a.after vs = a := by
  induction vs generalizing a with
  | nil => rfl
  | cons v rest ih =>
    have hrest := generation_le_after (a.reload v.fs v.hook).agent rest
    rcases a.reload_cases v.fs v.hook with ⟨_, _, _, hsame⟩ | ⟨_, _, hsame⟩ | ⟨_, _, _, _, hnext⟩
    · rw [Agent.after, hsame] at h ⊢
      exact ih h
    · rw [Agent.after, hsame] at h ⊢
      exact ih h
    · -- a generation that has begun is never taken back
      rw [Agent.after] at h
      rw [h, hnext] at hrest
      exact absurd hrest (Nat.not_succ_le_self _)

/-! ### Starting -/

variable {kind : AgentKind} {root : Path} {flat : Bool} {fs : FileSystem} {hook : Hook}

/-- Whether an agent looks into the directories below its root. -/
def looksBelow (kind : AgentKind) (flat : Bool) : Bool := kind == .config || !flat

/-- Starting is the first reload: an agent starts exactly if its first scan completes. -/
theorem start_eq_ok_iff {other : Agent} :
    (start kind root flat fs hook).outcome = .ok other ↔
      (∃ s, ((fresh kind root (looksBelow kind flat)).scan fs hook).outcome = .ok s) ∧
        ((fresh kind root (looksBelow kind flat)).reload fs hook).agent = other := by
  simp only [start, looksBelow]
  rcases (fresh kind root (kind == .config || !flat)).reload_cases fs hook with
    ⟨fault, hscan, hout, _⟩ | ⟨hscan, hout, _⟩ | ⟨s, hscan, _, hout, _⟩
  all_goals simp [hscan, hout, Except.map]

theorem snapshot_of_start {other : Agent}
    (h : (start kind root flat fs hook).outcome = .ok other) :
    ((fresh kind root (looksBelow kind flat)).scan fs hook).outcome = .ok other.snapshot := by
  obtain ⟨⟨s, hscan⟩, rfl⟩ := start_eq_ok_iff.mp h
  have hreload := reload_of_scan_eq_ok (v := ⟨fs, hook⟩) hscan
  rw [hreload.2.1, hscan]

theorem scan_of_start {other : Agent} (h : (start kind root flat fs hook).outcome = .ok other)
    (files : FileSystem) (told : Hook) :
    other.scan files told = (fresh kind root (looksBelow kind flat)).scan files told := by
  obtain ⟨_, rfl⟩ := start_eq_ok_iff.mp h
  exact scan_reload _ ⟨fs, hook⟩ files told

theorem exists_last_found (h : a.scans vs ≠ []) :
    ∃ before last since, vs = before ++ last :: since ∧ (∀ v ∈ since, a.found? v = none) ∧
      a.found? last = some ((a.scans vs).getLastD []) := by
  induction vs using List.reverseRecOn with
  | nil => exact absurd rfl h
  | append_singleton vs v ih =>
    cases hv : a.found? v with
    | some s => exact ⟨vs, v, [], rfl, by simp, by simp [scans, hv]⟩
    | none =>
      have hscans : a.scans (vs ++ [v]) = a.scans vs := by simp [scans, hv]
      rw [hscans] at h ⊢
      obtain ⟨before, last, since, rfl, hsince, hlast⟩ := ih h
      refine ⟨before, last, since ++ [v], by simp, fun w hw => ?_, hlast⟩
      rcases List.mem_append.mp hw with hw | hw
      · exact hsince w hw
      · rw [List.mem_singleton.mp hw, hv]

theorem Follows.of_start {v : Visit} {started : Agent}
    (h : (start kind root flat v.fs v.hook).outcome = .ok started) : started.Follows [v] := by
  obtain ⟨_, rfl⟩ := start_eq_ok_iff.mp h
  exact (Follows.fresh kind root (looksBelow kind flat)).reload v

/-- The life of an agent. After any run it has counted how often the snapshots of the completed
scans differ from the one before, the first from the empty one; it holds the last of them, with its
files in order. A reload takes over what its scan finds and tells whether that is another snapshot,
in which case a new generation begins; one that fails changes nothing. So from one generation to the
same one nothing changes, and the snapshot is that of an agent started on the last files seen. -/
theorem agent_after_run {first : Visit} {started : Agent}
    (h : (start kind root flat first.fs first.hook).outcome = .ok started) (vs : List Visit) :
    let a := started.after vs
    let scans := a.scans (first :: vs)
    a.generation = Snapshot.changes [] scans ∧
    scans.getLast? = some a.snapshot ∧
    a.files.Pairwise Snapshot.Before ∧
    (∀ v : Visit,
      let next := a.reload v.fs v.hook
      (∀ fault, next.outcome = .error fault ↔ (a.scan v.fs v.hook).outcome = .error fault) ∧
      (∀ fault, next.outcome = .error fault → next.agent = a) ∧
      ∀ s, (a.scan v.fs v.hook).outcome = .ok s →
        next.outcome = .ok (decide (s ≠ a.snapshot)) ∧
        (s ≠ a.snapshot ↔ ∃ path, s.stamp? path ≠ a.snapshot.stamp? path) ∧
        next.agent.snapshot = s ∧
        next.agent.generation = a.generation + if s = a.snapshot then 0 else 1) ∧
    (∀ more between, between <+: more → (a.after more).generation = a.generation →
      (a.after between).snapshot = a.snapshot) ∧
    ∃ before last since, first :: vs = before ++ last :: since ∧
      (∀ v ∈ since, a.found? v = none) ∧ a.found? last = some a.snapshot ∧
      (∃ events, Scan.events last.fs kind (looksBelow kind flat) root = .ok events ∧
        ∀ path, path ∈ a.files ↔ ∃ stamp, .file path stamp ∈ events) ∧
      (∃ other, (start kind root flat last.fs last.hook).outcome = .ok other) ∧
      ∀ hook other, (start kind root flat last.fs hook).outcome = .ok other →
        other.snapshot = a.snapshot := by
  intro a scans
  have hfollows : a.Follows (first :: vs) := (Follows.of_start h).after vs
  have hscans (files : FileSystem) (hook : Hook) :
      a.scan files hook = (fresh kind root (looksBelow kind flat)).scan files hook :=
    (scan_after started vs files hook).trans (scan_of_start h files hook)
  have hfirst : a.found? first = some started.snapshot :=
    found?_eq_some_iff.mpr (by rw [hscans, snapshot_of_start h])
  have hne : scans ≠ [] := by
    simp [scans, Agent.scans, hfirst]
  obtain ⟨before, last, since, hsplit, hsince, hlast⟩ := exists_last_found hne
  rw [← hfollows.snapshot] at hlast
  have hscan := found?_eq_some_iff.mp hlast
  have hfresh := hscans last.fs last.hook ▸ hscan
  refine ⟨hfollows.generation, ?_, scan_sorted hscan, ?_, ?_, before, last, since, hsplit, hsince,
    hlast, ?_, ⟨_, start_eq_ok_iff.mpr ⟨⟨_, hfresh⟩, rfl⟩⟩, ?_⟩
  · obtain ⟨s, hs⟩ := Option.isSome_iff_exists.mp (List.getLast?_isSome.mpr hne)
    rw [hfollows.snapshot, List.getLastD_eq_getLast?, hs, Option.getD_some]
  · intro v next
    refine ⟨fun fault => reload_eq_error_iff,
      fun fault hfault => reload_of_scan_eq_error (reload_eq_error_iff.mp hfault), fun s hs => ?_⟩
    obtain ⟨hout, hsnapshot, hgeneration⟩ := reload_of_scan_eq_ok hs
    exact ⟨hout, (scan_sorted hs).ne_iff (scan_sorted hscan), hsnapshot, hgeneration⟩
  · rintro more between ⟨later, rfl⟩ hsame
    -- the generation in between lies between two equal ones
    rw [after_append] at hsame
    have hle := generation_le_after (a.after between) later
    rw [after_eq_of_generation (le_antisymm (hsame ▸ hle) (generation_le_after a between))]
  · obtain ⟨events, hevents, hsnapshot⟩ := scan_eq_ok hfresh
    refine ⟨events, hevents, fun path => ?_⟩
    rw [files, ← hsnapshot, Scan.mem_files_snapshotOf]
  · intro hook other hother
    exact scan_unique (snapshot_of_start hother) hfresh

/-- Over one file that changes, cannot be looked for and changes back, an agent ends with the
snapshot that it began with, in its third generation. -/
theorem agent_after_run_of_change_and_back :
    let directory (stamp : Int) : FileSystem :=
      .ofListing (.directory "c" (.file "a.yaml" [] stamp .empty) .empty)
    let denied : FileSystem := { directory 3 with denied := ["/c"] }
    let started : Agent := ⟨.config, Path.ofText "/c".toList, true,
      [(Path.ofText "/c/a.yaml".toList, 1)], 1⟩
    let vs : List Visit :=
      [⟨directory 2, .calm⟩, ⟨denied, fun fault => some fault.message⟩, ⟨directory 1, .calm⟩]
    (start .config (Path.ofText "/c".toList) false (directory 1) .calm).outcome = .ok started ∧
      (started.after vs).generation = 3 ∧ (started.after vs).snapshot = started.snapshot := by
  intro directory denied started vs
  have hstart : (start .config (Path.ofText "/c".toList) false (directory 1) .calm).outcome =
      .ok started := by decide +kernel
  have hscans : (started.after vs).scans (⟨directory 1, .calm⟩ :: vs) =
      [[(Path.ofText "/c/a.yaml".toList, 1)], [(Path.ofText "/c/a.yaml".toList, 2)],
        [(Path.ofText "/c/a.yaml".toList, 1)]] := by decide +kernel
  have hbegin : (start .config (Path.ofText "/c".toList) false
      (Visit.mk (directory 1) .calm).fs (Visit.mk (directory 1) .calm).hook).outcome =
        .ok started := hstart
  obtain ⟨hgeneration, hlast, _⟩ := agent_after_run hbegin vs
  rw [hscans] at hgeneration hlast
  exact ⟨hstart, hgeneration, (Option.some.inj hlast).symm⟩

end Agent
end StepLocator
