import StepLocator.Proofs.Agent.Coverage
import StepLocator.Proofs.Server.Generations

/-!
What news of changed files leave of the agents. A tree can be scanned unless its root leads over a
name that is too long or over a directory that may not be searched, or it goes down too deep; a root
that is missing, no directory or not to be listed is no obstacle. The agent over the configuration
is always brought up to date. The one over the registry is brought up to date too, unless the tree
of the configuration cannot be scanned, and then it stays behind.
-/
namespace StepLocator

namespace Scan

variable {fs : FileSystem} {kind : AgentKind} {recursive : Bool} {root : Path}

theorem entry_of_isDirectory {text : Text} (h : fs.isDirectory text = .ok true) :
    ∃ listing, fs.entry text = .ok (.directory listing) := by
  unfold FileSystem.isDirectory at h
  split at h
  · rename_i entry hentry
    cases entry with
    | directory listing => exact ⟨listing, hentry⟩
    | _ => cases h
  · cases h
  · split at h <;> cases h

theorem events_cases (fs : FileSystem) (kind : AgentKind) (recursive : Bool) (root : Path) :
    (∃ met, events fs kind recursive root = .ok met ∧ ∃ b, fs.isDirectory root.toText = .ok b) ∨
      ∃ fault, events fs kind recursive root = .error fault ∧
        fs.isDirectory root.toText = .error fault := by
  cases hroot : fs.isDirectory root.toText with
  | error fault => exact .inr ⟨fault, by simp [events, hroot, bind, Except.bind], rfl⟩
  | ok b =>
    cases b with
    | false => exact .inl ⟨[], events_of_no_directory hroot, false, rfl⟩
    | true =>
      obtain ⟨listing, hentry⟩ := entry_of_isDirectory hroot
      exact .inl ⟨_, events_of_directory hentry, true, rfl⟩

end Scan

namespace Agent

variable {a : Agent} {fs : FileSystem} {fault : Fault}

def Scannable (a : Agent) (fs : FileSystem) : Prop := ∃ s, a.found? ⟨fs, .calm⟩ = some s

/-- Why the tree of an agent cannot be scanned: the way to its root is refused, or in it lies a
directory too deep to be entered. -/
inductive Obstructed (a : Agent) (fs : FileSystem) : Fault → Prop
  | root {cause : Files.Cause}
    (refused : fs.isDirectory a.root.toText = .error (.refused cause a.root.toText))
    (cause_eq : cause = .nameTooLong ∨ cause = .denied) :
    Obstructed a fs (.root (.refused cause a.root.toText))
  | tooDeep {names : List Text} {inner : Listing} (reached : a.Reaches fs names inner)
    (deep : Scan.nestingLimit ≤ names.length) : Obstructed a fs .tooDeep

/-- An agent holds what a scan of its tree finds now, if the tree can be scanned. -/
def IsCurrent (a : Agent) (fs : FileSystem) : Prop :=
  ∀ s, a.found? ⟨fs, .calm⟩ = some s → a.snapshot = s

theorem scannable_iff : a.Scannable fs ↔ ∃ s, (a.scan fs .calm).outcome = .ok s :=
  exists_congr fun _ => found?_eq_some_iff

theorem not_scannable_iff :
    ¬ a.Scannable fs ↔ ∃ fault, (a.scan fs .calm).outcome = .error fault := by
  rw [scannable_iff]
  cases (a.scan fs .calm).outcome <;> simp

/-- The tree of an agent cannot be scanned for a reason exactly if it is obstructed for it. -/
theorem scan_calm_eq_error_iff (proper : fs.root.WellFormed) :
    (a.scan fs .calm).outcome = .error fault ↔ a.Obstructed fs fault := by
  rcases Scan.events_cases fs a.kind a.recursive a.root with ⟨met, hmet, b, hroot⟩ |
    ⟨refusal, herror, hroot⟩
  · have hbottom := toBottom_iff proper hmet
    constructor
    · intro hfault
      rcases scan_calm hmet with ⟨hscan, _⟩ | ⟨hscan, hdeep⟩
      · cases hscan.symm.trans hfault
      · cases hscan.symm.trans hfault
        simp only [hbottom, Shallow, not_forall, not_lt] at hdeep
        obtain ⟨names, inner, hreached, hlength⟩ := hdeep
        exact .tooDeep hreached hlength
    · intro hobstructed
      cases hobstructed with
      | root refused => cases hroot.symm.trans refused
      | tooDeep reached deep =>
        rcases scan_calm hmet with ⟨_, hdeep⟩ | ⟨hscan, _⟩
        · exact absurd (hbottom.mp hdeep _ _ reached) (Nat.not_lt.mpr deep)
        · exact hscan
  · obtain ⟨cause, rfl, hcause⟩ := FileSystem.isDirectory_eq_error hroot
    have hscan : (a.scan fs .calm).outcome = .error (.root (.refused cause a.root.toText)) := by
      simp [scan, herror]
    constructor
    · intro hfault
      cases hscan.symm.trans hfault
      exact .root hroot hcause
    · intro hobstructed
      cases hobstructed with
      | root refused =>
        cases hroot.symm.trans refused
        exact hscan
      | tooDeep reached =>
        obtain ⟨listing, hentry, _⟩ := reached
        cases herror.symm.trans (Scan.events_of_directory hentry)

theorem scannable_iff_of_proper (proper : fs.root.WellFormed) :
    a.Scannable fs ↔ ∀ fault, ¬ a.Obstructed fs fault := by
  simp only [← scan_calm_eq_error_iff proper, ← not_exists, ← not_scannable_iff, not_not]

theorem reload_calm_eq_error (h : (a.reload fs .calm).outcome = .error fault) :
    (a.scan fs .calm).outcome = .error fault ∧ (a.reload fs .calm).agent = a := by
  have hscan := (reload_eq_error_iff (v := ⟨fs, .calm⟩)).mp h
  exact ⟨hscan, reload_of_scan_eq_error (v := ⟨fs, .calm⟩) hscan⟩

theorem scannable_of_reload_eq_ok {changed : Bool} (h : (a.reload fs .calm).outcome = .ok changed) :
    a.Scannable fs := exists_found?_of_reload (v := ⟨fs, .calm⟩) h

theorem isCurrent_reload (a : Agent) (fs : FileSystem) :
    (a.reload fs .calm).agent.IsCurrent fs := by
  intro s hs
  have hsame : (a.reload fs .calm).agent.found? = a.found? := a.found?_after [⟨fs, .calm⟩]
  rw [hsame] at hs
  exact (reload_of_scan_eq_ok (v := ⟨fs, .calm⟩) (found?_eq_some_iff.mp hs)).2.1

theorem isCurrent_of_not_scannable (h : ¬ a.Scannable fs) : a.IsCurrent fs :=
  fun s hs => absurd ⟨s, hs⟩ h

theorem generation_reload_eq (a : Agent) (fs : FileSystem) :
    (a.reload fs .calm).agent.generation = a.generation +
      if (a.reload fs .calm).agent.snapshot = a.snapshot then 0 else 1 := by
  rcases a.reload_cases fs .calm with ⟨_, _, _, h⟩ | ⟨_, _, h⟩ | ⟨s, _, hne, _, h⟩
  · simp [h]
  · simp [h]
  · simp [h, hne]

end Agent

namespace Server

variable {s : Session} {fs : FileSystem}

theorem forall_kind {P : AgentKind → Prop} (config : P .config) (registry : P .registry)
    (kind : AgentKind) : P kind := by
  cases kind with
  | config => exact config
  | registry => exact registry

/-- News of changed files with a session: the configuration cannot be scanned and nothing changes,
or it is reloaded and then the registry is. -/
theorem filesChanged_cases (s : Session) (fs : FileSystem) (count : Nat) :
    let done := filesChanged ⟨some s⟩ fs count
    (∃ fault, (s.configAgent.scan fs .calm).outcome = .error fault ∧
      done.controller.session = some s ∧ done.outcome = .error (.agent fault)) ∨
    ∃ next, done.controller.session = some next ∧ s.configAgent.Scannable fs ∧
      (∀ kind, next.agent kind = ((s.agent kind).reload fs .calm).agent) ∧
      (s.registryAgent.Scannable fs ∧ done.outcome = .ok .nothing ∨
        ∃ fault, (s.registryAgent.scan fs .calm).outcome = .error fault ∧
          done.outcome = .error (.agent fault)) := by
  intro done
  simp only [done, filesChanged]
  cases hconfig : (s.configAgent.reload fs .calm).outcome with
  | error fault =>
    obtain ⟨hscan, hsame⟩ := Agent.reload_calm_eq_error hconfig
    refine .inl ⟨fault, hscan, ?_, rfl⟩
    simp only [hsame, Handled.quiet]
  | ok configChanged =>
    have hscannable := Agent.scannable_of_reload_eq_ok hconfig
    cases hregistry : (s.registryAgent.reload fs .calm).outcome with
    | error fault =>
      obtain ⟨hscan, _⟩ := Agent.reload_calm_eq_error hregistry
      exact .inr ⟨_, rfl, hscannable, forall_kind rfl rfl, .inr ⟨fault, hscan, rfl⟩⟩
    | ok registryChanged =>
      exact .inr ⟨_, rfl, hscannable, forall_kind rfl rfl,
        .inl ⟨Agent.scannable_of_reload_eq_ok hregistry, rfl⟩⟩

/-- What news of changed files leave of the agents, whatever the files are by then and however the
call ends. A tree cannot be scanned exactly if it is obstructed: by a root that leads over a name
that is too long or over a directory that may not be searched, or by a directory that lies too deep.
An agent that could be brought up to date has been, except for one: the registry stays behind if the
configuration cannot be scanned. A generation has gone on exactly if the snapshot is another one;
and the call fails exactly if one of the two trees cannot be scanned, and tells of the first. -/
theorem agents_after_filesChanged (s : Session) (fs : FileSystem) (count : Nat) :
    let done := filesChanged ⟨some s⟩ fs count
    ∃ next, done.controller.session = some next ∧
      (fs.root.WellFormed → ∀ kind,
        ((s.agent kind).Scannable fs ↔ ∀ fault, ¬ (s.agent kind).Obstructed fs fault) ∧
        ∀ fault, ((s.agent kind).scan fs .calm).outcome = .error fault ↔
          (s.agent kind).Obstructed fs fault) ∧
      (∀ kind, (next.agent kind).IsCurrent fs ↔
        kind = .config ∨ s.configAgent.Scannable fs ∨ (s.agent kind).IsCurrent fs) ∧
      (∀ kind, (next.agent kind).generation = (s.agent kind).generation +
        if (next.agent kind).snapshot = (s.agent kind).snapshot then 0 else 1) ∧
      (done.outcome = .ok .nothing ∧ (∀ kind, (s.agent kind).Scannable fs) ∨
        ∃ kind fault, ((s.agent kind).scan fs .calm).outcome = .error fault ∧
          (kind = .registry → s.configAgent.Scannable fs) ∧
          done.outcome = .error (.agent fault)) := by
  intro done
  have hobstructed (proper : fs.root.WellFormed) (kind : AgentKind) :
      ((s.agent kind).Scannable fs ↔ ∀ fault, ¬ (s.agent kind).Obstructed fs fault) ∧
      ∀ fault, ((s.agent kind).scan fs .calm).outcome = .error fault ↔
        (s.agent kind).Obstructed fs fault :=
    ⟨Agent.scannable_iff_of_proper proper, fun _ => Agent.scan_calm_eq_error_iff proper⟩
  rcases filesChanged_cases s fs count with ⟨fault, hscan, hsession, hout⟩ |
    ⟨next, hsession, hconfig, hagents, hrest⟩
  · have hnot : ¬ s.configAgent.Scannable fs := Agent.not_scannable_iff.mpr ⟨fault, hscan⟩
    refine ⟨s, hsession, hobstructed, fun kind => ?_, fun kind => by simp,
      .inr ⟨.config, fault, hscan, nofun, hout⟩⟩
    cases kind with
    | config => exact iff_of_true (Agent.isCurrent_of_not_scannable hnot) (.inl rfl)
    | registry => simp [hnot]
  · refine ⟨next, hsession, hobstructed, fun kind => ?_, fun kind => ?_, ?_⟩
    · simp only [hconfig, true_or, or_true, iff_true, hagents]
      exact Agent.isCurrent_reload _ fs
    · rw [hagents]
      exact Agent.generation_reload_eq _ fs
    · rcases hrest with ⟨hregistry, hout⟩ | ⟨fault, hscan, hout⟩
      · exact .inl ⟨hout, forall_kind hconfig hregistry⟩
      · exact .inr ⟨.registry, fault, hscan, fun _ => hconfig, hout⟩

/-- After a handshake in an empty workspace `/w` a file comes into the registry, and in the place of
the configuration a link to a name that is too long: with the news the registry stays without its
file, although its tree can be scanned. -/
theorem registry_behind_long_link :
    let folders : Value := .list [.table [("uri", .text "file:///w")]]
    let c :=
      (handshake Controller.fresh (.ofListing (.directory "w" .empty .empty)) folders).controller
    let fs : FileSystem := .ofListing (.directory "w" (.directory "ci-operator"
      (.directory "step-registry" (.file "a-ref.yaml" [] 1 .empty)
        (.link "config" (List.replicate 300 'a') .empty)) .empty) .empty)
    ∃ s next, c.session = some s ∧ (filesChanged c fs 1).controller.session = some next ∧
      (next.agent .registry).Scannable fs ∧ ¬ (next.agent .registry).IsCurrent fs ∧
      (next.agent .registry).generation = 0 := by
  intro folders c fs
  let layout := Layout.ofRoot ⟨.root, ["w"]⟩
  let s : Session := ⟨layout, .fresh .config layout.configRoot true,
    .fresh .registry layout.registryRoot true⟩
  have hfound : (s.agent .registry).found? ⟨fs, .calm⟩ =
      some [(⟨.root, ["w", "ci-operator", "step-registry", "a-ref.yaml"]⟩, 1)] := by decide +kernel
  refine ⟨s, s, by decide +kernel, by decide +kernel, ⟨_, hfound⟩, fun hcurrent => ?_, rfl⟩
  cases hcurrent _ hfound

end Server
end StepLocator
