import StepLocator.Proofs.Agent.Reload
import StepLocator.Proofs.Path.Text
import StepLocator.Session.Controller

/-!
What comes of one handshake. It succeeds for one session at most, and only if there was none before;
the controller afterwards is told by the outcome alone.
-/
namespace StepLocator

theorem Folders.root_eq_ok {fs : FileSystem} {folders : Value} {path : Path}
    (h : root fs folders = .ok path) :
    ∃ offered entry, read folders = .ok offered ∧ path = Uri.folderPath offered.uri ∧
      fs.entry path.toText = .ok entry := by
  unfold root at h
  cases hread : read folders with
  | error findings => simp [hread] at h
  | ok offered =>
    simp only [hread] at h
    split at h
    · rename_i entry hentry
      have hpath : Uri.folderPath offered.uri = path := by simpa using h
      exact ⟨offered, entry, rfl, hpath.symm, hpath ▸ hentry⟩
    · simp at h
    · simp at h

theorem Folders.root_wellFormed {fs : FileSystem} {folders : Value} {path : Path}
    (h : root fs folders = .ok path) : path.WellFormed := by
  obtain ⟨offered, _, _, rfl, _⟩ := root_eq_ok h
  exact Path.wellFormed_ofText _

namespace Controller

variable {c : Controller} {fs : FileSystem} {obstacles : Obstacles} {hook : Hook} {folders : Value}

theorem Attempt.start_of_run {a : Attempt} {agent : Agent}
    (h : (a.run fs obstacles hook).outcome = .ok agent) :
    (Agent.start a.kind a.root false fs hook).outcome = .ok agent := by
  unfold Attempt.run at h
  split at h
  · simp at h
  · have hmapped : ((Agent.start a.kind a.root false fs hook).outcome.mapError
        Agent.Fault.message) = .ok agent := h
    cases hout : (Agent.start a.kind a.root false fs hook).outcome with
    | error fault =>
      rw [hout] at hmapped
      cases hmapped
    | ok started =>
      rw [hout] at hmapped
      exact congrArg Except.ok (Except.ok.inj hmapped)

theorem Attempt.run_eq_ok {a : Attempt} {agent : Agent}
    (h : (a.run fs obstacles hook).outcome = .ok agent) :
    agent.root = a.root ∧ agent.kind = a.kind :=
  Agent.start_eq_ok (start_of_run h)

/-- What the surroundings must grant for a handshake to make a session: the folders name a root that
is there, and both agents start. -/
structure Grants (fs : FileSystem) (obstacles : Obstacles) (hook : Hook) (folders : Value)
    (s : Session) : Prop where
  layout : ∃ root, Folders.root fs folders = .ok root ∧ s.layout = Layout.ofRoot root
  config : (Attempt.run ⟨.config, s.layout.configRoot⟩ fs obstacles hook).outcome =
    .ok s.configAgent
  registry : (Attempt.run ⟨.registry, s.layout.registryRoot⟩ fs obstacles hook).outcome =
    .ok s.registryAgent

theorem handshake_of_ready (h : c.ready = true) :
    c.handshake fs obstacles hook folders = ⟨.error (.rejected .alreadyReady), c, [], [], []⟩ := by
  simp [handshake, h]

theorem eq_fresh_of_not_ready (h : c.ready = false) : c = fresh := by
  obtain ⟨session⟩ := c
  cases session with
  | none => rfl
  | some s => simp [ready] at h

/-- The outcome of a handshake tells the controller afterwards: a session is published, and after a
failure the controller is as it was. -/
theorem handshake_controller :
    (c.handshake fs obstacles hook folders).controller =
      match (c.handshake fs obstacles hook folders).outcome with
      | .ok s => ⟨some s⟩
      | .error _ => c := by
  unfold handshake
  split
  · rfl
  · split
    · rename_i root _
      cases hconfig : (Attempt.run ⟨.config, (Layout.ofRoot root).configRoot⟩ fs obstacles
        hook).outcome with
      | error failure => simp [establish, hconfig]
      | ok config =>
        cases hregistry : (Attempt.run ⟨.registry, (Layout.ofRoot root).registryRoot⟩ fs obstacles
          hook).outcome with
        | error failure => simp [establish, hconfig, hregistry]
        | ok registry => simp [establish, hconfig, hregistry]
    · rfl
    · rfl
    · rfl

/-- A handshake makes a session exactly when there is none yet and the surroundings grant it. -/
theorem handshake_eq_ok_iff {s : Session} :
    (c.handshake fs obstacles hook folders).outcome = .ok s ↔
      c.ready = false ∧ Grants fs obstacles hook folders s := by
  by_cases hready : c.ready = true
  · simp [handshake_of_ready hready, hready]
  · have hnot : c.ready = false := by simpa using hready
    simp only [handshake, hnot, Bool.false_eq_true, if_false, true_and]
    cases hroot : Folders.root fs folders with
    | error fault =>
      have hnone : ¬ Grants fs obstacles hook folders s := by
        rintro ⟨⟨root, hok, _⟩, _, _⟩
        simp [hroot] at hok
      cases fault <;> simp [hnone]
    | ok root =>
      simp only [establish]
      constructor
      · intro h
        split at h
        · simp at h
        · rename_i config hconfig
          split at h
          · simp at h
          · rename_i registry hregistry
            obtain rfl : Session.mk (Layout.ofRoot root) config registry = s := by simpa using h
            exact ⟨⟨root, hroot, rfl⟩, hconfig, hregistry⟩
      · rintro ⟨⟨other, hother, hlayout⟩, hconfig, hregistry⟩
        obtain rfl : root = other := by simpa [hroot] using hother
        rw [hlayout] at hconfig hregistry
        obtain ⟨layout, config, registry⟩ := s
        obtain rfl : layout = Layout.ofRoot root := hlayout
        simp [hconfig, hregistry]

end Controller

def Session.Established (s : Session) : Prop :=
  ∃ (c : Controller) (fs : FileSystem) (obstacles : Controller.Obstacles) (hook : Hook)
    (folders : Value), (c.handshake fs obstacles hook folders).outcome = .ok s

theorem Session.Established.registryRoot_eq {s : Session} (h : s.Established) :
    ∃ root : Path, root.WellFormed ∧ s.registryRoot = root.append Layout.registryNames := by
  obtain ⟨c, fs, obstacles, hook, folders, hok⟩ := h
  obtain ⟨root, hroot, hlayout⟩ := (Controller.handshake_eq_ok_iff.mp hok).2.layout
  exact ⟨root, Folders.root_wellFormed hroot, by rw [Session.registryRoot, hlayout, Layout.ofRoot]⟩

end StepLocator
