import StepLocator.Agent.Basic

/-!
What a reload does to an agent. It fails and leaves the agent as it was, or it finds the snapshot
that the agent has, or it finds another one and begins a new generation.
-/
namespace StepLocator
namespace Agent

variable (a : Agent) (fs : FileSystem) (hook : Hook)

theorem reload_cases :
    (∃ fault, (a.scan fs hook).outcome = .error fault ∧ (a.reload fs hook).outcome = .error fault ∧
      (a.reload fs hook).agent = a) ∨
    ((a.scan fs hook).outcome = .ok a.snapshot ∧ (a.reload fs hook).outcome = .ok false ∧
      (a.reload fs hook).agent = a) ∨
    (∃ snapshot, (a.scan fs hook).outcome = .ok snapshot ∧ snapshot ≠ a.snapshot ∧
      (a.reload fs hook).outcome = .ok true ∧
      (a.reload fs hook).agent = { a with snapshot, generation := a.generation + 1 }) := by
  cases hscan : (a.scan fs hook).outcome with
  | error fault => exact Or.inl ⟨fault, rfl, by simp [reload, hscan], by simp [reload, hscan]⟩
  | ok snapshot =>
    right
    by_cases h : snapshot = a.snapshot
    · left
      exact ⟨by rw [h], by simp [reload, hscan, h], by simp [reload, hscan, h]⟩
    · right
      exact ⟨snapshot, rfl, h, by simp [reload, hscan, h], by simp [reload, hscan, h]⟩

theorem reload_keeps :
    (a.reload fs hook).agent.root = a.root ∧ (a.reload fs hook).agent.kind = a.kind ∧
      (a.reload fs hook).agent.recursive = a.recursive := by
  rcases a.reload_cases fs hook with ⟨_, _, _, h⟩ | ⟨_, _, h⟩ | ⟨_, _, _, _, h⟩
  all_goals rw [h]; exact ⟨rfl, rfl, rfl⟩

variable {a fs hook}

theorem start_eq_ok {kind : AgentKind} {root : Path} {flat : Bool} {agent : Agent}
    (h : (start kind root flat fs hook).outcome = .ok agent) :
    agent.root = root ∧ agent.kind = kind := by
  have hkeeps := (fresh kind root (kind == .config || !flat)).reload_keeps fs hook
  simp only [start] at h
  cases hout : ((fresh kind root (kind == .config || !flat)).reload fs hook).outcome with
  | error fault => simp [hout, Except.map] at h
  | ok changed =>
    have hagent : ((fresh kind root (kind == .config || !flat)).reload fs hook).agent = agent := by
      simpa [hout, Except.map] using h
    rw [hagent] at hkeeps
    exact ⟨hkeeps.1, hkeeps.2.1⟩

end Agent
end StepLocator
