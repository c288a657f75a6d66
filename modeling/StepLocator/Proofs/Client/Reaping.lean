import StepLocator.Client.Local
import StepLocator.Proofs.Client.Outcome

/-!
The end of a process. Whichever way a conversation with a process ends, the process has ended
afterwards, and it was killed only while it ran.
-/
namespace StepLocator

namespace Process

variable {σ : Type} {p : Process σ} {h : Held σ}

theorem await_of_left {words : Bytes} {after : σ}
    (left : p.communicate h.state = (some words, after)) :
    p.await h = (words, { h with state := after }) := by
  rw [await, left]

theorem await_of_late {after : σ} (late : p.communicate h.state = (none, after)) :
    p.await h = p.finish { h with state := after } := by
  rw [await, late]

theorem reap_of_ended (ended : (p.poll h.state).isSome = true) : p.reap h = h := by
  have hcode : (p.poll h.state).isNone = false := by simpa using ended
  rw [reap, hcode]
  rfl

theorem reap_of_running (runs : p.poll h.state = none) : p.reap h = (p.finish h).2 := by
  rw [reap, runs]
  rfl

/-- What a wait tells of a process: it has ended if the wait has brought its last words, and runs if
the time was up. -/
structure Lawful (p : Process σ) : Prop where
  ended : ∀ s words, (p.communicate s).1 = some words → (p.poll (p.communicate s).2).isSome = true
  runs : ∀ s, (p.communicate s).1 = none → p.poll (p.communicate s).2 = none

/-- A process was killed only while it ran. -/
def Spared (h : Held σ) : Prop := ∀ code ∈ h.kills, code = none

structure Reaped (p : Process σ) (h : Held σ) : Prop where
  ended : (p.poll h.state).isSome = true
  spared : Spared h

theorem reaped_finish (lawful : p.Lawful) (runs : p.poll h.state = none) (spared : Spared h) :
    p.Reaped (p.finish h).2 := by
  constructor
  · exact lawful.ended _ _ (Option.eq_some_of_isSome (p.ends h.state))
  · intro code hcode
    rcases List.mem_append.mp hcode with hcode | hcode
    · exact spared code hcode
    · rw [List.mem_singleton.mp hcode, runs]

theorem reaped_await (lawful : p.Lawful) (spared : Spared h) : p.Reaped (p.await h).2 := by
  cases hwait : p.communicate h.state with
  | mk last after =>
    cases last with
    | some words =>
      have hended := lawful.ended h.state words (by rw [hwait])
      rw [hwait] at hended
      rw [await_of_left hwait]
      exact ⟨hended, spared⟩
    | none =>
      -- the time was up, so the process still runs when it is killed
      have hruns := lawful.runs h.state (by rw [hwait])
      rw [hwait] at hruns
      rw [await_of_late hwait]
      exact reaped_finish lawful hruns spared

theorem reaped_reap (lawful : p.Lawful) (spared : Spared h) : p.Reaped (p.reap h) := by
  cases hcode : p.poll h.state with
  | none =>
    rw [reap_of_running hcode]
    exact reaped_finish lawful hcode spared
  | some code =>
    have hended : (p.poll h.state).isSome = true := by rw [hcode]; rfl
    rw [reap_of_ended hended]
    exact ⟨hended, spared⟩

end Process

namespace Consultation

variable {σ : Type} {child : Child σ}

/-- Whoever attends to a process leaves it ended, by whichever way. -/
theorem reaped_attend (lawful : child.process.Lawful) (listeners : Listeners) (fs : FileSystem)
    (workspace : Path) (query : Query) (span : Int) :
    ∃ held : Held σ, child.process.Reaped held ∧
      (attend child listeners fs workspace query span).fate = some (child.process.fate held) ∧
      (attend child listeners fs workspace query span).state = some held.state := by
  have hnever (s : σ) : Process.Spared ⟨s, []⟩ := by simp [Process.Spared]
  have hways := attended_attend child listeners fs workspace query span
  generalize attend child listeners fs workspace query span = run at hways ⊢
  cases hways with
  | noPipes pipes => exact ⟨_, Process.reaped_reap lawful (hnever _), rfl, rfl⟩
  | failed talk => exact ⟨_, Process.reaped_reap lawful (hnever _), rfl, rfl⟩
  | untimed talk late => exact ⟨_, Process.reaped_reap lawful (hnever _), rfl, rfl⟩
  | @awaited answer after words left held talk waited reaped =>
    have hleft := Process.reaped_await lawful (hnever after.peer)
    rw [waited] at hleft
    exact ⟨_, reaped ▸ Process.reaped_reap lawful hleft.spared, rfl, rfl⟩

/-- A process that was started for a question has ended when the question is done with, whatever
came of it, and every time that it was killed it was running. -/
theorem consulted_process_ends {child : Child σ} (lawful : child.process.Lawful)
    (listeners : Listeners) (fs : FileSystem) (root : Option Path) (timeout : Timeout)
    (query : Query) :
    let run := consult child listeners fs root timeout query
    (run.fate.isSome = true ↔ ∃ workspace span, Starts fs root timeout workspace span) ∧
    ∀ fate, run.fate = some fate →
      (∃ state code, run.state = some state ∧ child.process.poll state = some code ∧
        fate.exitCode = some code) ∧
      ∀ code ∈ fate.kills, code = none := by
  intro run
  rcases consult_cases child listeners fs root timeout query with ⟨hnot, fault, hrun⟩ |
    ⟨workspace, span, hstarts, hrun⟩
  · have hfate : run.fate = none := by rw [show run = _ from hrun]
    refine ⟨?_, fun fate h => ?_⟩
    · simp [hfate, hnot]
    · cases hfate.symm.trans h
  · obtain ⟨held, reaped, hfate, hstate⟩ := reaped_attend lawful listeners fs workspace query span
    rw [← hrun] at hfate hstate
    refine ⟨⟨fun _ => ⟨workspace, span, hstarts⟩, fun _ => ?_⟩, fun fate h => ?_⟩
    · rw [show run.fate = _ from hfate]
      rfl
    · obtain rfl : child.process.fate held = fate := Option.some.inj (hfate.symm.trans h)
      obtain ⟨code, hcode⟩ := Option.isSome_iff_exists.mp reaped.ended
      exact ⟨⟨held.state, code, hstate, hcode, hcode⟩, reaped.spared⟩

end Consultation

namespace Local

theorem lawful_life : life.Lawful where
  ended s words h := by
    unfold life at h ⊢
    simp only at h ⊢
    split at h
    · rename_i hcode
      rwa [if_pos hcode]
    · cases h
  runs s h := by
    unfold life at h ⊢
    simp only at h ⊢
    split at h
    · cases h
    · rename_i hcode
      rw [if_neg hcode]
      simpa using hcode

/-- A server that gives no answer is killed while it waits to be told to leave. -/
theorem consulted_process_ends_by_kill :
    let fs : FileSystem := .ofListing .empty
    let child : Child State := { child fs with peer := Peer.silent }
    let run := Consultation.consult child ⟨none, none⟩ fs (some (Path.ofText "/".toList))
      (.whole 10) ⟨Path.ofText "/d".toList, 0, 0⟩
    child.process.Lawful ∧ run.fate = some ⟨some Process.killedCode, [none]⟩ ∧
      ∃ state, run.state = some state ∧ child.process.poll state = some Process.killedCode := by
  intro fs child run
  have h := Consultation.consulted_process_ends (show child.process.Lawful from lawful_life)
    ⟨none, none⟩ fs (some (Path.ofText "/".toList)) (.whole 10) ⟨Path.ofText "/d".toList, 0, 0⟩
  have hfate : run.fate = some ⟨some Process.killedCode, [none]⟩ := by decide +kernel
  obtain ⟨⟨state, code, hstate, hpoll, hcode⟩, _⟩ := h.2 _ hfate
  obtain rfl : Process.killedCode = code := Option.some.inj hcode
  exact ⟨lawful_life, hfate, state, hstate, hpoll⟩

end Local
end StepLocator
