import StepLocator.Client.Consultation
import StepLocator.Proofs.Client.Exchange

/-!
What can come of asking a server process: the waits that are too long, the ways in which a process
that was started is let go of, and the questions for which none is started.
-/
namespace StepLocator

namespace Patience

inductive Exceeded (p : Patience) (span : Int) : Excess → Prop
  | seconds (long : longestSpan < span) : Exceeded p span .seconds
  | reading {most : Int} (limit : p.word = some most) (long : most < span) :
    Exceeded p span .reading
  | ending {most : Int} (limit : p.ending = some most) (long : most < span) :
    Exceeded p span .ending

variable {p : Patience} {span : Int} {excess : Excess}

theorem exceeded_of_wordExcess? (h : p.wordExcess? span = some excess) :
    p.Exceeded span excess := by
  unfold wordExcess? at h
  split at h
  · cases h
  split at h
  · cases h
    exact .seconds ‹_›
  split at h
  · cases h
    exact .reading ‹_› ‹_›
  · cases h

theorem exceeded_of_endExcess? (h : p.endExcess? span = some excess) : p.Exceeded span excess := by
  unfold endExcess? at h
  split at h
  · cases h
    exact .seconds ‹_›
  split at h
  · rename_i hlate
    cases h
    obtain ⟨most, hlimit, hlong⟩ := (Option.any_eq_true _ _).mp hlate
    exact .ending hlimit (of_decide_eq_true hlong)
  · cases h

theorem longestWait_lt_of_exceeded (h : ofSystem.Exceeded span excess) : longestWait < span := by
  have hread : longestWait ≤ longestRead := by decide
  have hspan : longestWait ≤ longestSpan := by decide +kernel
  cases h with
  | seconds long => omega
  | reading limit long =>
    obtain rfl : longestRead = _ := Option.some.inj limit
    omega
  | ending limit long =>
    obtain rfl : longestWait = _ := Option.some.inj limit
    exact long

theorem wordExcess?_ofSystem (h : span ≤ longestWait) : ofSystem.wordExcess? span = none :=
  Option.eq_none_iff_forall_ne_some.mpr fun _ hlong =>
    absurd (longestWait_lt_of_exceeded (exceeded_of_wordExcess? hlong)) (Int.not_lt.mpr h)

theorem endExcess?_ofSystem (h : span ≤ longestWait) : ofSystem.endExcess? span = none :=
  Option.eq_none_iff_forall_ne_some.mpr fun _ hlong =>
    absurd (longestWait_lt_of_exceeded (exceeded_of_endExcess? hlong)) (Int.not_lt.mpr h)

end Patience

namespace Consultation

variable {σ : Type}

/-- The ways in which a process that was started is let go of: it has no pipes, the conversation
with it fails, its end cannot be waited for as long as that, or it is waited for. -/
inductive Attended (child : Child σ) (listeners : Listeners) (fs : FileSystem) (workspace : Path)
    (query : Query) (span : Int) : Consulted σ → Prop
  | noPipes {fault : Fault} (pipes : requirePipes child = .error fault) :
    Attended child listeners fs workspace query span
      (.ofHeld child.process (child.process.reap ⟨child.state, []⟩) (.error fault) [])
  | failed {fault : Fault} {after : Channel σ}
    (talk : runFrom (talk child listeners fs workspace query span) (channelTo child span) =
      (.error fault, after)) :
    Attended child listeners fs workspace query span
      (.ofHeld child.process (child.process.reap ⟨after.peer, []⟩) (.error fault) after.trace)
  | untimed {answer : Entries} {after : Channel σ} {excess : Patience.Excess}
    (talk : runFrom (talk child listeners fs workspace query span) (channelTo child span) =
      (.ok answer, after))
    (late : child.patience.endExcess? span = some excess) :
    Attended child listeners fs workspace query span
      (.ofHeld child.process (child.process.reap ⟨after.peer, []⟩)
        (.error (.timeoutTooLong excess)) after.trace)
  | awaited {answer : Entries} {after : Channel σ} {words : Bytes} {left held : Held σ}
    (talk : runFrom (talk child listeners fs workspace query span) (channelTo child span) =
      (.ok answer, after))
    (waited : child.process.await ⟨after.peer, []⟩ = (words, left))
    (reaped : child.process.reap left = held) :
    Attended child listeners fs workspace query span
      (.ofHeld child.process held (answerOf answer (child.process.fate held) words) after.trace)

theorem attended_attend (child : Child σ) (listeners : Listeners) (fs : FileSystem)
    (workspace : Path) (query : Query) (span : Int) :
    Attended child listeners fs workspace query span
      (attend child listeners fs workspace query span) := by
  unfold attend
  cases hpipes : requirePipes child with
  | error fault => exact .noPipes hpipes
  | ok pipes =>
    cases htalk : runFrom (talk child listeners fs workspace query span)
      (channelTo child span) with
    | mk outcome after =>
      have htalk' : ((talk child listeners fs workspace query span).run
          (channelTo child span)).run = (outcome, after) := htalk
      simp only [htalk']
      cases outcome with
      | error fault => exact .failed htalk
      | ok answer =>
        cases hlate : child.patience.endExcess? span with
        | some excess => exact .untimed htalk hlate
        | none => exact .awaited htalk rfl rfl

/-- Whether a process is started to answer a question, for which workspace and for which span. -/
structure Starts (fs : FileSystem) (root : Option Path) (timeout : Timeout) (workspace : Path)
    (span : Int) : Prop where
  positive : timeout.isNonPositive = false
  workspace : Query.workspace fs root = .ok workspace
  span : nanoseconds timeout = .ok span

/-- A question fails before anything is started, or it is put to a process. -/
theorem consult_cases (child : Child σ) (listeners : Listeners) (fs : FileSystem)
    (root : Option Path) (timeout : Timeout) (query : Query) :
    ((∀ workspace span, ¬ Starts fs root timeout workspace span) ∧
      ∃ fault, consult child listeners fs root timeout query = ⟨.error fault, none, [], none⟩) ∨
    ∃ workspace span, Starts fs root timeout workspace span ∧
      consult child listeners fs root timeout query =
        attend child listeners fs workspace query span := by
  unfold consult
  cases htime : timeout.isNonPositive with
  | true =>
    refine Or.inl ⟨fun workspace span h => ?_, _, rfl⟩
    exact absurd (h.positive.symm.trans htime) (by decide)
  | false =>
    cases hworkspace : Query.workspace fs root with
    | error fault =>
      refine Or.inl ⟨fun workspace span h => ?_, _, rfl⟩
      cases h.workspace.symm.trans hworkspace
    | ok workspace =>
      cases hspan : nanoseconds timeout with
      | error fault =>
        refine Or.inl ⟨fun workspace span h => ?_, _, rfl⟩
        cases h.span.symm.trans hspan
      | ok span => exact Or.inr ⟨workspace, span, ⟨htime, hworkspace, hspan⟩, rfl⟩

end Consultation
end StepLocator
