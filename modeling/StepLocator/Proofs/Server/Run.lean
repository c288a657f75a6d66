import StepLocator.Proofs.Server.Handlers
import StepLocator.Proofs.Session.Run

/-!
Runs of the handlers on one controller. A run is a list of turns, each a call that meets the files
as they are then. One guard rules it: whether some handshake of the run has succeeded. Until then
every question is refused before anything else is looked at; from then on it never is so again.
-/
namespace StepLocator
namespace Server

/-- A call of a run and the files that it meets. -/
structure Turn where
  fs : FileSystem
  call : Call

def Turn.perform (t : Turn) (c : Controller) : Handled := t.call.perform c t.fs

def Turn.Greets (t : Turn) (c : Controller) : Prop :=
  (∃ folders, t.call = .handshake folders) ∧ ∃ answer, (t.perform c).outcome = .ok answer

def after (c : Controller) : List Turn → Controller
  | [] => c
  | t :: rest => after (t.perform c).controller rest

def Greeted (c : Controller) (ts : List Turn) : Prop :=
  ∃ earlier t later, ts = earlier ++ t :: later ∧ t.Greets (after c earlier)

def Call.isQuestion : Call → Bool
  | .definition _ _ | .hover _ _ | .completion _ _ | .formatting _ | .generations => true
  | .handshake _ | .initialized _ | .filesChanged _ => false

def Call.isNotice : Call → Bool
  | .initialized _ | .filesChanged _ => true
  | _ => false

variable {c : Controller} {fs : FileSystem} {call : Call}

theorem after_append (c : Controller) (ts more : List Turn) :
    after c (ts ++ more) = after (after c ts) more := by
  induction ts generalizing c with
  | nil => rfl
  | cons t rest ih => exact ih _

theorem greeted_cons {t : Turn} {ts : List Turn} :
    Greeted c (t :: ts) ↔ t.Greets c ∨ Greeted (t.perform c).controller ts := by
  constructor
  · rintro ⟨earlier, u, later, hsplit, hgreets⟩
    cases earlier with
    | nil =>
      obtain ⟨rfl, rfl⟩ := List.cons.inj hsplit
      exact Or.inl hgreets
    | cons first earlier =>
      obtain ⟨rfl, hrest⟩ := List.cons.inj hsplit
      exact Or.inr ⟨earlier, u, later, hrest, hgreets⟩
  · rintro (hgreets | ⟨earlier, u, later, rfl, hgreets⟩)
    · exact ⟨[], t, ts, rfl, hgreets⟩
    · exact ⟨t :: earlier, u, later, rfl, hgreets⟩

/-! ### Questions -/

theorem withSession_of_none (h : c.session = none) (next : Session → Handled) :
    withSession c next = .quiet c (.error (.refused (.notReady .notReady))) [] := by
  simp [withSession, Controller.requireSession, h]

theorem withSession_of_some {s : Session} (h : c.session = some s) (next : Session → Handled) :
    withSession c next = next s := by
  simp [withSession, Controller.requireSession, h]

/-- A call is not refused for want of a session. -/
def Handled.Heard (h : Handled) : Prop :=
  ∀ cause, h.outcome ≠ .error (.refused (.notReady cause))

theorem Refusal.code_eq_notInitialized_iff {refusal : Refusal} :
    refusal.code = Refusal.notInitialized ↔ ∃ cause, refusal = .notReady cause := by
  cases refusal with
  | notReady cause => exact ⟨fun _ => ⟨cause, rfl⟩, fun _ => rfl⟩
  | _ => exact ⟨nofun, nofun⟩

theorem Handled.heard_quiet {outcome : Except Failure Answer} {records : List Log.Record}
    (h : ∀ cause, outcome ≠ .error (.refused (.notReady cause))) :
    (Handled.quiet c outcome records).Heard := h

/-- A call leaves the controller as it is and is heard. -/
structure Handled.Serves (h : Handled) (c : Controller) : Prop where
  keeps : h.controller = c
  heard : h.Heard

theorem Handled.serves_quiet {outcome : Except Failure Answer} {records : List Log.Record}
    (h : ∀ cause, outcome ≠ .error (.refused (.notReady cause))) :
    (Handled.quiet c outcome records).Serves c :=
  ⟨rfl, Handled.heard_quiet h⟩

theorem serves_withLines {uri : Text} {next : List Text → Handled}
    (h : ∀ lines, (next lines).Serves c) : (withLines c fs uri next).Serves c := by
  unfold withLines
  split
  · exact h _
  · exact Handled.serves_quiet nofun
  · exact Handled.serves_quiet nofun

/-- A question looks for the session first and does everything else with it. -/
theorem exists_serves_of_question (hcall : call.isQuestion = true) (c : Controller)
    (fs : FileSystem) :
    ∃ next : Session → Handled, call.perform c fs = withSession c next ∧
      ∀ s, (next s).Serves c := by
  cases call with
  | definition uri line =>
    refine ⟨_, rfl, fun s => serves_withLines fun lines => ?_⟩
    simp only
    split <;> exact Handled.serves_quiet nofun
  | hover uri line => exact ⟨_, rfl, fun s => Handled.serves_quiet nofun⟩
  | completion uri line => exact ⟨_, rfl, fun s => Handled.serves_quiet nofun⟩
  | formatting uri =>
    refine ⟨_, rfl, fun s => ?_⟩
    have hlines : (withLines c fs uri fun _ => .quiet c (.ok .noEdits) []).Serves c :=
      serves_withLines fun _ => Handled.serves_quiet nofun
    exact ⟨hlines.keeps, hlines.heard⟩
  | generations => exact ⟨_, rfl, fun s => Handled.serves_quiet nofun⟩
  | _ => cases hcall

theorem perform_question_of_none (h : c.session = none) (hcall : call.isQuestion = true)
    (fs : FileSystem) :
    call.perform c fs = .quiet c (.error (.refused (.notReady .notReady))) [] := by
  obtain ⟨next, hperform, _⟩ := exists_serves_of_question hcall c fs
  rw [hperform, withSession_of_none h]

theorem perform_question_of_some {s : Session} (h : c.session = some s)
    (hcall : call.isQuestion = true) (fs : FileSystem) : (call.perform c fs).Serves c := by
  obtain ⟨next, hperform, hserves⟩ := exists_serves_of_question hcall c fs
  rw [hperform, withSession_of_some h]
  exact hserves s

theorem perform_question_keeps (hcall : call.isQuestion = true) (c : Controller)
    (fs : FileSystem) : (call.perform c fs).controller = c := by
  cases h : c.session with
  | none => rw [perform_question_of_none h hcall]; rfl
  | some s => exact (perform_question_of_some h hcall fs).keeps

/-! ### Notices and handshakes -/

theorem perform_notice_of_none (h : c.session = none) (hcall : call.isNotice = true)
    (fs : FileSystem) : ∃ records, call.perform c fs = .quiet c (.ok .nothing) records := by
  cases call with
  | initialized watching => exact ⟨[], by simp [Call.perform, initialized, h]⟩
  | filesChanged count =>
    simp only [Call.perform, filesChanged, h]
    exact ⟨_, rfl⟩
  | _ => cases hcall

theorem initialized_of_some {s : Session} (h : c.session = some s) (watching : Bool) :
    (initialized c watching).outcome = .ok .nothing ∧
      (initialized c watching).requests = if watching then [Watching.registration] else [] := by
  cases watching <;> simp [initialized, h, Handled.quiet]

theorem perform_heard_of_some {s : Session} (h : c.session = some s) (fs : FileSystem)
    (call : Call) : (call.perform c fs).Heard := by
  by_cases hquestion : call.isQuestion = true
  · exact (perform_question_of_some h hquestion fs).heard
  · cases call with
    | handshake folders =>
      intro cause
      rw [Call.perform, handshake_outcome]
      split <;> nofun
    | initialized watching =>
      intro cause
      rw [Call.perform, (initialized_of_some h watching).1]
      nofun
    | filesChanged count =>
      simp only [Call.perform, filesChanged, h]
      split
      · exact Handled.heard_quiet nofun
      · split <;> exact Handled.heard_quiet nofun
    | _ => exact absurd rfl hquestion

theorem initialized_keeps (c : Controller) (watching : Bool) :
    (initialized c watching).controller = c := by
  unfold initialized
  split
  · rfl
  · split <;> rfl

theorem filesChanged_ready (c : Controller) (fs : FileSystem) (count : Nat) :
    (filesChanged c fs count).controller.ready = c.ready := by
  unfold filesChanged
  split
  · rfl
  · next session h =>
    simp only
    split
    · simp [Handled.quiet, Controller.ready, h]
    · split <;> simp [Handled.quiet, Controller.ready, h]

theorem handshake_ready_iff (c : Controller) (fs : FileSystem) (folders : Value) :
    (handshake c fs folders).controller.ready = true ↔
      c.ready = true ∨ ∃ answer, (handshake c fs folders).outcome = .ok answer := by
  rw [controller_handshake, Controller.handshake_controller, handshake_outcome]
  cases hdone : (c.handshake fs Controller.Obstacles.clear Hook.calm folders).outcome with
  | ok session => simp [Controller.ready]
  | error fault => cases fault <;> simp

/-- A turn makes the server ready exactly if it greets it; no turn makes it unready. -/
theorem ready_perform_iff {t : Turn} :
    (t.perform c).controller.ready = true ↔ c.ready = true ∨ t.Greets c := by
  obtain ⟨fs, call⟩ := t
  -- what is no handshake greets nobody, so all there is to show is that the session stays or is
  -- still missing
  have hkept (h : (call.perform c fs).controller.ready = c.ready)
      (hcall : ∀ folders, call ≠ .handshake folders) :
      (Turn.perform ⟨fs, call⟩ c).controller.ready = true ↔
        c.ready = true ∨ Turn.Greets ⟨fs, call⟩ c := by
    have hnot : ¬ Turn.Greets ⟨fs, call⟩ c := fun ⟨⟨folders, heq⟩, _⟩ => hcall folders heq
    rw [Turn.perform, h]
    simp [hnot]
  by_cases hquestion : call.isQuestion = true
  · refine hkept (congrArg Controller.ready (perform_question_keeps hquestion c fs)) ?_
    rintro folders rfl
    cases hquestion
  · cases call with
    | handshake folders =>
      have hiff := handshake_ready_iff c fs folders
      simpa [Turn.perform, Turn.Greets, Call.perform] using hiff
    | initialized watching =>
      exact hkept (congrArg Controller.ready (initialized_keeps c watching)) nofun
    | filesChanged count => exact hkept (filesChanged_ready c fs count) nofun
    | _ => exact absurd rfl hquestion

/-- After a run the server is ready exactly if it was before, or if a handshake of the run has
succeeded. -/
theorem ready_after_iff (c : Controller) (ts : List Turn) :
    (after c ts).ready = true ↔ c.ready = true ∨ Greeted c ts := by
  induction ts generalizing c with
  | nil => simp [after, Greeted]
  | cons t rest ih => rw [after, ih, ready_perform_iff, greeted_cons, or_assoc]

/-- The guard of the server. As long as no handshake of a run has succeeded, every question is
refused as one too early, in the same way whatever it is about and whatever the files are, and
notices change nothing and ask nothing of the client. Once one has succeeded, no call is refused so
again, whatever comes in between, and the client is asked to watch files, once for each time that
it says it is ready, exactly if it has announced that it can. -/
theorem guard_of_run (ts : List Turn) :
    let c := after Controller.fresh ts
    (¬ Greeted Controller.fresh ts →
      (∃ refusal : Refusal, refusal.code = -32002 ∧
        ∀ (fs : FileSystem) (call : Call), call.isQuestion = true →
          call.perform c fs = .quiet c (.error (.refused refusal)) []) ∧
      ∀ (fs : FileSystem) (call : Call), call.isNotice = true →
        ∃ records, call.perform c fs = .quiet c (.ok .nothing) records) ∧
    (Greeted Controller.fresh ts → ∀ more : List Turn,
      (∀ (t : Turn) (refusal : Refusal),
        (t.perform (after c more)).outcome = .error (.refused refusal) →
          refusal.code ≠ -32002) ∧
      ∀ (fs : FileSystem) (names : Watching.Names) (capabilities : Value),
        let told := (Call.initialized (Watching.announced names capabilities)).perform
          (after c more) fs
        told.outcome = .ok .nothing ∧
        told.requests =
          if Watching.announced names capabilities then [Watching.registration] else []) := by
  intro c
  have hready : c.ready = true ↔ Greeted Controller.fresh ts := by
    have hiff := ready_after_iff Controller.fresh ts
    rwa [or_iff_right (show ¬ Controller.fresh.ready = true from Bool.false_ne_true)] at hiff
  refine ⟨fun hnot => ?_, fun hgreeted more => ?_⟩
  · have hnone : c.session = none := by
      rw [← hready] at hnot
      simpa [Controller.ready] using hnot
    exact ⟨⟨.notReady .notReady, rfl, fun fs call hcall => perform_question_of_none hnone hcall fs⟩,
      fun fs call hcall => perform_notice_of_none hnone hcall fs⟩
  · have hlater : (after c more).ready = true :=
      (ready_after_iff c more).mpr (Or.inl (hready.mpr hgreeted))
    obtain ⟨s, hs⟩ := Controller.ready_iff.mp hlater
    refine ⟨fun t refusal hout hcode => ?_,
      fun fs names capabilities => initialized_of_some hs _⟩
    obtain ⟨cause, rfl⟩ := Refusal.code_eq_notInitialized_iff.mp hcode
    exact perform_heard_of_some hs t.fs t.call cause hout

/-- Over the workspace `/w`, a handshake without folders fails and a hover after it is too early;
the next handshake succeeds, and from then on no hover is, whatever further handshakes come, and the
client is asked to watch files. -/
theorem guard_of_run_in_workspace :
    let fs : FileSystem := .ofListing (.directory "w" .empty .empty)
    let folders : Value := .list [.table [("uri", .text "file:///w")]]
    let early : List Turn := [⟨fs, .handshake .null⟩]
    let late : List Turn := early ++ [⟨fs, .handshake folders⟩]
    let capabilities : Value := .table [("workspace", .table [("didChangeWatchedFiles",
      .table [("dynamicRegistration", .bool true)])])]
    (∃ refusal, refusal.code = -32002 ∧
      (hover (after Controller.fresh early) "file:///w/a.yaml" 0).outcome =
        .error (.refused refusal)) ∧
    (∀ refusal, (hover (after (after Controller.fresh late) late) "file:///w/a.yaml" 0).outcome =
      .error (.refused refusal) → refusal.code ≠ -32002) ∧
    (initialized (after (after Controller.fresh late) late)
      (Watching.announced Watching.messageNames capabilities)).requests =
        [Watching.registration] := by
  intro fs folders early late capabilities
  have hearly : ¬ Greeted Controller.fresh early := fun h =>
    absurd ((ready_after_iff _ _).mpr (Or.inr h)) (by decide)
  have hready : (after Controller.fresh late).ready = true := by decide
  have hlate : Greeted Controller.fresh late :=
    ((ready_after_iff _ _).mp hready).resolve_left (by decide)
  obtain ⟨⟨refusal, hcode, hrefused⟩, _⟩ := (guard_of_run early).1 hearly
  obtain ⟨hheard, htold⟩ := (guard_of_run late).2 hlate late
  refine ⟨⟨refusal, hcode, ?_⟩, fun refusal => ?_, ?_⟩
  · exact congrArg Handled.outcome (hrefused fs (.hover "file:///w/a.yaml" 0) rfl)
  · exact hheard ⟨fs, .hover "file:///w/a.yaml" 0⟩ refusal
  · exact (htold fs Watching.messageNames capabilities).2.trans (if_pos (by decide))

end Server
end StepLocator
