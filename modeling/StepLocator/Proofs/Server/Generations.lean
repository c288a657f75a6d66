import StepLocator.Proofs.Agent.Run
import StepLocator.Proofs.Server.Run
import StepLocator.Server.Endpoint

/-!
Generations over a run of the handlers. Once a handshake has succeeded, each agent takes a look at
its tree with every news of changed files and at no other time. So the generation of each agent is
an account of its own looks: how often the snapshot was another one than before.
-/
namespace StepLocator

def Session.agent (s : Session) : AgentKind → Agent
  | .config => s.configAgent
  | .registry => s.registryAgent

namespace Agent

variable {a : Agent} {vs : List Visit}

/-- An agent indexes a file with a time: its scan of the files as they are meets it so. -/
def Indexes (a : Agent) (fs : FileSystem) (path : Path) (stamp : Int) : Prop :=
  ∃ met, Scan.events fs a.kind a.recursive a.root = .ok met ∧ .file path stamp ∈ met

theorem indexes_iff {fs : FileSystem} {hook : Hook} {s : Snapshot}
    (h : (a.scan fs hook).outcome = .ok s) {path : Path} {stamp : Int} :
    a.Indexes fs path stamp ↔ s.stamp? path = some stamp := by
  obtain ⟨met, hmet, rfl⟩ := scan_eq_ok h
  rw [Scan.stamp?_snapshotOf hmet]
  constructor
  · rintro ⟨same, hsame, hmem⟩
    exact Except.ok.inj (hsame.symm.trans hmet) ▸ hmem
  · exact fun hmem => ⟨met, hmet, hmem⟩

/-- Two scans have different snapshots exactly if the agent does not index the same. -/
theorem snapshots_eq_iff {fs files : FileSystem} {hook told : Hook} {s t : Snapshot}
    (hs : (a.scan fs hook).outcome = .ok s) (ht : (a.scan files told).outcome = .ok t) :
    s = t ↔ ∀ path stamp, a.Indexes fs path stamp ↔ a.Indexes files path stamp := by
  simp only [indexes_iff hs, indexes_iff ht]
  refine ⟨fun h path stamp => by rw [h], fun h => ?_⟩
  exact (scan_sorted hs).ext (scan_sorted ht) fun path => Option.ext fun stamp => h path stamp

theorem map_found?_eq (h : ∀ v ∈ vs, ∃ s, a.found? v = some s) :
    vs.map a.found? = (a.scans vs).map some := by
  induction vs with
  | nil => rfl
  | cons v rest ih =>
    obtain ⟨s, hs⟩ := h v List.mem_cons_self
    have hrest := ih fun w hw => h w (List.mem_cons_of_mem _ hw)
    have hscans : a.scans (v :: rest) = s :: a.scans rest := by simp [scans, hs]
    rw [hscans, List.map_cons, List.map_cons, hs, hrest]

theorem generation_reload (a : Agent) (v : Visit) :
    a.generation ≤ (a.reload v.fs v.hook).agent.generation ∧
      (a.reload v.fs v.hook).agent.generation ≤ a.generation + 1 := by
  rcases a.reload_cases v.fs v.hook with ⟨_, _, _, h⟩ | ⟨_, _, h⟩ | ⟨_, _, _, _, h⟩
  all_goals simp [h]

theorem exists_found?_of_reload {v : Visit} {changed : Bool}
    (h : (a.reload v.fs v.hook).outcome = .ok changed) : ∃ s, a.found? v = some s := by
  rcases a.reload_cases v.fs v.hook with ⟨_, _, hout, _⟩ | ⟨hscan, _⟩ | ⟨_, hscan, _⟩
  · cases hout.symm.trans h
  · exact ⟨_, found?_eq_some_iff.mpr hscan⟩
  · exact ⟨_, found?_eq_some_iff.mpr hscan⟩

theorem follows_of_start {kind : AgentKind} {root : Path} {flat : Bool} {v : Visit}
    {started : Agent} (h : (start kind root flat v.fs v.hook).outcome = .ok started) :
    started.Follows [v] ∧ ∃ s, started.found? v = some s := by
  have hscan := snapshot_of_start h
  rw [← scan_of_start h] at hscan
  exact ⟨Follows.of_start h, _, found?_eq_some_iff.mpr hscan⟩

theorem found?_getLastD {first : Visit} (h : ∀ v ∈ first :: vs, ∃ s, a.found? v = some s) :
    a.found? (vs.getLastD first) = some ((a.scans (first :: vs)).getLastD []) := by
  have hlast := congrArg List.getLast? (map_found?_eq h)
  rw [List.getLast?_map, List.getLast?_map, List.getLast?_cons, Option.map_some] at hlast
  cases hscans : (a.scans (first :: vs)).getLast? with
  | none => simp [hscans] at hlast
  | some s =>
    rw [hscans] at hlast
    rw [List.getLastD_eq_getLast?, List.getLastD_eq_getLast?, hscans]
    exact Option.some.inj hlast

/-- A look that completes begins no new generation exactly if the agent indexes what it did at a
look that found its snapshot. -/
theorem generation_reload_eq_iff {v last : Visit} {s : Snapshot}
    (hlast : a.found? last = some a.snapshot) (hs : a.found? v = some s) :
    (a.reload v.fs v.hook).agent.generation = a.generation ↔
      ∀ path stamp, a.Indexes last.fs path stamp ↔ a.Indexes v.fs path stamp := by
  have hscan := found?_eq_some_iff.mp hs
  rw [(reload_of_scan_eq_ok hscan).2.2, ← snapshots_eq_iff (found?_eq_some_iff.mp hlast) hscan]
  by_cases h : s = a.snapshot
  · simp [h]
  · simp [h, Ne.symm h]

theorem found?_after (a : Agent) (vs : List Visit) : (a.after vs).found? = a.found? :=
  funext fun v => by rw [found?, scan_after, found?]

end Agent

namespace Server

variable {c : Controller} {s : Session}

def Call.isNews : Call → Bool
  | .filesChanged _ => true
  | _ => false

def Turn.look (t : Turn) : Agent.Visit := ⟨t.fs, .calm⟩

def looks (ts : List Turn) : List Agent.Visit :=
  (ts.filter fun t => t.call.isNews).map Turn.look

/-- No news of a run fails. -/
def Untroubled (c : Controller) (ts : List Turn) : Prop :=
  ∀ earlier t later, ts = earlier ++ t :: later → t.call.isNews = true →
    ∃ answer, (t.perform (after c earlier)).outcome = .ok answer

theorem untroubled_nil (c : Controller) : Untroubled c [] := by
  rintro earlier t later h
  simp at h

theorem untroubled_cons {t : Turn} {ts : List Turn} :
    Untroubled c (t :: ts) ↔
      (t.call.isNews = true → ∃ answer, (t.perform c).outcome = .ok answer) ∧
        Untroubled (t.perform c).controller ts := by
  constructor
  · intro h
    refine ⟨h [] t ts rfl, ?_⟩
    rintro earlier u later rfl
    exact h (t :: earlier) u later rfl
  · rintro ⟨hfirst, hrest⟩ earlier u later hsplit
    cases earlier with
    | nil =>
      obtain ⟨rfl, rfl⟩ := List.cons.inj hsplit
      exact hfirst
    | cons first earlier =>
      obtain ⟨rfl, htail⟩ := List.cons.inj hsplit
      exact hrest earlier u later htail

/-! ### One turn -/

/-- With a session, only news of changed files change anything. -/
theorem perform_keeps_of_not_news (h : c.session = some s) {t : Turn}
    (hcall : t.call.isNews = false) : (t.perform c).controller = c := by
  obtain ⟨fs, call⟩ := t
  by_cases hquestion : call.isQuestion = true
  · exact perform_question_keeps hquestion c fs
  · cases call with
    | handshake folders =>
      have hready : c.ready = true := Controller.ready_iff.mpr ⟨s, h⟩
      rw [Turn.perform, Call.perform, controller_handshake, Controller.handshake_of_ready hready]
    | initialized watching => exact initialized_keeps c watching
    | filesChanged count => cases hcall
    | _ => exact absurd rfl hquestion

theorem filesChanged_of_some (h : c.session = some s) (fs : FileSystem) (count : Nat) :
    ∃ next, (filesChanged c fs count).controller.session = some next ∧
      (∀ kind, next.agent kind = s.agent kind ∨
        next.agent kind = ((s.agent kind).reload fs .calm).agent) ∧
      ∀ answer, (filesChanged c fs count).outcome = .ok answer → ∀ kind,
        next.agent kind = ((s.agent kind).reload fs .calm).agent ∧
          ∃ snapshot, (s.agent kind).found? ⟨fs, .calm⟩ = some snapshot := by
  simp only [filesChanged, h]
  cases hconfig : (s.configAgent.reload fs .calm).outcome with
  | error fault =>
    refine ⟨_, rfl, fun kind => ?_, fun answer hanswer => by cases hanswer⟩
    cases kind with
    | config => exact Or.inr rfl
    | registry => exact Or.inl rfl
  | ok configChanged =>
    cases hregistry : (s.registryAgent.reload fs .calm).outcome with
    | error fault =>
      refine ⟨_, rfl, fun kind => Or.inr ?_, fun answer hanswer => by cases hanswer⟩
      cases kind <;> rfl
    | ok registryChanged =>
      refine ⟨_, rfl, fun kind => Or.inr ?_, fun answer _ kind => ?_⟩
      · cases kind <;> rfl
      · cases kind with
        | config => exact ⟨rfl, Agent.exists_found?_of_reload hconfig⟩
        | registry => exact ⟨rfl, Agent.exists_found?_of_reload hregistry⟩

theorem filesChanged_controller (c : Controller) (fs : FileSystem) (count other : Nat) :
    (filesChanged c fs count).controller = (filesChanged c fs other).controller := by
  unfold filesChanged
  split
  · rfl
  · simp only
    split
    · rfl
    · split <;> rfl

/-- Of a notice of changed files only the moment counts, not what it says. -/
theorem controller_note_filesChanged (e : Endpoint) (fs : FileSystem) (params : Value)
    (count : Nat) :
    (e.note fs "workspace/didChangeWatchedFiles" params).endpoint.controller =
      (filesChanged e.controller fs count).controller := by
  have hnotCancel : "workspace/didChangeWatchedFiles".toList ≠ "$/cancelRequest".toList := by decide
  have hcall : e.noticeCall? "workspace/didChangeWatchedFiles" params =
      some (.filesChanged (itemsPart params ["changes"]).length) := rfl
  rw [Endpoint.note, if_neg hnotCancel, hcall]
  simp only [Endpoint.perform, Call.perform]
  rw [filesChanged_controller e.controller fs count (itemsPart params ["changes"]).length]
  split <;> rfl

theorem perform_of_some (h : c.session = some s) (t : Turn) :
    ∃ next, (t.perform c).controller.session = some next ∧ ∀ kind,
      next.agent kind = s.agent kind ∨
        next.agent kind = ((s.agent kind).reload t.fs .calm).agent := by
  by_cases hnews : t.call.isNews = true
  · obtain ⟨fs, call⟩ := t
    cases call with
    | filesChanged count =>
      obtain ⟨next, hnext, hagents, _⟩ := filesChanged_of_some h fs count
      exact ⟨next, hnext, hagents⟩
    | _ => cases hnews
  · rw [perform_keeps_of_not_news h (by simpa using hnews)]
    exact ⟨s, h, fun kind => Or.inl rfl⟩

theorem perform_news_of_some (h : c.session = some s) {t : Turn} (hnews : t.call.isNews = true)
    {answer : Answer} (hout : (t.perform c).outcome = .ok answer) :
    ∃ next, (t.perform c).controller.session = some next ∧ ∀ kind,
      next.agent kind = ((s.agent kind).reload t.fs .calm).agent ∧
        ∃ snapshot, (s.agent kind).found? t.look = some snapshot := by
  obtain ⟨fs, call⟩ := t
  cases call with
  | filesChanged count =>
    obtain ⟨next, hnext, _, hlooked⟩ := filesChanged_of_some h fs count
    exact ⟨next, hnext, hlooked answer hout⟩
  | _ => cases hnews

/-! ### Runs -/

theorem generation_le_run (h : c.session = some s) (ts : List Turn) :
    ∃ later, (after c ts).session = some later ∧
      ∀ kind, (s.agent kind).generation ≤ (later.agent kind).generation := by
  induction ts generalizing c s with
  | nil => exact ⟨s, h, fun kind => le_rfl⟩
  | cons t rest ih =>
    obtain ⟨next, hnext, hagents⟩ := perform_of_some h t
    obtain ⟨later, hlater, hle⟩ := ih hnext
    refine ⟨later, hlater, fun kind => le_trans ?_ (hle kind)⟩
    rcases hagents kind with heq | heq
    · rw [heq]
    · rw [heq]
      exact ((s.agent kind).generation_reload ⟨t.fs, .calm⟩).1

/-- A run in which no news fail is, for each agent, the run of its looks. -/
theorem session_after (h : c.session = some s) {ts : List Turn} (hcalm : Untroubled c ts) :
    ∃ later, (after c ts).session = some later ∧ ∀ kind,
      later.agent kind = (s.agent kind).after (looks ts) ∧
        ∀ v ∈ looks ts, ∃ snapshot, (s.agent kind).found? v = some snapshot := by
  induction ts generalizing c s with
  | nil => exact ⟨s, h, fun kind => ⟨rfl, fun v hv => by simp [looks] at hv⟩⟩
  | cons t rest ih =>
    obtain ⟨hfirst, hrest⟩ := untroubled_cons.mp hcalm
    by_cases hnews : t.call.isNews = true
    · obtain ⟨answer, hout⟩ := hfirst hnews
      obtain ⟨next, hnext, hlooked⟩ := perform_news_of_some h hnews hout
      obtain ⟨later, hlater, hagents⟩ := ih hnext hrest
      have hlooks : looks (t :: rest) = t.look :: looks rest := by simp [looks, hnews]
      refine ⟨later, hlater, fun kind => ?_⟩
      obtain ⟨hagent, hfound⟩ := hlooked kind
      obtain ⟨hafter, hothers⟩ := hagents kind
      rw [hlooks]
      refine ⟨by rw [hafter, hagent]; rfl, fun v hv => ?_⟩
      rcases List.mem_cons.mp hv with rfl | hv
      · exact hfound
      · have hsame : (next.agent kind).found? = (s.agent kind).found? := by
          rw [hagent]
          exact Agent.found?_after (s.agent kind) [t.look]
        rw [← hsame]
        exact hothers v hv
    · have hkeeps := perform_keeps_of_not_news h (t := t) (by simpa using hnews)
      have hlooks : looks (t :: rest) = looks rest := by simp [looks, hnews]
      rw [hkeeps] at hrest
      rw [after, hkeeps, hlooks]
      exact ih h hrest

/-- The handshake that succeeds is the first look of both agents. -/
theorem session_of_greets {t : Turn} (h : t.Greets c) :
    ∃ s, (t.perform c).controller.session = some s ∧ ∀ kind,
      (s.agent kind).Follows [t.look] ∧
        ∃ snapshot, (s.agent kind).found? t.look = some snapshot := by
  obtain ⟨fs, call⟩ := t
  obtain ⟨⟨folders, hcall⟩, answer, hout⟩ := h
  obtain rfl : call = .handshake folders := hcall
  have hdone : ∃ s, (c.handshake fs .clear .calm folders).outcome = .ok s := by
    rw [Turn.perform, Call.perform, handshake_outcome] at hout
    split at hout
    · exact ⟨_, by assumption⟩
    · cases hout
    · cases hout
  obtain ⟨s, hs⟩ := hdone
  have hgrants := (Controller.handshake_eq_ok_iff.mp hs).2
  refine ⟨s, ?_, fun kind => ?_⟩
  · rw [Turn.perform, Call.perform, controller_handshake, Controller.handshake_controller, hs]
  · cases kind with
    | config => exact Agent.follows_of_start (Controller.Attempt.start_of_run hgrants.config)
    | registry => exact Agent.follows_of_start (Controller.Attempt.start_of_run hgrants.registry)

/-- The account of the generations. After a handshake that succeeds and a run in which no news of
changed files fail, the generations are told, for each agent, as the number of times that the
snapshots of its looks differ from the one before, the first from the empty one; each look completes
and the agent holds the snapshot of the last. No call but the news changes anything, and of the news
it does not count what they say. Whatever comes next, no generation falls, and none grows by more
than one in a turn; with news it stays exactly if the agent indexes what it did at its last look,
whatever else has changed. -/
theorem generations_of_run {before since : List Turn} {greeting : Turn}
    (hgreets : greeting.Greets (after Controller.fresh before))
    (hcalm : Untroubled (after Controller.fresh (before ++ [greeting])) since) :
    let c := after Controller.fresh (before ++ greeting :: since)
    let taken := greeting.look :: looks since
    let last := (looks since).getLastD greeting.look
    ∃ s, c.session = some s ∧
      (∀ fs, (Call.generations.perform c fs).outcome =
        .ok (.generations (s.agent .config).generation (s.agent .registry).generation)) ∧
      (∀ kind, let scans := (s.agent kind).scans taken
        taken.map (s.agent kind).found? = scans.map some ∧
        (s.agent kind).snapshot = scans.getLastD [] ∧
        (s.agent kind).generation = Snapshot.changes [] scans) ∧
      (∀ t : Turn, t.call.isNews = false → (t.perform c).controller = c) ∧
      (∀ (e : Endpoint) (fs : FileSystem) (params : Value) (count : Nat), e.controller = c →
        (e.note fs "workspace/didChangeWatchedFiles" params).endpoint.controller =
          (filesChanged c fs count).controller) ∧
      (∀ more, ∃ later, (after c more).session = some later ∧
        ∀ kind, (s.agent kind).generation ≤ (later.agent kind).generation) ∧
      ∀ t : Turn, ∃ next, (t.perform c).controller.session = some next ∧ ∀ kind,
        (next.agent kind).generation ≤ (s.agent kind).generation + 1 ∧
        (t.call.isNews = true → (∃ answer, (t.perform c).outcome = .ok answer) →
          ((next.agent kind).generation = (s.agent kind).generation ↔
            ∀ path stamp, (s.agent kind).Indexes last.fs path stamp ↔
              (s.agent kind).Indexes t.fs path stamp)) := by
  intro c taken last
  obtain ⟨s₀, hs₀, hstarted⟩ := session_of_greets hgreets
  have hfirst : after Controller.fresh (before ++ [greeting]) =
      (greeting.perform (after Controller.fresh before)).controller := after_append _ _ _
  rw [hfirst] at hcalm
  obtain ⟨s, hs, hrun⟩ := session_after hs₀ hcalm
  have hc : c.session = some s := by
    rw [← hs, show c = _ from after_append _ _ _]
    rfl
  -- what an agent finds does not depend on its looks, so they can be told from its end
  have hfollows (kind : AgentKind) : (s.agent kind).Follows taken := by
    rw [(hrun kind).1]
    exact (hstarted kind).1.after (looks since)
  have hfound (kind : AgentKind) : ∀ v ∈ taken, ∃ snapshot, (s.agent kind).found? v =
      some snapshot := by
    rw [(hrun kind).1, Agent.found?_after]
    intro v hv
    rcases List.mem_cons.mp hv with rfl | hv
    · exact (hstarted kind).2
    · exact (hrun kind).2 v hv
  refine ⟨s, hc, fun fs => ?_, fun kind => ?_, fun t => perform_keeps_of_not_news hc, ?_,
    generation_le_run hc, fun t => ?_⟩
  · simp only [Call.perform, generations, withSession_of_some hc]
    rfl
  · exact ⟨Agent.map_found?_eq (hfound kind), (hfollows kind).snapshot, (hfollows kind).generation⟩
  · intro e fs params count hcontroller
    rw [← hcontroller]
    exact controller_note_filesChanged e fs params count
  · obtain ⟨next, hnext, hagents⟩ := perform_of_some hc t
    refine ⟨next, hnext, fun kind => ⟨?_, fun hnews hanswered => ?_⟩⟩
    · rcases hagents kind with heq | heq
      · simp [heq]
      · rw [heq]
        exact ((s.agent kind).generation_reload ⟨t.fs, .calm⟩).2
    · obtain ⟨answer, hout⟩ := hanswered
      obtain ⟨same, hsame, hlooked⟩ := perform_news_of_some hc hnews hout
      obtain rfl : next = same := Option.some.inj (hnext.symm.trans hsame)
      obtain ⟨hagent, snapshot, hscan⟩ := hlooked kind
      have hlast := Agent.found?_getLastD (hfound kind)
      rw [← (hfollows kind).snapshot] at hlast
      have hiff := Agent.generation_reload_eq_iff hlast hscan
      rw [hagent]
      exact hiff

/-- Over the workspace `/w`, of which only a file of the configuration changes: after two news, with
a hover and a second handshake in between, the configuration is in its second generation and the
registry still in its first. -/
theorem generations_of_run_in_workspace :
    let tree (stamp : Int) : FileSystem := .ofListing (.directory "w" (.directory "ci-operator"
      (.directory "config" (.file "a.yaml" [] stamp .empty)
        (.directory "step-registry" (.file "a-ref.yaml" [] 1 .empty) .empty)) .empty) .empty)
    let folders : Value := .list [.table [("uri", .text "file:///w")]]
    let since : List Turn := [⟨tree 2, .hover "file:///w/a.yaml" 0⟩, ⟨tree 2, .filesChanged 3⟩,
      ⟨tree 1, .handshake folders⟩, ⟨tree 2, .filesChanged 0⟩]
    let c := after Controller.fresh
      ([⟨tree 1, .handshake .null⟩] ++ ⟨tree 1, .handshake folders⟩ :: since)
    (generations c).outcome = .ok (.generations 2 1) := by
  intro tree folders since c
  let greeting : Turn := ⟨tree 1, .handshake folders⟩
  let before : List Turn := [⟨tree 1, .handshake .null⟩]
  have hgreets : greeting.Greets (after Controller.fresh before) :=
    ⟨⟨folders, rfl⟩, .nothing, by decide +kernel⟩
  have hcalm : Untroubled (after Controller.fresh (before ++ [greeting])) since := by
    refine untroubled_cons.mpr ⟨nofun, untroubled_cons.mpr ⟨fun _ => ⟨.nothing, ?_⟩,
      untroubled_cons.mpr ⟨nofun, untroubled_cons.mpr ⟨fun _ => ⟨.nothing, ?_⟩, untroubled_nil _⟩⟩⟩⟩
    all_goals decide +kernel
  obtain ⟨s, hs, htold, haccount, _⟩ := generations_of_run hgreets hcalm
  have hgenerations : c.session.map (fun s =>
      [AgentKind.config, .registry].map fun kind =>
        Snapshot.changes [] ((s.agent kind).scans (greeting.look :: looks since))) =
      some [2, 1] := by decide +kernel
  rw [show c.session = some s from hs] at hgenerations
  obtain ⟨hconfig, hregistry⟩ : (s.agent .config).generation = 2 ∧
      (s.agent .registry).generation = 1 := by
    rw [(haccount .config).2.2, (haccount .registry).2.2]
    simpa using hgenerations
  have hanswer := htold (tree 2)
  rwa [hconfig, hregistry] at hanswer

end Server
end StepLocator
