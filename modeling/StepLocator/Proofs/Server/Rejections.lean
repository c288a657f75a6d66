import StepLocator.Proofs.Server.Handlers

/-!
How a handshake ends, in whatever way agents are started. It makes a session or is rejected, and the
client learns of a rejection that there is no use in trying again. Between the folders and the
agents there is one gap: a root that holds the character number zero is neither accepted nor
rejected.
-/
namespace StepLocator

theorem Path.mem_toText_of_mem {t : Text} {c : Char} (h : c ∈ t) (hslash : c ≠ '/')
    (hdot : c ≠ '.') : c ∈ (ofText t).toText := by
  have hjoin : List.intercalate ['/'] (t.splitOn '/') = t := List.intercalate_splitOn '/'
  obtain ⟨part, hpart, hc⟩ : ∃ part ∈ t.splitOn '/', c ∈ part :=
    (mem_intercalate (hjoin.symm ▸ h)).resolve_left fun hmem =>
      hslash (List.mem_singleton.mp hmem)
  have hname : isName part = true := by
    rw [isName, Bool.and_eq_true, Bool.not_eq_true', bne_iff_ne]
    refine ⟨List.isEmpty_eq_false_iff.mpr (List.ne_nil_of_mem hc), ?_⟩
    rintro rfl
    exact hdot (List.mem_singleton.mp hc)
  have hnames : part ∈ (ofText t).names := List.mem_filter.mpr ⟨hpart, hname⟩
  rw [toText_of_names_ne_nil (List.ne_nil_of_mem hnames)]
  exact List.mem_append_right _ (mem_intercalate_of_mem hnames hc)

theorem Path.nul_mem_toText_ofText_iff {t : Text} :
    '\x00' ∈ (ofText t).toText ↔ '\x00' ∈ t := by
  constructor
  · exact fun h => (mem_toText_ofText h).resolve_right (by decide)
  · exact fun h => mem_toText_of_mem h (by decide) (by decide)

namespace Folders

/-- The one folder that a client offers is at a URI with the character number zero in its path. -/
def NamesNul (folders : Value) : Prop :=
  ∃ offered, read folders = .ok offered ∧
    '\x00' ∈ Percent.decode (Text.withoutStart Uri.scheme offered.uri)

theorem root_eq_nul_iff {fs : FileSystem} {folders : Value} :
    root fs folders = .error .nulInPath ↔ NamesNul folders := by
  unfold root NamesNul
  cases hread : read folders with
  | error findings => simp
  | ok offered =>
    have hentry : fs.entry (Uri.folderPath offered.uri).toText = .error .nulInPath ↔
        '\x00' ∈ Percent.decode (Text.withoutStart Uri.scheme offered.uri) := by
      rw [FileSystem.entry_eq_nul_iff, Uri.folderPath, Path.nul_mem_toText_ofText_iff]
    simp only [Except.ok.injEq, exists_eq_left', ← hentry]
    split <;> simp_all

end Folders

namespace Controller

def establishBy (c : Controller) (start : Attempt → Attempted) (root : Path) : Handshake :=
  let layout := Layout.ofRoot root
  let first : Attempt := ⟨.config, layout.configRoot⟩
  let config := start first
  match config.outcome with
  | .error failure =>
    ⟨.error (.rejected (.agent .config failure)), c, [first], config.reports, config.records⟩
  | .ok configAgent =>
    let second : Attempt := ⟨.registry, layout.registryRoot⟩
    let registry := start second
    let reports := config.reports ++ registry.reports
    let records := config.records ++ registry.records
    match registry.outcome with
    | .error failure =>
      ⟨.error (.rejected (.agent .registry failure)), c, [first, second], reports, records⟩
    | .ok registryAgent =>
      let session : Session := ⟨layout, configAgent, registryAgent⟩
      ⟨.ok session, ⟨some session⟩, [first, second], reports, records ++ [readyRecord session]⟩

/-- A handshake where agents are started in a given way. -/
def handshakeBy (c : Controller) (fs : FileSystem) (start : Attempt → Attempted)
    (folders : Value) : Handshake :=
  if c.ready then ⟨.error (.rejected .alreadyReady), c, [], [], []⟩
  else
    match Folders.root fs folders with
    | .ok root => c.establishBy start root
    | .error (.shape findings) => ⟨.error (.rejected (.folders findings)), c, [], [], []⟩
    | .error (.inaccessible root cause path) =>
      ⟨.error (.rejected (.inaccessible root cause path)), c, [], [], []⟩
    | .error .nulInPath => ⟨.error .nulInPath, c, [], [], []⟩

variable {c : Controller} {fs : FileSystem} {start : Attempt → Attempted} {folders : Value}

theorem handshakeBy_run (c : Controller) (fs : FileSystem) (obstacles : Obstacles) (hook : Hook)
    (folders : Value) :
    c.handshakeBy fs (fun attempt => attempt.run fs obstacles hook) folders =
      c.handshake fs obstacles hook folders := rfl

/-- A handshake has made a session, or was rejected and has changed nothing. -/
def Handshake.Decided (h : Handshake) (c : Controller) : Prop :=
  (∃ s, h.outcome = .ok s ∧ h.controller = ⟨some s⟩) ∨
    ∃ rejection, h.outcome = .error (.rejected rejection) ∧ h.controller = c

theorem decided_establishBy (root : Path) : (c.establishBy start root).Decided c := by
  unfold establishBy
  simp only
  split
  · exact .inr ⟨_, rfl, rfl⟩
  · split
    · exact .inr ⟨_, rfl, rfl⟩
    · exact .inl ⟨_, rfl, rfl⟩

theorem handshakeBy_of_nul (hready : c.ready = false) (hnul : Folders.NamesNul folders) :
    c.handshakeBy fs start folders = ⟨.error .nulInPath, c, [], [], []⟩ := by
  have hroot : Folders.root fs folders = .error .nulInPath := Folders.root_eq_nul_iff.mpr hnul
  rw [handshakeBy, hready, hroot]
  rfl

theorem decided_handshakeBy (h : c.ready = true ∨ ¬ Folders.NamesNul folders) :
    (c.handshakeBy fs start folders).Decided c := by
  unfold handshakeBy
  split
  · exact .inr ⟨_, rfl, rfl⟩
  · rename_i hready
    split
    · exact decided_establishBy _
    · exact .inr ⟨_, rfl, rfl⟩
    · exact .inr ⟨_, rfl, rfl⟩
    · rename_i hroot
      exact absurd (Folders.root_eq_nul_iff.mp hroot) (h.resolve_left hready)

end Controller

namespace Server

def handshakeBy (c : Controller) (fs : FileSystem)
    (start : Controller.Attempt → Controller.Attempted) (folders : Value) : Handled :=
  let done := c.handshakeBy fs start folders
  match done.outcome with
  | .ok _ => ⟨.ok .nothing, done.controller, [], done.records⟩
  | .error (.rejected rejection) =>
    ⟨.error (.refused (.rejected rejection)), done.controller, [],
      done.records ++
        [serverRecord Log.error ("initialize rejected: " ++ rejection.message)]⟩
  | .error .nulInPath => ⟨.error .nulInPath, done.controller, [], done.records⟩

/-- A handshake with the server is the case where nothing keeps the agents from starting. -/
theorem handshakeBy_run (c : Controller) (fs : FileSystem) (folders : Value) :
    handshakeBy c fs (fun attempt => attempt.run fs .clear .calm) folders =
      handshake c fs folders := rfl

theorem handshakeBy_outcome (c : Controller) (fs : FileSystem)
    (start : Controller.Attempt → Controller.Attempted) (folders : Value) :
    (handshakeBy c fs start folders).controller = (c.handshakeBy fs start folders).controller ∧
    (handshakeBy c fs start folders).outcome =
      match (c.handshakeBy fs start folders).outcome with
      | .ok _ => .ok .nothing
      | .error (.rejected rejection) => .error (.refused (.rejected rejection))
      | .error .nulInPath => .error .nulInPath := by
  unfold handshakeBy
  generalize c.handshakeBy fs start folders = done
  obtain ⟨outcome, controller, attempts, reports, records⟩ := done
  cases outcome with
  | ok session => exact ⟨rfl, rfl⟩
  | error fault =>
    cases fault with
    | rejected rejection => exact ⟨rfl, rfl⟩
    | nulInPath => exact ⟨rfl, rfl⟩

/-- How a handshake ends, whatever folders are offered, whatever the files are and however agents
are started. With a session already there, or a root without the character number zero, it makes a
session and is answered, or it is rejected, changes nothing and is refused as not to be tried again.
In the one case that is left, no agent is started, nothing changes, and it fails in a way that is
not foreseen. -/
theorem handshake_ends (c : Controller) (fs : FileSystem)
    (start : Controller.Attempt → Controller.Attempted) (folders : Value) :
    let done := c.handshakeBy fs start folders
    let answered := handshakeBy c fs start folders
    (c.ready = true ∨ ¬ Folders.NamesNul folders →
      (∃ s, done.outcome = .ok s ∧ done.controller = ⟨some s⟩ ∧
        answered.outcome = .ok .nothing ∧ answered.controller = ⟨some s⟩) ∨
      ∃ rejection refusal, done.outcome = .error (.rejected rejection) ∧ done.controller = c ∧
        answered.outcome = .error (.refused refusal) ∧ answered.controller = c ∧
        refusal.code = -32602 ∧ refusal.data = .table [("retry", .bool false)] ∧
        refusal.message = rejection.message) ∧
    (c.ready = false → Folders.NamesNul folders →
      done.outcome = .error .nulInPath ∧ done.controller = c ∧ done.attempts = [] ∧
        answered.outcome = .error .nulInPath ∧ answered.controller = c) := by
  intro done answered
  obtain ⟨hcontroller, houtcome⟩ := handshakeBy_outcome c fs start folders
  refine ⟨fun h => ?_, fun hready hnul => ?_⟩
  · rcases Controller.decided_handshakeBy h with ⟨s, hdone, hs⟩ | ⟨rejection, hdone, hkept⟩
    · rw [hdone] at houtcome
      exact .inl ⟨s, hdone, hs, houtcome, hcontroller.trans hs⟩
    · rw [hdone] at houtcome
      exact .inr ⟨rejection, .rejected rejection, hdone, hkept, houtcome, hcontroller.trans hkept,
        rfl, rfl, rfl⟩
  · have hdone : done = ⟨.error .nulInPath, c, [], [], []⟩ :=
      Controller.handshakeBy_of_nul hready hnul
    rw [show c.handshakeBy fs start folders = done from rfl, hdone] at hcontroller houtcome
    exact ⟨by rw [hdone], by rw [hdone], by rw [hdone], houtcome, hcontroller⟩

/-- The folder at `file:///a%00b` is neither accepted nor rejected. -/
theorem handshake_with_nul_fails :
    let fs : FileSystem := .ofListing (.directory "w" .empty .empty)
    let folders : Value := .list [.table [("uri", .text "file:///a%00b")]]
    (Controller.fresh.handshake fs .clear .calm folders).outcome = .error .nulInPath ∧
    (handshake .fresh fs folders).outcome = .error .nulInPath := by
  intro fs folders
  have hnul : Folders.NamesNul folders := ⟨⟨"file:///a%00b", none⟩, rfl, by decide +kernel⟩
  have hdone : Controller.fresh.handshakeBy fs (fun a => a.run fs .clear .calm) folders =
      ⟨.error .nulInPath, .fresh, [], [], []⟩ := Controller.handshakeBy_of_nul rfl hnul
  rw [← Controller.handshakeBy_run, ← handshakeBy_run, (handshakeBy_outcome _ _ _ _).2, hdone]
  exact ⟨rfl, rfl⟩

end Server
end StepLocator
