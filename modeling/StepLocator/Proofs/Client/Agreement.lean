import StepLocator.Proofs.Client.Conversation
import StepLocator.Proofs.Client.Reaping

/-!
Two ways to ask. Whoever asks a server process over a channel gets what the handlers give to whoever
calls them directly: the same places, or the same text of a refusal.
-/
namespace StepLocator
namespace Local

open Server Channel Consultation

/-- A server as a process that gives its words in some pieces, and whose requests have a mark; the
one of the command line gives them whole. -/
def process (fs : FileSystem) (mark : Text) (cuts : List Nat) : Child State :=
  { child fs with
    state := ⟨Endpoint.fresh mark, []⟩
    output := { (child fs).output with cuts := cuts } }

example (fs : FileSystem) : child fs = process fs requestMark [] := rfl

/-- The outcomes of a question that is asked directly and of one that is asked over a channel are
the same: the same places, refusals with the same text, or a rejected handshake for the same
cause. -/
def SameOutcome (direct : Except Local.Fault (List Value))
    (remote : Except Consultation.Fault (List Value)) : Prop :=
  (∃ places, direct = .ok places ∧ remote = .ok places) ∨
  (∃ refusal text m, direct = .error (.refused refusal) ∧ remote = .error (.refused text) ∧
    (Local.Fault.refused refusal).message = "LSP error: " ++ m ∧
    (Consultation.Fault.refused text).message = "LSP error: " ++ m) ∨
  (∃ rejection text, direct = .error (.handshake (.rejected rejection)) ∧
    remote = .error (.rejected text) ∧
    (Consultation.Fault.rejected text).message =
      "initialize rejected: " ++ (Local.Fault.handshake (.rejected rejection)).message)

section

variable {fs : FileSystem} {mark : Text} {cuts : List Nat} {workspace : Path} {query : Query}
  {listeners : Listeners} {span : Int} {after : State}

theorem at_begin (fs : FileSystem) (mark : Text) (cuts : List Nat) (h : shortestSpan ≤ span) :
    (channelTo (process fs mark cuts) span).At ⟨Endpoint.fresh mark, []⟩ [] := by
  refine ⟨rfl, rfl, ⟨?_, ?_⟩, rfl⟩
  · simpa [channelTo, Channel.begin] using h
  · intro most hmost
    obtain rfl : Incoming.wordLimit = most := Option.some.inj hmost
    exact Nat.le_refl _

theorem talk_process (hspan : span ≤ Patience.longestWait) :
    talk (process fs mark cuts) listeners fs workspace query span =
      converse (peer fs) listeners fs workspace query := by
  have hword : (process fs mark cuts).patience.wordExcess? span = none :=
    Patience.wordExcess?_ofSystem hspan
  rw [talk, hword]
  rfl

/-- A process that leaves in order gives the answer in its reply. -/
theorem attend_of_yields_ok (h : shortestSpan ≤ span) (hspan : span ≤ Patience.longestWait)
    {reply : Entries} (hleft : after.endpoint.exitCode = some 0)
    (yields : Yields (converse (peer fs) listeners fs workspace query) ⟨Endpoint.fresh mark, []⟩ []
      (.ok reply) after []) :
    (attend (process fs mark cuts) listeners fs workspace query span).outcome =
      answerOf reply ⟨some 0, []⟩ [] := by
  obtain ⟨ch, hover, hat⟩ := yields _ (at_begin fs mark cuts h)
  have hrun : ((talk (process fs mark cuts) listeners fs workspace query span).run
      (channelTo (process fs mark cuts) span)).run = (.ok reply, ch) := by
    rw [talk_process hspan]
    exact hover
  have hpipes : requirePipes (process fs mark cuts) = .ok () := rfl
  have hcode : (process fs mark cuts).process.poll ch.peer = some 0 := by
    rw [hat.peer]
    exact hleft
  have hwait : (process fs mark cuts).process.communicate ch.peer = (some [], ch.peer) := by
    show (if (ch.peer.endpoint.exitCode).isSome then _ else _) = _
    rw [hat.peer, hleft]
    rfl
  have hawait : (process fs mark cuts).process.await ⟨ch.peer, []⟩ = ([], ⟨ch.peer, []⟩) :=
    Process.await_of_left hwait
  have hreap : (process fs mark cuts).process.reap ⟨ch.peer, []⟩ = ⟨ch.peer, []⟩ :=
    Process.reap_of_ended (by simp [hcode])
  have hend : (process fs mark cuts).patience.endExcess? span = none :=
    Patience.endExcess?_ofSystem hspan
  rw [attend, hpipes]
  simp only [hrun, hend, hawait, hreap, Consulted.ofHeld, Process.fate, hcode]

theorem attend_of_yields_error (h : shortestSpan ≤ span) (hspan : span ≤ Patience.longestWait)
    {fault : Consultation.Fault}
    (yields : Yields (converse (peer fs) listeners fs workspace query) ⟨Endpoint.fresh mark, []⟩ []
      (.error fault) after []) :
    (attend (process fs mark cuts) listeners fs workspace query span).outcome = .error fault := by
  obtain ⟨ch, hover, hat⟩ := yields _ (at_begin fs mark cuts h)
  have hrun : ((talk (process fs mark cuts) listeners fs workspace query span).run
      (channelTo (process fs mark cuts) span)).run = (.error fault, ch) := by
    rw [talk_process hspan]
    exact hover
  have hpipes : requirePipes (process fs mark cuts) = .ok () := rfl
  rw [attend, hpipes]
  simp only [hrun, Consulted.ofHeld]

end

theorem answerOf_of_ok {reply : Entries} {id : Value} {answer : Answer}
    (tells : Tells reply id (.ok answer.toValue))
    (h : answer = .nothing ∨ ∃ places, answer = .locations places) :
    answerOf reply ⟨some 0, []⟩ [] = .ok (places answer) := by
  obtain ⟨herror, hresult⟩ := tells.result _ rfl
  have hform : answerOf reply ⟨some 0, []⟩ [] =
      (Reply.locations (Reply.member "result" reply)).mapError .result := by
    rw [answerOf, herror]
    rfl
  have hlocations : Reply.locations answer.toValue = .ok (places answer) := by
    rcases h with rfl | ⟨found, rfl⟩
    · rfl
    · have htables : (found.map Location.toValue).all Value.isTable = true := by
        simp [Location.toValue, object, Value.isTable]
      rw [Answer.toValue, Reply.locations, if_pos htables]
      rfl
  rw [hform, hresult, hlocations]
  rfl

theorem answerOf_of_error {reply : Entries} {id : Value} {failure : Failure}
    (tells : Tells reply id (.error failure)) :
    answerOf reply ⟨some 0, []⟩ [] = .error (.refused failure.report) := by
  obtain ⟨herror, htext⟩ := tells.failure _ rfl
  simp [answerOf, herror, htext]

theorem ask_of_ok {fs : FileSystem} {root : Option Path} {query : Query} {workspace : Path}
    {uri : Text} (hworkspace : Query.workspace fs root = .ok workspace)
    (huri : query.documentUri fs = .ok uri) (hposition : badNumber? query = none)
    {session : Session} (h : offered fs workspace = .ok session) :
    (ask Controller.fresh fs root query).outcome =
      match (definition ⟨some session⟩ fs uri query.line).outcome with
      | .ok answer => .ok (places answer)
      | .error (.refused refusal) => .error (.refused refusal)
      | .error failure => .error (.unforeseen failure) := by
  unfold offered at h
  have hcontroller : (Controller.fresh.handshake fs Controller.Obstacles.clear Hook.calm
      (Query.folders workspace)).controller = ⟨some session⟩ := by
    rw [Controller.handshake_controller, h]
  rw [ask, hworkspace]
  simp only [h, huri, hposition, hcontroller]
  generalize definition ⟨some session⟩ fs uri query.line = found
  obtain ⟨outcome, controller, requests, records⟩ := found
  cases outcome with
  | ok answer => rfl
  | error failure =>
    cases failure
    all_goals rfl

theorem ask_of_error {fs : FileSystem} {root : Option Path} {query : Query} {workspace : Path}
    (hworkspace : Query.workspace fs root = .ok workspace) {fault : Controller.Fault}
    (h : offered fs workspace = .error fault) :
    (ask Controller.fresh fs root query).outcome = .error (.handshake fault) := by
  unfold offered at h
  rw [ask, hworkspace]
  simp only [h]

theorem consult_outcome {σ : Type} {child : Child σ} {listeners : Listeners} {fs : FileSystem}
    {root : Option Path} {timeout : Timeout} {query : Query} {workspace : Path} {span : Int}
    (hpositive : timeout.isNonPositive = false)
    (hworkspace : Query.workspace fs root = .ok workspace)
    (hspan : nanoseconds timeout = .ok span) :
    (consult child listeners fs root timeout query).outcome =
      (attend child listeners fs workspace query span).outcome := by
  rw [consult, hpositive, hworkspace]
  simp only [hspan, Bool.false_eq_true, if_false]

theorem readLines_ne_nul_of_documentUri {fs : FileSystem} {query : Query} {uri : Text}
    (huri : query.documentUri fs = .ok uri) : Document.readLines fs uri ≠ .error .nulInPath := by
  cases hdocument : fs.canonical query.document with
  | error fault =>
    rw [Query.documentUri, hdocument] at huri
    cases huri
  | ok document =>
    rw [Query.documentUri, hdocument] at huri
    obtain rfl := Except.ok.inj huri
    exact readLines_ne_nul (FileSystem.canonical_eq_ok hdocument).2 fs

/-- Whoever asks a server process gets what the handlers give to whoever calls them, for every file
system, every workspace and document that there are paths to, every position, and every timeout that
gives the process time to speak and that the system can wait for its end. -/
theorem consult_process_agrees_ask (fs : FileSystem) (root : Option Path) (query : Query)
    (mark : Text) (cuts : List Nat) {workspace : Path} {uri : Text}
    (hworkspace : Query.workspace fs root = .ok workspace)
    (huri : query.documentUri fs = .ok uri)
    (hline : 0 ≤ query.line ∧ query.line ≤ greatestNumber)
    (hcharacter : 0 ≤ query.character ∧ query.character ≤ greatestNumber)
    {listeners : Listeners} (calm : Calm listeners) {timeout : Timeout} {span : Int}
    (hpositive : timeout.isNonPositive = false) (hspan : nanoseconds timeout = .ok span)
    (intime : shortestSpan ≤ span ∧ span ≤ Patience.longestWait)
    (fits : Fits fs mark workspace uri query) :
    SameOutcome (ask Controller.fresh fs root query).outcome
      (consult (process fs mark cuts) listeners fs root timeout query).outcome := by
  obtain ⟨absolute, hnul⟩ := FileSystem.canonical_eq_ok hworkspace
  have hposition : badNumber? query = none := by
    simp [badNumber?, inRange, hline, hcharacter]
  have hword : query.line.natAbs ≤ Incoming.wordLimit := by
    have hgreatest : greatestNumber = 2147483647 := rfl
    have hlimit : Incoming.wordLimit = 9223372036854775807 := rfl
    omega
  rw [consult_outcome hpositive hworkspace hspan]
  cases h : offered fs workspace with
  | error fault =>
    cases fault with
    | nulInPath => exact absurd h (Controller.handshake_folders hnul _ fs _ _)
    | rejected rejection =>
      obtain ⟨after, yields⟩ := yields_converse_of_rejected calm absolute h fits
      rw [ask_of_error hworkspace h, attend_of_yields_error intime.1 intime.2 yields]
      exact Or.inr (Or.inr ⟨rejection, rejection.message, rfl, rfl, rfl⟩)
  | ok session =>
    obtain ⟨reply, after, tells, hleft, yields⟩ :=
      yields_converse calm absolute h huri hword fits
    rw [ask_of_ok hworkspace huri hposition h,
      attend_of_yields_ok intime.1 intime.2 hleft yields]
    unfold answerOutcome at tells
    -- every outcome of the handler goes through the reply that tells of it
    rcases definition_cases ⟨some session⟩ fs uri query.line with hout | ⟨found, hout⟩ |
      ⟨cause, hout⟩ | ⟨message, path, hout⟩ | ⟨lines, _, hout⟩ | ⟨hread, hout⟩
    all_goals rw [hout] at tells ⊢
    · exact Or.inl ⟨_, rfl, answerOf_of_ok tells (.inl rfl)⟩
    · exact Or.inl ⟨_, rfl, answerOf_of_ok tells (.inr ⟨found, rfl⟩)⟩
    · exact Or.inr (Or.inl ⟨_, _, _, rfl, answerOf_of_error tells, rfl, rfl⟩)
    · exact Or.inr (Or.inl ⟨_, _, _, rfl, answerOf_of_error tells, rfl, rfl⟩)
    · exact Or.inr (Or.inl ⟨_, _, _, rfl, answerOf_of_error tells, rfl, rfl⟩)
    · exact absurd hread (readLines_ne_nul_of_documentUri huri)

def oneReference : FileSystem :=
  .ofListing (.directory "w" .empty (.file "d" (Utf8.encode "- ref: a".toList) 0 .empty))

def firstLine : Query := ⟨Path.ofText "/d".toList, 0, 5⟩

theorem fits_oneReference :
    Fits oneReference requestMark (Path.ofText "/w".toList) "file:///d".toList firstLine := by
  constructor
  · intro lines h
    have hread : Document.readLines oneReference "file:///d".toList = .ok ["- ref: a".toList] := rfl
    obtain rfl := Except.ok.inj (hread.symm.trans h)
    decide
  · have hall : (State.sentOn oneReference ⟨Endpoint.fresh requestMark, []⟩
        (asked requestMark (Path.ofText "/w".toList) "file:///d".toList firstLine)).all
          (fun m => decide (Counted m)) = true := by
      decide +kernel
    exact fun m hm => of_decide_eq_true (List.all_eq_true.mp hall m hm)

/-- A process that gives its first words octet by octet leads from the reference in a document to
the file of the step. -/
theorem consult_process_in_workspace :
    (consult (process oneReference requestMark [1, 1, 1]) ⟨none, none⟩ oneReference
      (some (Path.ofText "/w".toList)) (.whole 10) firstLine).outcome =
    .ok [(Location.ofTarget "/w/ci-operator/step-registry/a/a-ref.yaml".toList).toValue] := by
  have hworkspace : Query.workspace oneReference (some (Path.ofText "/w".toList)) =
      .ok (Path.ofText "/w".toList) := rfl
  have huri : firstLine.documentUri oneReference = .ok "file:///d".toList := rfl
  have calm : Calm ⟨none, none⟩ := ⟨by simp [Callback.Calm], by simp [Callback.Calm]⟩
  have hpositive : Timeout.isNonPositive (.whole 10) = false := rfl
  have hspan : nanoseconds (.whole 10) = .ok 10000000000 := rfl
  have intime : shortestSpan ≤ 10000000000 ∧ 10000000000 ≤ Patience.longestWait := by decide
  have same := consult_process_agrees_ask oneReference (some (Path.ofText "/w".toList)) firstLine
    requestMark [1, 1, 1] hworkspace huri (by decide) (by decide) calm hpositive hspan intime
    fits_oneReference
  have hask : (ask Controller.fresh oneReference (some (Path.ofText "/w".toList))
      firstLine).outcome =
      .ok [(Location.ofTarget "/w/ci-operator/step-registry/a/a-ref.yaml".toList).toValue] := rfl
  rw [hask] at same
  rcases same with ⟨places, hplaces, hconsult⟩ | ⟨_, _, _, hdirect, _⟩ | ⟨_, _, hdirect, _⟩
  · obtain rfl := Except.ok.inj hplaces
    exact hconsult
  · cases hdirect
  · cases hdirect

end Local
end StepLocator
