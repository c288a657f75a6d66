import StepLocator.Proofs.Client.Conversation
import StepLocator.Proofs.Client.Outcome
import StepLocator.Proofs.Client.Reading

/-!
Failures of a consultation. Whatever a process says, a question to it is answered, or it fails as
the client does, unless a frame among what the process has said is garbled.
-/
namespace StepLocator

/-! ### What a peer says -/

namespace Peer

open Channel

variable {σ : Type}

def react (peer : Peer σ) (s : σ) : Event → σ × Bytes
  | .wrote message => peer.hear message s
  | .acknowledged message => (peer.learn message s, [])
  | _ => (s, [])

def after (peer : Peer σ) (s : σ) : List Event → σ
  | [] => s
  | e :: rest => peer.after (peer.react s e).1 rest

def said (peer : Peer σ) (s : σ) : List Event → Bytes
  | [] => []
  | e :: rest => (peer.react s e).2 ++ peer.said (peer.react s e).1 rest

theorem after_concat (peer : Peer σ) (s : σ) (trace : List Event) (e : Event) :
    peer.after s (trace ++ [e]) = (peer.react (peer.after s trace) e).1 := by
  induction trace generalizing s with
  | nil => rfl
  | cons first rest ih => exact ih _

theorem said_concat (peer : Peer σ) (s : σ) (trace : List Event) (e : Event) :
    peer.said s (trace ++ [e]) =
      peer.said s trace ++ (peer.react (peer.after s trace) e).2 := by
  induction trace generalizing s with
  | nil => simp [said, after]
  | cons first rest ih =>
    rw [List.cons_append, said, ih, said, after, List.append_assoc]

end Peer

namespace Channel

def Event.received? : Event → Option Entries
  | .received message => some message
  | _ => none

def received (trace : List Event) : List Entries := trace.filterMap Event.received?

/-- Octets that are still to be read: of all that a process has said, beforehand and since, they
come behind the frames of the messages received. -/
def LeftOver {σ : Type} (child : Child σ) (trace : List Event) (rest : Bytes) : Prop :=
  Incoming.Frames rest (received trace) (child.output.bytes ++ child.peer.said child.state trace)

/-- A channel from which the frames of messages were read, and nothing else. -/
structure Hears {σ : Type} (child : Child σ) (ch : Channel σ) : Prop where
  state : ch.peer = child.peer.after child.state ch.trace
  bytes : LeftOver child ch.trace ch.incoming.bytes
  limit : ch.incoming.limit = child.output.limit
  heldOpen : ch.incoming.heldOpen = child.output.heldOpen

/-- A failed exchange that is one of the client, or for which a garbled frame behind those of the
messages received is to blame. -/
def Excused {σ : Type} (child : Child σ) (fault : Fault) (trace : List Event) : Prop :=
  fault.isReported = true ∨ ∃ bad rest, fault = .read bad ∧ LeftOver child trace rest ∧
    Incoming.Garbled { child.output with bytes := rest }

variable {σ ε α β : Type} {child : Child σ} {ch : Channel σ}

/-- After a success the frames of messages were read, and after a failure something holds of it and
of the trace. -/
def Kept (child : Child σ) (E : ε → List Event → Prop) : Except ε α × Channel σ → Prop
  | (.ok _, after) => after.Hears child
  | (.error fault, after) => E fault after.trace

/-- A step that reads the frames of messages, unless it fails. -/
def Keeps (child : Child σ) (x : ExceptT ε (StateM (Channel σ)) α) (E : ε → List Event → Prop) :
    Prop :=
  ∀ ch : Channel σ, ch.Hears child → Kept child E (runFrom x ch)

section

variable {x : ExceptT ε (StateM (Channel σ)) α} {f : α → ExceptT ε (StateM (Channel σ)) β}
  {E : ε → List Event → Prop}

theorem Keeps.pure {a : α} : Keeps child (Pure.pure a : ExceptT ε (StateM (Channel σ)) α) E :=
  fun _ hears => hears

theorem Keeps.throw {e : ε} (h : ∀ trace, E e trace) :
    Keeps child (throw e : ExceptT ε (StateM (Channel σ)) α) E :=
  fun ch _ => h ch.trace

theorem Keeps.mono {F : ε → List Event → Prop} (h : Keeps child x E)
    (hE : ∀ fault trace, E fault trace → F fault trace) : Keeps child x F := by
  intro ch hears
  have hkept := h ch hears
  cases hrun : runFrom x ch with
  | mk outcome after =>
    rw [hrun] at hkept
    cases outcome with
    | ok a => exact hkept
    | error fault => exact hE fault _ hkept

theorem Keeps.bind (hx : Keeps child x E) (hf : ∀ a, Keeps child (f a) E) :
    Keeps child (x >>= f) E := by
  intro ch hears
  have hkept := hx ch hears
  cases hrun : runFrom x ch with
  | mk outcome after =>
    rw [hrun] at hkept
    cases outcome with
    | error e =>
      rw [runFrom_bind_of_error hrun]
      exact hkept
    | ok a =>
      rw [runFrom_bind_of_ok hrun]
      exact hf a after hkept

theorem Keeps.throw_bind {e : ε} (h : ∀ trace, E e trace) :
    Keeps child ((MonadExcept.throw e : ExceptT ε (StateM (Channel σ)) α) >>= f) E :=
  fun ch _ => h ch.trace

end

theorem received_concat (trace : List Event) (e : Event) :
    received (trace ++ [e]) = received trace ++ e.received?.toList := by
  cases h : e.received? <;> simp [received, h]

theorem Hears.react (hears : ch.Hears child) {e : Event} (he : e.received? = none)
    (left : Option Nat) :
    Hears child ⟨(child.peer.react ch.peer e).1,
      { ch.incoming with bytes := ch.incoming.bytes ++ (child.peer.react ch.peer e).2 }, left,
      ch.trace ++ [e]⟩ where
  state := by rw [Peer.after_concat, hears.state]
  bytes := by
    rw [LeftOver, received_concat, he, Peer.said_concat, ← hears.state, ← List.append_assoc]
    simpa using hears.bytes.append _
  limit := hears.limit
  heldOpen := hears.heldOpen

theorem keeps_note {e : Event} (he : e.received? = none)
    (hpeer : ∀ s, child.peer.react s e = (s, [])) {E : Fault → List Event → Prop} :
    Keeps child (note e : Exchange σ Unit) E := by
  intro ch hears
  have hnoted := hears.react he ch.writesLeft
  simp only [hpeer, List.append_nil] at hnoted
  exact hnoted

theorem keeps_write (message : Value) : Keeps child (write child.peer message) (Excused child) := by
  rintro ⟨state, incoming, writes, trace⟩ hears
  have hwrote := hears.react (e := .wrote message) rfl
  match writes with
  | none => exact hwrote none
  | some 0 => exact .inl rfl
  | some (n + 1) => exact hwrote (some n)

theorem keeps_acknowledge (id : Value) :
    Keeps child (acknowledge child.peer id) (Excused child) := by
  rintro ⟨state, incoming, writes, trace⟩ hears
  have hlearnt := hears.react (e := .acknowledged (acknowledgement id)) rfl
  simp only [Peer.react, List.append_nil] at hlearnt
  match writes with
  | none => exact hlearnt none
  | some 0 => exact .inl rfl
  | some (n + 1) => exact hlearnt (some n)

/-- A message that is received is the next frame; a read that fails otherwise than the client does
has come upon a garbled one. -/
theorem keeps_receive : Keeps child (receive : Exchange σ Entries) (Excused child) := by
  intro ch hears
  unfold receive
  rw [runFrom_bind_of_ok (rfl : runFrom get ch = (.ok ch, ch))]
  have hkeeps := ch.incoming.readMessage_keeps
  have hgarbled := (Incoming.readMessage_unreported_iff (s := ch.incoming)).mp
  cases hread : ch.incoming.readMessage with
  | mk outcome incoming =>
    rw [hread] at hkeeps hgarbled
    obtain ⟨hlimit, hopen, hframe⟩ := hkeeps
    cases outcome with
    | ok message =>
      refine ⟨?_, ?_, hlimit.trans hears.limit, hopen.trans hears.heldOpen⟩
      · show ch.peer = child.peer.after child.state (ch.trace ++ [.received message])
        rw [Peer.after_concat, hears.state]
        rfl
      · obtain ⟨header, body, frame, hbytes⟩ := hframe message rfl
        show LeftOver child (ch.trace ++ [.received message]) incoming.bytes
        have hleft := hears.bytes
        rw [LeftOver, hbytes] at hleft
        rw [LeftOver, received_concat, Peer.said_concat]
        simpa [Peer.react, Event.received?] using hleft.concat frame
    | error bad =>
      by_cases hreported : bad.isReported = true
      · exact .inl hreported
      · have hunread := (hgarbled ⟨bad, rfl, by simpa using hreported⟩).2
        exact .inr ⟨bad, _, rfl, hears.bytes,
          hunread.of_eq rfl hears.limit.symm hears.heldOpen.symm⟩

theorem keeps_notify {callback : Option Callback} (calm : Callback.Calm callback)
    (message : Entries) :
    Keeps child (notify callback message : Exchange σ Unit) (Excused child) := by
  cases callback with
  | none => exact .pure
  | some told =>
    have htold : told message = none := calm told rfl message
    refine .bind (keeps_note rfl fun _ => rfl) fun _ => ?_
    rw [htold]
    exact .pure

theorem keeps_awaitReply {callback : Option Callback} (calm : Callback.Calm callback) (id : Value)
    (fuel : Nat) :
    Keeps child (awaitReply child.peer callback id fuel) (Excused child) := by
  -- on the fuel; whatever message comes, it is the reply or the wait goes on
  induction fuel with
  | zero => exact .throw fun _ => .inl rfl
  | succ fuel ih =>
    refine .bind keeps_receive fun message => ?_
    have hrest : Keeps child (do
        notify callback message
        awaitReply child.peer callback id fuel) (Excused child) :=
      .bind (keeps_notify calm message) fun _ => ih
    cases Entries.find? "method" message with
    | some method =>
      cases Entries.find? "id" message with
      | some other => exact .bind (keeps_acknowledge other) fun _ => hrest
      | none => exact hrest
    | none =>
      simp only
      split
      · exact .pure
      · exact ih

theorem keeps_request {callback : Option Callback} (calm : Callback.Calm callback) (id : Value)
    (method : Text) (params : Option Value) :
    Keeps child (request child.peer callback id method params) (Excused child) := by
  refine .bind (keeps_write _) fun _ => .bind ?_ fun ch => keeps_awaitReply calm id _
  exact fun ch hears => hears

end Channel

namespace Consultation

open Channel

variable {σ α : Type} {child : Child σ} {listeners : Listeners} {fs : FileSystem} {query : Query}

/-- A failure of a consultation that is one of the client, or for which a garbled frame behind those
of the messages received is to blame. -/
def Excused (child : Child σ) (fault : Fault) (trace : List Event) : Prop :=
  fault.isReported = true ∨ ∃ bad rest, fault = .channel (.read bad) ∧
    LeftOver child trace rest ∧ Incoming.Garbled { child.output with bytes := rest }

theorem keeps_lift {x : Exchange σ α} (h : Keeps child x (Channel.Excused child)) :
    Keeps child (lift x) (Excused child) := by
  intro ch hears
  have hkept := h ch hears
  have hlift : runFrom (lift x) ch = ((runFrom x ch).1.mapError .channel, (runFrom x ch).2) := rfl
  rw [hlift]
  cases hrun : runFrom x ch with
  | mk outcome after =>
    rw [hrun] at hkept
    cases outcome with
    | ok a => exact hkept
    | error bad =>
      rcases hkept with hreported | ⟨cause, rest, rfl, hgarbled⟩
      · exact .inl hreported
      · exact .inr ⟨cause, rest, rfl, hgarbled⟩

theorem keeps_greet {greeting : Option Callback} (calm : Callback.Calm greeting)
    (reply : Entries) :
    Keeps child (greet greeting reply : Exchange σ Unit) (Channel.Excused child) := by
  cases greeting with
  | none => exact .pure
  | some told =>
    refine .bind (keeps_note rfl fun _ => rfl) fun _ => ?_
    rw [calm told rfl]
    exact .pure

/-- A conversation about a document that has a path fails as the client does, or on a garbled
frame. -/
theorem keeps_converse (calm : Local.Calm listeners) {params : Value}
    (hparams : query.params fs = .ok params) (workspace : Path) :
    Keeps child (converse child.peer listeners fs workspace query) (Excused child) := by
  have ask (id : Int) (method : Text) (params : Option Value) : Keeps child
      (lift (request child.peer listeners.notification (.int id) method params)) (Excused child) :=
    keeps_lift (keeps_request calm.notification _ _ _)
  have htell (method : Text) (params : Value) :
      Keeps child (lift (tell child.peer method params)) (Excused child) :=
    keeps_lift (keeps_write _)
  unfold converse
  refine .bind (ask _ _ _) fun welcome => ?_
  cases Reply.hasError welcome with
  | true =>
    simp only [if_true]
    exact .throw_bind fun _ => .inl rfl
  | false =>
    simp only [Bool.false_eq_true, if_false, hparams]
    refine .bind (keeps_lift (keeps_greet calm.greeting welcome)) fun _ => ?_
    refine .bind (htell _ _) fun _ => .bind (ask _ _ _) fun response => ?_
    exact .bind (ask _ _ _) fun _ => .bind (htell _ _) fun _ => .pure

theorem hears_channelTo (child : Child σ) (span : Int) : (channelTo child span).Hears child where
  state := rfl
  bytes := by
    show Incoming.Frames child.output.bytes [] (child.output.bytes ++ [])
    rw [List.append_nil]
    exact .none
  limit := rfl
  heldOpen := rfl

theorem isReported_of_answerOf {response : Entries} {fate : Fate} {words : Bytes} {fault : Fault}
    (h : answerOf response fate words = .error fault) : fault.isReported = true := by
  have hplaces (result : Value)
      (h : (Reply.locations result).mapError Fault.result = .error fault) :
      fault.isReported = true := by
    cases hresult : Reply.locations result with
    | ok places =>
      rw [hresult] at h
      cases h
    | error bad =>
      rw [hresult] at h
      cases h
      rfl
  unfold answerOf at h
  split at h
  · cases h
    rfl
  split at h
  · split at h
    · exact hplaces _ h
    · cases h
      rfl
  · exact hplaces _ h

theorem keeps_talk (calm : Local.Calm listeners) {params : Value}
    (hparams : query.params fs = .ok params) (workspace : Path) (span : Int) :
    Keeps child (talk child listeners fs workspace query span) fun fault trace =>
      (∃ excess, fault = .timeoutTooLong excess ∧ child.patience.Exceeded span excess) ∨
        Excused child fault trace := by
  unfold talk
  cases hword : child.patience.wordExcess? span with
  | none => exact (keeps_converse calm hparams workspace).mono fun _ _ => .inr
  | some excess =>
    refine .bind ((keeps_lift (keeps_write _)).mono fun _ _ => .inr) fun _ => .throw fun _ => ?_
    exact .inl ⟨excess, rfl, Patience.exceeded_of_wordExcess? hword⟩

/-- Whoever attends to a process fails as the client does, on a garbled frame, or because the
process cannot be waited for that long. -/
theorem excused_attend (calm : Local.Calm listeners) {params : Value}
    (hparams : query.params fs = .ok params) (pipes : requirePipes child = .ok ())
    (workspace : Path) (span : Int) {fault : Fault}
    (h : (attend child listeners fs workspace query span).outcome = .error fault) :
    (∃ excess, fault = .timeoutTooLong excess ∧ child.patience.Exceeded span excess) ∨
      Excused child fault (attend child listeners fs workspace query span).trace := by
  have hkept := keeps_talk calm hparams workspace span _ (hears_channelTo child span)
  have hways := attended_attend child listeners fs workspace query span
  generalize attend child listeners fs workspace query span = run at h hways ⊢
  cases hways with
  | noPipes missing => cases pipes.symm.trans missing
  | failed talk =>
    rw [talk] at hkept
    cases h
    exact hkept
  | untimed talk late =>
    cases h
    exact .inl ⟨_, rfl, Patience.exceeded_of_endExcess? late⟩
  | awaited talk waited reaped => exact .inr (.inl (isReported_of_answerOf h))

/-- A read gives a message or fails as the client does, unless there is time to read and the frame
is garbled. So a question put to a process that can be talked to, about a document that has a path
and with listeners that do not fail, is answered or fails as the client does, whatever the process
says; unless some frame in what it has said is garbled, or the timeout is too long for a wait, which
for a process of the system it is only beyond the longest wait for an end. -/
theorem excused_consult (child : Child σ) (listeners : Listeners) (fs : FileSystem)
    (root : Option Path) (timeout : Timeout) (query : Query) :
    (∀ s : Incoming, (∃ fault, s.readMessage.1 = .error fault ∧ fault.isReported = false) ↔
      s.expired = false ∧ s.Garbled) ∧
    (∀ workspace span params, Starts fs root timeout workspace span →
      requirePipes child = .ok () → Local.Calm listeners → query.params fs = .ok params →
      let run := consult child listeners fs root timeout query
      ∀ fault, run.outcome = .error fault →
        (∃ excess, fault = .timeoutTooLong excess ∧ child.patience.Exceeded span excess) ∨
          Excused child fault run.trace) ∧
    ∀ span excess, Patience.ofSystem.Exceeded span excess → Patience.longestWait < span := by
  refine ⟨fun s => Incoming.readMessage_unreported_iff, ?_,
    fun span excess => Patience.longestWait_lt_of_exceeded⟩
  intro workspace span params starts pipes calm hparams run fault hfault
  have hrun : run = attend child listeners fs workspace query span := by
    simp only [run, consult, starts.positive, starts.workspace, starts.span]
    rfl
  rw [hrun] at hfault ⊢
  exact excused_attend calm hparams pipes workspace span hfault

/-- A process that gives letters for the length of a message makes the client fail otherwise. -/
theorem consult_fails_on_letters :
    let said : Bytes := Utf8.encode "Content-Length: abc\r\n\r\n"
    let source : Incoming := ⟨said, [], none, false, false⟩
    let bad : Incoming.Fault := .badLength (Utf8.encode "abc")
    let child : Child Prepared :=
      ⟨.silent, Prepared.process, ⟨none, some 0, false, []⟩, source, true, true, none, .unlimited⟩
    let run := consult child ⟨none, none⟩ (.ofListing .empty) (some (Path.ofText "/".toList))
      (.whole 10) ⟨Path.ofText "/d".toList, 0, 0⟩
    source.readMessage.1 = .error bad ∧ run.outcome = .error (.channel (.read bad)) ∧
      bad.isReported = false ∧ (Fault.channel (.read bad)).isReported = false := by
  intro said source bad child run
  exact ⟨rfl, rfl, rfl, rfl⟩

end Consultation
end StepLocator
