import StepLocator.Proofs.Client.Outcome
import StepLocator.Proofs.Client.Trace

/-!
The order of a conversation. Whatever the server does, the client says what it has to say in a fixed
order, says nothing before the reply that it waits for, and has an answer only after a complete
conversation.
-/
namespace StepLocator
namespace Consultation

open Channel

def opening (workspace : Path) : Value :=
  requestMessage (.int 1) "initialize" (some (handshakeParams workspace))

def readiness : Value := notificationMessage "initialized" .null

def question (params : Value) : Value :=
  requestMessage (.int 2) "textDocument/definition" (some params)

def closing : Value := requestMessage (.int 3) "shutdown" none

def leaving : Value := notificationMessage "exit" .null

/-- All that a client has to say. Without a workspace it says nothing, and without a document it has
nothing to ask. -/
def agenda (fs : FileSystem) (root : Option Path) (query : Query) : List Value :=
  match Query.workspace fs root with
  | .error _ => []
  | .ok workspace =>
    opening workspace :: readiness ::
      match query.params fs with
      | .error _ => []
      | .ok params => [question params, closing, leaving]

def welcome (trace : List Event) : Option Entries := replyTo 1 (.int 1) trace

def response (trace : List Event) : Option Entries := replyTo 3 (.int 2) trace

def farewell (trace : List Event) : Option Entries := replyTo 4 (.int 3) trace

/-- The next message may be written: what was said before it has the replies that it needs. -/
structure Cleared (trace : List Event) : Prop where
  welcomed : 1 ≤ (written trace).length →
    ∃ reply, welcome trace = some reply ∧ Reply.hasError reply = false
  answered : 3 ≤ (written trace).length → (response trace).isSome = true
  dismissed : 4 ≤ (written trace).length → (farewell trace).isSome = true

def InTurn (trace : List Event) : Prop :=
  ∀ before m rest, trace = before ++ .wrote m :: rest → Cleared before

theorem inTurn_nil : InTurn [] := by
  intro before m rest h
  simp at h

theorem InTurn.concat {trace : List Event} {e : Event} (h : InTurn trace)
    (cleared : ∀ m, e = .wrote m → Cleared trace) : InTurn (trace ++ [e]) := by
  intro before m rest hsplit
  rcases List.eq_nil_or_concat rest with rfl | ⟨rest, last, rfl⟩
  · obtain ⟨rfl, he⟩ := List.append_inj' hsplit rfl
    exact cleared m (List.cons.inj he).1
  · have hsplit' : trace ++ [e] = (before ++ .wrote m :: rest) ++ [last] := by simpa using hsplit
    exact h before m rest (List.append_inj' hsplit' rfl).1

/-- How far a conversation has come: how much of the agenda was said, in turn, and which replies
were read. -/
structure Reached (agenda : List Value) (count : Nat) (first second third : Option Entries)
    (trace : List Event) : Prop where
  said : written trace = agenda.take count
  count : (written trace).length = count
  inTurn : InTurn trace
  welcome : welcome trace = first
  response : response trace = second
  farewell : farewell trace = third

section

variable {agenda : List Value} {n : Nat} {w a f : Option Entries} {trace : List Event}

theorem reached_nil (agenda : List Value) : Reached agenda 0 none none none [] :=
  ⟨rfl, rfl, inTurn_nil, rfl, rfl, rfl⟩

theorem Reached.concat (h : Reached agenda n w a f trace) {e : Event} (he : e.written? = none) :
    Reached agenda n (w.or (if 1 ≤ n then e.reply? (.int 1) else none))
      (a.or (if 3 ≤ n then e.reply? (.int 2) else none))
      (f.or (if 4 ≤ n then e.reply? (.int 3) else none)) (trace ++ [e]) where
  said := by rw [written_concat, he, h.said]; simp
  count := by rw [written_concat, he, ← h.count]; simp
  inTurn := h.inTurn.concat fun m hm => by rw [hm] at he; cases he
  welcome := by rw [Consultation.welcome, replyTo_concat, h.count, ← h.welcome]; rfl
  response := by rw [Consultation.response, replyTo_concat, h.count, ← h.response]; rfl
  farewell := by rw [Consultation.farewell, replyTo_concat, h.count, ← h.farewell]; rfl

/-- The next message of the agenda is written if it has the replies that it needs. -/
theorem Reached.say (h : Reached agenda n w a f trace) {m : Value} (hm : agenda[n]? = some m)
    (welcomed : 1 ≤ n → ∃ reply, w = some reply ∧ Reply.hasError reply = false)
    (answered : 3 ≤ n → a.isSome = true) (dismissed : 4 ≤ n → f.isSome = true) :
    Reached agenda (n + 1) w a f (trace ++ [.wrote m]) where
  said := by rw [written_concat, h.said, List.take_add_one, hm]; rfl
  count := by rw [written_concat, List.length_append, h.count]; rfl
  inTurn := h.inTurn.concat fun _ _ => by
    constructor
    · rwa [h.count, h.welcome]
    · rwa [h.count, h.response]
    · rwa [h.count, h.farewell]
  welcome := by rw [Consultation.welcome, replyTo_wrote, ← h.welcome]; rfl
  response := by rw [Consultation.response, replyTo_wrote, ← h.response]; rfl
  farewell := by rw [Consultation.farewell, replyTo_wrote, ← h.farewell]; rfl

theorem Reached.welcomed (h : Reached agenda 1 none none none trace) {reply : Entries}
    (hreply : IsReply (.int 1) reply) :
    Reached agenda 1 (some reply) none none (trace ++ [.received reply]) := by
  simpa [reply?_received_of_isReply hreply] using h.concat (e := .received reply) rfl

theorem Reached.answered {first : Entries} (h : Reached agenda 3 (some first) none none trace)
    {reply : Entries} (hreply : IsReply (.int 2) reply) :
    Reached agenda 3 (some first) (some reply) none (trace ++ [.received reply]) := by
  simpa [reply?_received_of_isReply hreply] using h.concat (e := .received reply) rfl

theorem Reached.dismissed {first second : Entries}
    (h : Reached agenda 4 (some first) (some second) none trace) {reply : Entries}
    (hreply : IsReply (.int 3) reply) :
    Reached agenda 4 (some first) (some second) (some reply) (trace ++ [.received reply]) := by
  simpa [reply?_received_of_isReply hreply] using h.concat (e := .received reply) rfl

theorem patient_welcome : Patient (.int 1) (Reached agenda 1 none none none) := by
  intro t e he hreply h
  simpa [hreply] using h.concat he

theorem patient_response (agenda : List Value) (first : Entries) :
    Patient (.int 2) (Reached agenda 3 (some first) none none) := by
  intro t e he hreply h
  simpa [hreply] using h.concat he

theorem patient_farewell (agenda : List Value) (first second : Entries) :
    Patient (.int 3) (Reached agenda 4 (some first) (some second) none) := by
  intro t e he hreply h
  simpa [hreply] using h.concat he

end

section

variable {σ α : Type} {P : List Event → Prop}

theorem upholds_lift {x : Exchange σ α} {Q : Except Fault α → List Event → Prop}
    (h : Upholds P x fun outcome => Q (outcome.mapError .channel)) : Upholds P (lift x) Q :=
  fun ch hP => h ch hP

theorem upholds_greet {greeting : Option Callback} {reply : Entries}
    {Q : Except Channel.Fault Unit → List Event → Prop} (hnone : ∀ t, P t → Q (.ok ()) t)
    (htold : ∀ outcome result t, P t → Q outcome (t ++ [.greeted result])) :
    Upholds P (greet greeting reply : Exchange σ Unit) Q := by
  cases greeting with
  | none => exact .pure hnone
  | some told =>
    refine .bind (fun _ t => ∀ outcome, Q outcome t)
      (upholds_note fun t hP outcome => htold outcome _ t hP) fun _ => ?_
    split
    · exact .pure fun t h => h _
    · exact .throw fun t h => h _

/-- What comes of a conversation, and how far it has come: with an answer it is complete, and if it
was rejected the reply to the handshake was the last that happened. -/
def Concluded (agenda : List Value) (outcome : Except Fault Entries) (trace : List Event) : Prop :=
  match outcome with
  | .ok answer => ∃ first third, Reply.hasError first = false ∧
      Reached agenda 5 (some first) (some answer) (some third) trace
  | .error fault => ∃ n first second third, Reached agenda n first second third trace ∧
      ∀ reply, first = some reply → Reply.hasError reply = true →
        fault = .rejected (Reply.errorText reply) ∧ ∃ before, trace = before ++ [.received reply]

/-- A step of a conversation: it leads on, or the conversation is over. -/
def LeadsTo (agenda : List Value) (next : α → List Event → Prop) :
    Except Fault α → List Event → Prop :=
  Ends next fun fault => Concluded agenda (.error fault)

section

variable {agenda : List Value} {first second : Entries} {peer : Peer σ}
  {callback : Option Callback}

theorem LeadsTo.andThen {x : Talk σ α} {next : α → List Event → Prop} {f : α → Talk σ Entries}
    (hx : Upholds P x (LeadsTo agenda next)) (hf : ∀ a, Upholds (next a) (f a) (Concluded agenda)) :
    Upholds P (x >>= f) (Concluded agenda) :=
  .bind next hx hf

/-- A conversation that has come somewhere may fail there for any cause, as long as the handshake
was not rejected. -/
theorem Reached.concluded {n : Nat} {w a f : Option Entries} {trace : List Event}
    (h : Reached agenda n w a f trace)
    (accepted : ∀ reply, w = some reply → Reply.hasError reply = false) (fault : Fault) :
    Concluded agenda (.error fault) trace :=
  ⟨n, w, a, f, h, fun reply hw herror => absurd herror (by simp [accepted reply hw])⟩

theorem upholds_opening {workspace : Path} (next : agenda[0]? = some (opening workspace)) :
    Upholds (Reached agenda 0 none none none)
      (lift (request peer callback (.int 1) "initialize" (some (handshakeParams workspace))))
      (LeadsTo agenda fun reply t => ∃ before, t = before ++ [.received reply] ∧
        Reached agenda 1 (some reply) none none t) := by
  refine upholds_lift (upholds_request (R := Reached agenda 1 none none none) ?_ patient_welcome
    ?_ ?_ ?_)
  · exact fun t h => h.say next (by simp) (by simp) (by simp)
  · exact fun reply t hreply h => ⟨t, rfl, h.welcomed hreply⟩
  · exact fun fault t h => h.concluded (by simp) _
  · exact fun fault t h => h.concluded (by simp) _

variable (accepted : Reply.hasError first = false)

include accepted

theorem accepted_of_eq_some (reply : Entries) (h : some first = some reply) :
    Reply.hasError reply = false := by
  rwa [← Option.some.inj h]

theorem upholds_greeting {greeting : Option Callback} :
    Upholds (Reached agenda 1 (some first) none none)
      (lift (greet greeting first : Exchange σ Unit))
      (LeadsTo agenda fun _ => Reached agenda 1 (some first) none none) := by
  refine upholds_lift (upholds_greet (fun t h => h) fun outcome result t h => ?_)
  have hgreeted : Reached agenda 1 (some first) none none (t ++ [.greeted result]) := by
    simpa [Event.reply?] using h.concat (e := .greeted result) rfl
  cases outcome with
  | ok _ => exact hgreeted
  | error fault => exact hgreeted.concluded (accepted_of_eq_some accepted) _

theorem upholds_readiness (next : agenda[1]? = some readiness) :
    Upholds (Reached agenda 1 (some first) none none) (lift (tell peer "initialized" .null))
      (LeadsTo agenda fun _ => Reached agenda 2 (some first) none none) := by
  refine upholds_lift (upholds_write ?_ ?_)
  · exact fun t h => h.say next (fun _ => ⟨first, rfl, accepted⟩) (by simp) (by simp)
  · exact fun fault t h => h.concluded (accepted_of_eq_some accepted) _

theorem upholds_question {params : Value} (next : agenda[2]? = some (question params)) :
    Upholds (Reached agenda 2 (some first) none none)
      (lift (request peer callback (.int 2) "textDocument/definition" (some params)))
      (LeadsTo agenda fun reply => Reached agenda 3 (some first) (some reply) none) := by
  refine upholds_lift (upholds_request ?_ (patient_response agenda first) ?_ ?_ ?_)
  · exact fun t h => h.say next (fun _ => ⟨first, rfl, accepted⟩) (by simp) (by simp)
  · exact fun reply t hreply h => h.answered hreply
  · exact fun fault t h => h.concluded (accepted_of_eq_some accepted) _
  · exact fun fault t h => h.concluded (accepted_of_eq_some accepted) _

theorem upholds_closing (next : agenda[3]? = some closing) :
    Upholds (Reached agenda 3 (some first) (some second) none)
      (lift (request peer callback (.int 3) "shutdown" none))
      (LeadsTo agenda fun reply => Reached agenda 4 (some first) (some second) (some reply)) := by
  refine upholds_lift (upholds_request ?_ (patient_farewell agenda first second) ?_ ?_ ?_)
  · exact fun t h => h.say next (fun _ => ⟨first, rfl, accepted⟩) (by simp) (by simp)
  · exact fun reply t hreply h => h.dismissed hreply
  · exact fun fault t h => h.concluded (accepted_of_eq_some accepted) _
  · exact fun fault t h => h.concluded (accepted_of_eq_some accepted) _

theorem upholds_leaving {third : Entries} (next : agenda[4]? = some leaving) :
    Upholds (Reached agenda 4 (some first) (some second) (some third))
      (lift (tell peer "exit" .null))
      (LeadsTo agenda fun _ => Reached agenda 5 (some first) (some second) (some third)) := by
  refine upholds_lift (upholds_write ?_ ?_)
  · exact fun t h => h.say next (fun _ => ⟨first, rfl, accepted⟩) (by simp) (by simp)
  · exact fun fault t h => h.concluded (accepted_of_eq_some accepted) _

end

/-- However the server behaves, a conversation follows the agenda of the client. -/
theorem upholds_converse {fs : FileSystem} {root : Option Path} {workspace : Path}
    (hworkspace : Query.workspace fs root = .ok workspace) (peer : Peer σ)
    (listeners : Listeners) (query : Query) :
    Upholds (Reached (agenda fs root query) 0 none none none)
      (converse peer listeners fs workspace query) (Concluded (agenda fs root query)) := by
  have hfirst : (agenda fs root query)[0]? = some (opening workspace) := by
    simp [agenda, hworkspace]
  have hsecond : (agenda fs root query)[1]? = some readiness := by
    simp [agenda, hworkspace]
  unfold converse
  refine LeadsTo.andThen (upholds_opening hfirst) fun first => ?_
  cases accepted : Reply.hasError first with
  | true =>
    simp only [if_true]
    refine .bind (fun _ _ => False) (.throw ?_) fun _ _ hfalse => hfalse.elim
    rintro t ⟨before, hlast, h⟩
    refine ⟨1, some first, none, none, h, ?_⟩
    rintro reply hreply -
    obtain rfl := Option.some.inj hreply
    exact ⟨rfl, before, hlast⟩
  | false =>
    simp only [Bool.false_eq_true, if_false]
    refine LeadsTo.andThen ((upholds_greeting accepted).of_imp fun t h => ?_) fun _ => ?_
    · obtain ⟨_, _, hreached⟩ := h
      exact hreached
    refine LeadsTo.andThen (upholds_readiness accepted hsecond) fun _ => ?_
    cases hparams : query.params fs with
    | error fault => exact .throw fun t h => h.concluded (accepted_of_eq_some accepted) _
    | ok params =>
      have hrest (n : Nat) : (agenda fs root query)[n + 2]? =
          [question params, closing, leaving][n]? := by
        simp [agenda, hworkspace, hparams]
      refine LeadsTo.andThen (upholds_question accepted (hrest 0)) fun second => ?_
      refine LeadsTo.andThen (upholds_closing accepted (hrest 1)) fun third => ?_
      refine LeadsTo.andThen (upholds_leaving accepted (hrest 2)) fun _ => ?_
      exact .pure fun t h => ⟨first, third, accepted, h⟩

end

theorem upholds_callInVain {agenda : List Value} {workspace : Path}
    (next : agenda[0]? = some (opening workspace)) (peer : Peer σ) (excess : Patience.Excess) :
    Upholds (Reached agenda 0 none none none) (callInVain peer workspace excess)
      (Concluded agenda) := by
  have hcall : Upholds (Reached agenda 0 none none none) (lift (write peer (opening workspace)))
      (LeadsTo agenda fun _ => Reached agenda 1 none none none) := by
    refine upholds_lift (upholds_write ?_ ?_)
    · exact fun t h => h.say next (by simp) (by simp) (by simp)
    · exact fun fault t h => h.concluded (by simp) _
  exact LeadsTo.andThen hcall fun _ => .throw fun t h => h.concluded (by simp) _

theorem upholds_talk {fs : FileSystem} {root : Option Path} {workspace : Path}
    (hworkspace : Query.workspace fs root = .ok workspace) (child : Child σ)
    (listeners : Listeners) (query : Query) (span : Int) :
    Upholds (Reached (agenda fs root query) 0 none none none)
      (talk child listeners fs workspace query span) (Concluded (agenda fs root query)) := by
  unfold talk
  split
  · exact upholds_callInVain (by simp [agenda, hworkspace]) _ _
  · exact upholds_converse hworkspace _ listeners query

/-- An answer is there only if the reply to the question has no error and the process has left in
order, and it is what the reply says. -/
theorem answerOf_eq_ok {answer : Entries} {fate : Fate} {words : Bytes} {places : List Value}
    (h : answerOf answer fate words = .ok places) :
    Reply.hasError answer = false ∧ (fate.exitCode = none ∨ fate.exitCode = some 0) ∧
      Reply.locations (Reply.member "result" answer) = .ok places := by
  have hplaces (h : (Reply.locations (Reply.member "result" answer)).mapError Fault.result =
      .ok places) : Reply.locations (Reply.member "result" answer) = .ok places := by
    cases hlocations : Reply.locations (Reply.member "result" answer) with
    | error fault =>
      rw [hlocations] at h
      cases h
    | ok found =>
      rw [hlocations] at h
      exact congrArg Except.ok (Except.ok.inj h)
  unfold answerOf at h
  split at h
  · cases h
  · rename_i hnone
    refine ⟨by simpa using hnone, ?_⟩
    split at h
    · rename_i code hcode
      split at h
      · rename_i hzero
        exact ⟨Or.inr (by rw [hcode, hzero]), hplaces h⟩
      · cases h
    · rename_i hcode
      exact ⟨Or.inl hcode, hplaces h⟩

/-- A consultation that followed an agenda: its conversation has come somewhere and failed, and so
did the consultation, or it is complete, and an answer is that of the reply to the question. -/
def Followed {σ : Type} (agenda : List Value) (run : Consulted σ) : Prop :=
  (∃ fault, Concluded agenda (.error fault) run.trace ∧ run.outcome = .error fault) ∨
  ∃ answer, Concluded agenda (.ok answer) run.trace ∧ ∀ places, run.outcome = .ok places →
    ∃ fate words, run.fate = some fate ∧ answerOf answer fate words = .ok places

theorem followed_attend {σ : Type} {fs : FileSystem} {root : Option Path} {query : Query}
    {workspace : Path} (hworkspace : Query.workspace fs root = .ok workspace) (child : Child σ)
    (listeners : Listeners) (span : Int) :
    Followed (agenda fs root query) (attend child listeners fs workspace query span) := by
  have hconcluded := upholds_talk hworkspace child listeners query span (channelTo child span)
    (reached_nil _)
  have hways := attended_attend child listeners fs workspace query span
  generalize attend child listeners fs workspace query span = run at hways ⊢
  cases hways with
  | @noPipes fault pipes =>
    exact Or.inl ⟨fault, (reached_nil _).concluded (by simp) fault, rfl⟩
  | @failed fault after talk =>
    rw [talk] at hconcluded
    exact Or.inl ⟨fault, hconcluded, rfl⟩
  | @untimed answer after excess talk late =>
    rw [talk] at hconcluded
    exact Or.inr ⟨answer, hconcluded, fun places h => by cases h⟩
  | @awaited answer after words left held talk waited reaped =>
    rw [talk] at hconcluded
    exact Or.inr ⟨answer, hconcluded, fun places h => ⟨_, words, rfl, h⟩⟩

theorem followed_consult {σ : Type} (child : Child σ) (listeners : Listeners) (fs : FileSystem)
    (root : Option Path) (timeout : Timeout) (query : Query) :
    Followed (agenda fs root query) (consult child listeners fs root timeout query) := by
  rcases consult_cases child listeners fs root timeout query with ⟨_, fault, hrun⟩ |
    ⟨workspace, span, hstarts, hrun⟩
  · rw [hrun]
    exact Or.inl ⟨fault, (reached_nil _).concluded (by simp) fault, rfl⟩
  · rw [hrun]
    exact followed_attend hstarts.workspace child listeners span

theorem Concluded.reached {agenda : List Value} {talk : Except Fault Entries}
    {trace : List Event} (h : Concluded agenda talk trace) :
    ∃ n first second third, Reached agenda n first second third trace := by
  cases talk with
  | ok answer =>
    obtain ⟨first, third, _, hreached⟩ := h
    exact ⟨5, _, _, _, hreached⟩
  | error fault =>
    obtain ⟨n, first, second, third, hreached, _⟩ := h
    exact ⟨n, _, _, _, hreached⟩

theorem Followed.reached {σ : Type} {agenda : List Value} {run : Consulted σ}
    (h : Followed agenda run) : ∃ n first second third, Reached agenda n first second third
      run.trace := by
  rcases h with ⟨_, hconcluded, _⟩ | ⟨_, hconcluded, _⟩
  · exact hconcluded.reached
  · exact hconcluded.reached

theorem le_of_agenda_eq_some {fs : FileSystem} {root : Option Path} {query : Query} {n : Nat} :
    ((agenda fs root query)[n]? = some closing → 3 ≤ n) ∧
      ((agenda fs root query)[n]? = some leaving → 4 ≤ n) := by
  unfold agenda
  cases Query.workspace fs root with
  | error fault => simp
  | ok workspace =>
    cases query.params fs with
    | error fault =>
      match n with
      | 0 => simp [opening, closing, leaving, requestMessage, notificationMessage]
      | 1 => simp [readiness, closing, leaving, requestMessage, notificationMessage]
      | n + 2 => simp
    | ok params =>
      match n with
      | 0 => simp [opening, closing, leaving, requestMessage, notificationMessage]
      | 1 => simp [readiness, closing, leaving, requestMessage, notificationMessage]
      | 2 => simp [question, closing, leaving, requestMessage, notificationMessage]
      | 3 => simp [closing, leaving, requestMessage, notificationMessage]
      | n + 4 => omega

/-- However a server behaves, a client says what is on its agenda, in order and as far as it comes:
the first thing at once, everything after it only to a server that has accepted the handshake, that
it is to shut down only after the reply to the question, and that it is to leave only after the
reply to that. When the handshake is rejected nothing more happens and the client reports it. An
answer is what the reply to the question says, once all three replies are read, neither of the first
two has an error, and the process has left in order. -/
theorem consult_keeps_order {σ : Type} (child : Child σ) (listeners : Listeners) (fs : FileSystem)
    (root : Option Path) (timeout : Timeout) (query : Query) :
    let run := consult child listeners fs root timeout query
    written run.trace <+: agenda fs root query ∧
    (∀ before m rest, run.trace = before ++ .wrote m :: rest →
      (written before ≠ [] →
        ∃ reply, welcome before = some reply ∧ Reply.hasError reply = false) ∧
      (m = closing ∨ m = leaving → ∃ reply, response before = some reply) ∧
      (m = leaving → ∃ reply, farewell before = some reply)) ∧
    (∀ reply, welcome run.trace = some reply → Reply.hasError reply = true →
      (∃ before, run.trace = before ++ [.received reply]) ∧
      run.outcome = .error (.rejected (Reply.errorText reply)) ∧
      (Fault.rejected (Reply.errorText reply)).isReported = true) ∧
    (∀ places, run.outcome = .ok places →
      ∃ first second third, welcome run.trace = some first ∧ response run.trace = some second ∧
        farewell run.trace = some third ∧ Reply.hasError first = false ∧
        Reply.hasError second = false ∧
        (∃ fate, run.fate = some fate ∧ (fate.exitCode = none ∨ fate.exitCode = some 0)) ∧
        Reply.locations (Reply.member "result" second) = .ok places) := by
  intro run
  have hfollowed : Followed (agenda fs root query) run :=
    followed_consult child listeners fs root timeout query
  obtain ⟨n, _, _, _, hreached⟩ := hfollowed.reached
  have hbegun : written run.trace <+: agenda fs root query := by
    rw [hreached.said]
    exact List.take_prefix _ _
  refine ⟨hbegun, ?_, ?_, ?_⟩
  · intro before m rest hsplit
    have hcleared := hreached.inTurn before m rest hsplit
    -- the place of a message on the agenda is the number of those written before it
    have hplace : (agenda fs root query)[(written before).length]? = some m := by
      have hwritten : written run.trace = written before ++ m :: written rest := by
        rw [hsplit]
        simp [written, Event.written?]
      obtain ⟨more, hmore⟩ := hbegun
      rw [← hmore, hwritten]
      simp
    refine ⟨fun hsome => ?_, ?_, ?_⟩
    · exact hcleared.welcomed (List.length_pos_iff.mpr hsome)
    · rintro (rfl | rfl)
      · exact Option.isSome_iff_exists.mp (hcleared.answered (le_of_agenda_eq_some.1 hplace))
      · have hfour := le_of_agenda_eq_some.2 hplace
        exact Option.isSome_iff_exists.mp (hcleared.answered (by omega))
    · rintro rfl
      exact Option.isSome_iff_exists.mp (hcleared.dismissed (le_of_agenda_eq_some.2 hplace))
  · intro reply hreply herror
    rcases hfollowed with ⟨fault, hconcluded, houtcome⟩ | ⟨answer, hconcluded, _⟩
    · obtain ⟨n, first, second, third, h, hrejected⟩ := hconcluded
      obtain ⟨rfl, hlast⟩ := hrejected reply (h.welcome.symm.trans hreply) herror
      exact ⟨hlast, houtcome, rfl⟩
    · obtain ⟨first, third, haccepted, h⟩ := hconcluded
      obtain rfl : first = reply := Option.some.inj (h.welcome.symm.trans hreply)
      rw [haccepted] at herror
      cases herror
  · intro places houtcome
    rcases hfollowed with ⟨fault, _, hfault⟩ | ⟨answer, hconcluded, hanswer⟩
    · cases hfault.symm.trans houtcome
    · obtain ⟨first, third, haccepted, h⟩ := hconcluded
      obtain ⟨fate, words, hfate, hplaces⟩ := hanswer places houtcome
      obtain ⟨hnone, hcode, hlocations⟩ := answerOf_eq_ok hplaces
      exact ⟨first, answer, third, h.welcome, h.response, h.farewell, haccepted, hnone,
        ⟨fate, hfate, hcode⟩, hlocations⟩

end Consultation
end StepLocator
