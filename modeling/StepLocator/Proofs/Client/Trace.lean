import StepLocator.Proofs.Client.Await

/-!
Traces of a channel: what a trace says of the messages written and of the replies read, and what a
step over a channel makes of the trace. A step is described by what holds of the trace before it
and of its outcome and the trace after it, on every channel, whether or not it succeeds.
-/
namespace StepLocator
namespace Channel

/-- The message that an event writes, acknowledgements apart. -/
def Event.written? : Event → Option Value
  | .wrote message => some message
  | _ => none

instance (id : Value) (message : Entries) : Decidable (IsReply id message) :=
  decidable_of_iff ((Entries.find? "method" message).isNone = true ∧
      Value.same (Reply.member "id" message) id = true)
    ⟨fun h => ⟨Option.isNone_iff_eq_none.mp h.1, h.2⟩,
      fun h => ⟨Option.isNone_iff_eq_none.mpr h.method, h.id⟩⟩

def Event.reply? (id : Value) : Event → Option Entries
  | .received message => if IsReply id message then some message else none
  | _ => none

def written (trace : List Event) : List Value := trace.filterMap Event.written?

def afterWriting : Nat → List Event → List Event
  | 0, trace => trace
  | _ + 1, [] => []
  | n + 1, .wrote _ :: rest => afterWriting n rest
  | n + 1, _ :: rest => afterWriting (n + 1) rest

/-- The reply to the request with an id that was the last of the first so many messages written. -/
def replyTo (count : Nat) (id : Value) (trace : List Event) : Option Entries :=
  (afterWriting count trace).findSome? (Event.reply? id)

theorem reply?_received_of_isReply {id : Value} {message : Entries} (h : IsReply id message) :
    (Event.received message).reply? id = some message :=
  if_pos h

theorem reply?_received_of_not_isReply {id : Value} {message : Entries}
    (h : ¬ IsReply id message) : (Event.received message).reply? id = none :=
  if_neg h

theorem written_concat (trace : List Event) (e : Event) :
    written (trace ++ [e]) = written trace ++ e.written?.toList := by
  cases h : e.written? with
  | none => simp [written, h]
  | some m => simp [written, h]

theorem replyTo_concat (count : Nat) (id : Value) (trace : List Event) (e : Event) :
    replyTo count id (trace ++ [e]) =
      (replyTo count id trace).or
        (if count ≤ (written trace).length then e.reply? id else none) := by
  induction trace generalizing count with
  | nil =>
    cases count with
    | zero => simp [replyTo, afterWriting]
    | succ n => cases e <;> cases n <;> rfl
  | cons first rest ih =>
    cases count with
    | zero =>
      simp only [replyTo, afterWriting, List.findSome?_append, Nat.zero_le, if_true]
      cases h : e.reply? id <;> simp [List.findSome?, h]
    | succ n =>
      cases first with
      | wrote m =>
        have hlength : (written (.wrote m :: rest)).length = (written rest).length + 1 := rfl
        show replyTo n id (rest ++ [e]) = (replyTo n id rest).or _
        rw [ih n, hlength]
        simp only [Nat.add_le_add_iff_right]
      | _ => exact ih (n + 1)

theorem replyTo_wrote (count : Nat) (id : Value) (trace : List Event) (m : Value) :
    replyTo count id (trace ++ [.wrote m]) = replyTo count id trace := by
  rw [replyTo_concat]
  simp [Event.reply?]

section

variable {ε σ α β : Type}

/-- A step after which something holds of its outcome and of the trace, if something else holds of
the trace before it. -/
def Upholds (P : List Event → Prop) (x : ExceptT ε (StateM (Channel σ)) α)
    (Q : Except ε α → List Event → Prop) : Prop :=
  ∀ ch : Channel σ, P ch.trace → Q (runFrom x ch).1 (runFrom x ch).2.trace

/-- Something holds of the trace after a success, and something else after a failure. -/
def Ends (success : α → List Event → Prop) (failure : ε → List Event → Prop) :
    Except ε α → List Event → Prop
  | .ok a => success a
  | .error e => failure e

variable {P : List Event → Prop} {x : ExceptT ε (StateM (Channel σ)) α}
  {f : α → ExceptT ε (StateM (Channel σ)) β} {Q : Except ε β → List Event → Prop}

theorem Upholds.pure {b : β} (h : ∀ t, P t → Q (.ok b) t) :
    Upholds P (Pure.pure b : ExceptT ε (StateM (Channel σ)) β) Q :=
  fun ch hP => h ch.trace hP

theorem Upholds.throw {e : ε} (h : ∀ t, P t → Q (.error e) t) :
    Upholds P (throw e : ExceptT ε (StateM (Channel σ)) β) Q :=
  fun ch hP => h ch.trace hP

/-- A step goes on from what holds after the one before it; where that fails, it is the end. -/
theorem Upholds.bind (R : α → List Event → Prop)
    (hx : Upholds P x (Ends R fun e => Q (.error e)))
    (hf : ∀ a, Upholds (R a) (f a) Q) : Upholds P (x >>= f) Q := by
  intro ch hP
  have hR := hx ch hP
  cases hrun : runFrom x ch with
  | mk outcome after =>
    rw [hrun] at hR
    cases outcome with
    | error e =>
      rw [runFrom_bind_of_error hrun]
      exact hR
    | ok a =>
      rw [runFrom_bind_of_ok hrun]
      exact hf a after hR

theorem Upholds.of_imp {R : List Event → Prop} {y : ExceptT ε (StateM (Channel σ)) β}
    (h : Upholds P y Q) (hP : ∀ t, R t → P t) : Upholds R y Q :=
  fun ch hch => h ch (hP _ hch)

end

section

variable {σ α : Type} {peer : Peer σ} {callback : Option Callback} {id : Value}
  {P : List Event → Prop}

theorem upholds_get : Upholds P (get : Exchange σ (Channel σ)) fun _ => P :=
  fun _ hP => hP

theorem upholds_note {e : Event} {Q : Except Fault Unit → List Event → Prop}
    (h : ∀ t, P t → Q (.ok ()) (t ++ [e])) : Upholds P (note e : Exchange σ Unit) Q :=
  fun ch hP => h ch.trace hP

theorem upholds_write {message : Value} {Q : Except Fault Unit → List Event → Prop}
    (hok : ∀ t, P t → Q (.ok ()) (t ++ [.wrote message]))
    (herror : ∀ fault t, P t → Q (.error fault) t) : Upholds P (write peer message) Q := by
  rintro ⟨state, incoming, writes, trace⟩ hP
  match writes with
  | none => exact hok trace hP
  | some 0 => exact herror .brokenPipe trace hP
  | some (n + 1) => exact hok trace hP

theorem upholds_acknowledge {other : Value} {Q : Except Fault Unit → List Event → Prop}
    (hok : ∀ t, P t → Q (.ok ()) (t ++ [.acknowledged (acknowledgement other)]))
    (herror : ∀ fault t, P t → Q (.error fault) t) : Upholds P (acknowledge peer other) Q := by
  rintro ⟨state, incoming, writes, trace⟩ hP
  match writes with
  | none => exact hok trace hP
  | some 0 => exact herror .brokenPipe trace hP
  | some (n + 1) => exact hok trace hP

theorem upholds_receive {Q : Except Fault Entries → List Event → Prop}
    (hok : ∀ message t, P t → Q (.ok message) (t ++ [.received message]))
    (herror : ∀ fault t, P t → Q (.error fault) t) :
    Upholds P (receive : Exchange σ Entries) Q := by
  intro ch hP
  unfold receive
  rw [runFrom_bind_of_ok (rfl : runFrom get ch = (.ok ch, ch))]
  cases hread : ch.incoming.readMessage with
  | mk outcome incoming =>
    cases outcome with
    | error fault => exact herror (.read fault) ch.trace hP
    | ok message => exact hok message ch.trace hP

theorem upholds_notify {message : Entries} {Q : Except Fault Unit → List Event → Prop}
    (hnone : ∀ t, P t → Q (.ok ()) t)
    (htold : ∀ outcome t, P t → Q outcome (t ++ [.notified message])) :
    Upholds P (notify callback message : Exchange σ Unit) Q := by
  cases callback with
  | none => exact .pure hnone
  | some told =>
    refine .bind (fun _ t => ∀ outcome, Q outcome t)
      (upholds_note fun t hP outcome => htold outcome t hP) fun _ => ?_
    cases told message with
    | none => exact .pure fun t h => h _
    | some text => exact .throw fun t h => h _

/-- What stays true of a trace while the client waits for the reply to the request with an id. -/
def Patient (id : Value) (P : List Event → Prop) : Prop :=
  ∀ t e, e.written? = none → e.reply? id = none → P t → P (t ++ [e])

theorem upholds_notify_of_patient (patient : Patient id P) {message : Entries}
    {E : Fault → List Event → Prop} (herror : ∀ fault t, P t → E fault t) :
    Upholds P (notify callback message : Exchange σ Unit) (Ends (fun _ => P) E) := by
  refine upholds_notify (fun t hP => hP) fun outcome t hP => ?_
  have hnotified : P (t ++ [.notified message]) := patient t _ rfl rfl hP
  cases outcome with
  | ok _ => exact hnotified
  | error fault => exact herror fault _ hnotified

theorem upholds_acknowledge_of_patient (patient : Patient id P) {other : Value}
    {E : Fault → List Event → Prop} (herror : ∀ fault t, P t → E fault t) :
    Upholds P (acknowledge peer other) (Ends (fun _ => P) E) :=
  upholds_acknowledge (fun t hP => patient t _ rfl rfl hP) herror

theorem same_eq_false_of_not_isReply {message : Entries} (h : ¬ IsReply id message)
    (hmethod : Entries.find? "method" message = none) :
    Value.same (Reply.member "id" message) id = false := by
  cases hsame : Value.same (Reply.member "id" message) id with
  | false => rfl
  | true => exact absurd ⟨hmethod, hsame⟩ h

/-- While the client waits, what is patient stays true; at last comes the reply, or there is
none. -/
theorem upholds_awaitReply (patient : Patient id P) {Q : Except Fault Entries → List Event → Prop}
    (hreply : ∀ reply t, IsReply id reply → P t → Q (.ok reply) (t ++ [.received reply]))
    (herror : ∀ fault t, P t → Q (.error fault) t) (fuel : Nat) :
    Upholds P (awaitReply peer callback id fuel) Q := by
  -- on the fuel; each message that is no reply is taken care of, and the wait goes on
  induction fuel with
  | zero => exact .throw fun t => herror _ t
  | succ fuel ih =>
    refine .bind (fun message t => ∃ before, P before ∧ t = before ++ [.received message])
      (upholds_receive (fun message t hP => ⟨t, hP, rfl⟩) herror) ?_
    intro message
    by_cases h : IsReply id message
    · rw [h.method]
      simp only [h.id, if_true]
      refine .pure ?_
      rintro t ⟨before, hP, rfl⟩
      exact hreply message before h hP
    · have hpassed (t : List Event) (ht : ∃ before, P before ∧ t = before ++ [.received message]) :
          P t := by
        obtain ⟨before, hP, rfl⟩ := ht
        exact patient before _ rfl (reply?_received_of_not_isReply h) hP
      have hrest : Upholds P (do
          notify callback message
          awaitReply peer callback id fuel) Q :=
        .bind (fun _ => P) (upholds_notify_of_patient patient herror) fun _ => ih
      refine Upholds.of_imp (P := P) ?_ hpassed
      cases hmethod : Entries.find? "method" message with
      | none =>
        simp only [same_eq_false_of_not_isReply h hmethod, Bool.false_eq_true, if_false]
        exact ih
      | some method =>
        cases hid : Entries.find? "id" message with
        | none => exact hrest
        | some other =>
          exact .bind (fun _ => P) (upholds_acknowledge_of_patient patient herror) fun _ => hrest

/-- A request is written, and then the client waits for the reply. -/
theorem upholds_request {method : Text} {params : Option Value} {R : List Event → Prop}
    (hwrite : ∀ t, P t → R (t ++ [.wrote (requestMessage id method params)]))
    (patient : Patient id R) {Q : Except Fault Entries → List Event → Prop}
    (hreply : ∀ reply t, IsReply id reply → R t → Q (.ok reply) (t ++ [.received reply]))
    (hunsent : ∀ fault t, P t → Q (.error fault) t)
    (herror : ∀ fault t, R t → Q (.error fault) t) :
    Upholds P (request peer callback id method params) Q := by
  refine .bind (fun _ => R) (upholds_write hwrite hunsent) fun _ => ?_
  exact .bind (fun _ => R) upholds_get fun ch => upholds_awaitReply patient hreply herror _

end

end Channel
end StepLocator
