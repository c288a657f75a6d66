import Mathlib.Data.List.Basic
import Mathlib.Data.List.TakeWhile
import StepLocator.Proofs.Client.Reading
import StepLocator.Proofs.Client.Trace

/-!
What a request comes to. The stream brings messages one after the other; those before the reply are
taken care of, each as it comes, and those behind it stay. So the messages alone tell what the
client writes meanwhile, what the callback is told, and how the request ends.
-/
namespace StepLocator

theorem Value.eq_null_of_same {v : Value} (h : Value.same .null v = true) : v = .null := by
  cases v with
  | null => rfl
  | _ => simp [Value.same, Value.number?] at h

namespace Incoming

variable {s : Incoming} {header body rest bytes : Bytes} {message : Entries}
  {messages front behind : List Entries}

/-- A frame at the front of a stream is read, whatever its header is. -/
theorem readMessage_of_isFrame (h : IsFrame header body message) (inTime : s.expired = false)
    (asked : ∀ most ∈ s.limit, body.length ≤ most) (hbytes : s.bytes = header ++ body ++ rest) :
    ∃ left, s.readMessage = (.ok message, { s with bytes := rest, cuts := left }) := by
  have hsplit : splitHeader s.bytes = some (header, body ++ rest) := by
    rw [hbytes, List.append_assoc]
    exact (splitHeader_eq_some h.split).2 _
  have hsign : ¬ (body.length : Int) ≤ 0 := by
    have := h.positive
    omega
  obtain ⟨left, hbody⟩ := readBody_append s.cuts body rest
  refine ⟨left, ?_⟩
  simp only [readMessage, inTime, Bool.false_eq_true, if_false, hsplit, h.fields, hsign,
    Int.toNat_natCast, refuses_eq_false asked, hbody, h.message]

theorem readMessage_of_nil (inTime : s.expired = false) (used : s.bytes = []) :
    s.readMessage = (.error s.dry, s) := by
  obtain ⟨bytes, cuts, limit, heldOpen, expired⟩ := s
  simp only at inTime used
  subst inTime used
  rfl

theorem IsFrame.length_pos (h : IsFrame header body message) : 0 < (header ++ body).length := by
  have := h.positive
  rw [List.length_append]
  omega

theorem Frames.length_le (h : Frames rest messages bytes) :
    rest.length + messages.length ≤ bytes.length := by
  induction h with
  | none => exact Nat.le_refl _
  | cons frame _ ih =>
    have := frame.length_pos
    rw [List.length_append, List.length_cons]
    omega

theorem Frames.split (h : Frames rest (front ++ behind) bytes) :
    ∃ middle, Frames middle front bytes ∧ Frames rest behind middle := by
  induction front generalizing bytes with
  | nil => exact ⟨bytes, .none, h⟩
  | cons message front ih =>
    cases h with
    | cons frame more =>
      obtain ⟨middle, hfront, hbehind⟩ := ih more
      exact ⟨middle, .cons frame hfront, hbehind⟩

theorem isFrame_of_carries (h : Frame.Carries message) :
    ∃ header body, Frame.encode (.table message) = header ++ body ∧
      IsFrame header body message := by
  let body := Utf8.encode (Json.print (.table message))
  refine ⟨Utf8.encode (Frame.field body.length) ++ [13, 10, 13, 10], body, ?_, ?_, ?_,
    length_payload_pos message, messageOf_encode h⟩
  · rw [Frame.encode_eq, List.append_assoc]
  · simpa using splitHeader_append (return_notMem_encode_field body.length) []
  · exact lengthOf_header (length_natText_le h.fits)

theorem frames_of_carries (h : ∀ m ∈ messages, Frame.Carries m) (rest : Bytes) :
    Frames rest messages ((messages.flatMap fun m => Frame.encode (.table m)) ++ rest) := by
  induction messages with
  | nil => exact .none
  | cons message messages ih =>
    obtain ⟨header, body, hframe, hmessage⟩ := isFrame_of_carries (h message List.mem_cons_self)
    rw [List.flatMap_cons, hframe, List.append_assoc]
    exact .cons hmessage (ih fun m hm => h m (List.mem_cons_of_mem _ hm))

end Incoming

namespace Channel

open Incoming (Frames IsFrame)

variable {σ : Type} {peer : Peer σ} {callback : Option Callback} {id : Value}
  {ch ch' ch'' : Channel σ} {message reply : Entries} {messages passed : List Entries}
  {header body rest left left' : Bytes} {happened more : List Event}

/-! ### One message -/

/-- What happens when a message is passed over: one that names a method is acknowledged if it has an
id, and then the callback, if there is one, is told of it. -/
def handled (callback : Option Callback) (message : Entries) : List Event :=
  .received message ::
    match Entries.find? "method" message with
    | none => []
    | some _ =>
      ((Entries.find? "id" message).toList.map fun other =>
          .acknowledged (acknowledgement other)) ++
        callback.toList.map fun _ => .notified message

/-- A channel that is read in time, over which everything can be written, and at which a read may
ask for all the octets that are there. -/
structure Usable (ch : Channel σ) : Prop where
  inTime : ch.incoming.expired = false
  asked : ∀ most ∈ ch.incoming.limit, ch.incoming.bytes.length ≤ most
  free : ch.writesLeft = none

/-- A channel after something has happened: the octets that are left and the trace are told. -/
structure Moved (ch : Channel σ) (left : Bytes) (happened : List Event) (ch' : Channel σ) :
    Prop where
  bytes : ch'.incoming.bytes = left
  trace : ch'.trace = ch.trace ++ happened
  limit : ch'.incoming.limit = ch.incoming.limit
  heldOpen : ch'.incoming.heldOpen = ch.incoming.heldOpen
  expired : ch'.incoming.expired = ch.incoming.expired
  writesLeft : ch'.writesLeft = ch.writesLeft

theorem Moved.refl (ch : Channel σ) : ch.Moved ch.incoming.bytes [] ch :=
  ⟨rfl, (List.append_nil _).symm, rfl, rfl, rfl, rfl⟩

theorem Moved.trans (h : ch.Moved left happened ch') (h' : ch'.Moved left' more ch'') :
    ch.Moved left' (happened ++ more) ch'' where
  bytes := h'.bytes
  trace := by rw [h'.trace, h.trace, List.append_assoc]
  limit := h'.limit.trans h.limit
  heldOpen := h'.heldOpen.trans h.heldOpen
  expired := h'.expired.trans h.expired
  writesLeft := h'.writesLeft.trans h.writesLeft

theorem Moved.dry (h : ch.Moved left happened ch') : ch'.incoming.dry = ch.incoming.dry := by
  rw [Incoming.dry, Incoming.dry, h.heldOpen]

theorem Usable.of_moved (usable : ch.Usable) (h : ch.Moved left happened ch')
    (fewer : left.length ≤ ch.incoming.bytes.length) : ch'.Usable where
  inTime := h.expired.trans usable.inTime
  asked most hmost := by
    rw [h.bytes]
    exact Nat.le_trans fewer (usable.asked most (h.limit ▸ hmost))
  free := h.writesLeft.trans usable.free

theorem runFrom_receive_of_isFrame (usable : ch.Usable) (h : IsFrame header body message)
    (hbytes : ch.incoming.bytes = header ++ body ++ rest) :
    ∃ ch', runFrom receive ch = (.ok message, ch') ∧ ch.Moved rest [.received message] ch' := by
  have hasked (most : Nat) (hmost : most ∈ ch.incoming.limit) : body.length ≤ most := by
    have hle := usable.asked most hmost
    rw [hbytes, List.length_append, List.length_append] at hle
    omega
  obtain ⟨left, hread⟩ := Incoming.readMessage_of_isFrame h usable.inTime hasked hbytes
  refine ⟨{ ch with
    incoming := { ch.incoming with bytes := rest, cuts := left }
    trace := ch.trace ++ [.received message] }, ?_, rfl, rfl, rfl, rfl, rfl, rfl⟩
  unfold receive
  rw [runFrom_bind_of_ok (rfl : runFrom get ch = (.ok ch, ch))]
  simp only [hread]
  rfl

theorem runFrom_receive_of_nil (usable : ch.Usable) (used : ch.incoming.bytes = []) :
    runFrom receive ch = (.error (.read ch.incoming.dry), ch) := by
  unfold receive
  rw [runFrom_bind_of_ok (rfl : runFrom get ch = (.ok ch, ch))]
  simp only [Incoming.readMessage_of_nil usable.inTime used]
  rfl

theorem runFrom_notify (calm : Callback.Calm callback) (message : Entries) (ch : Channel σ) :
    runFrom (notify callback message) ch =
      (.ok (),
        { ch with trace := ch.trace ++ callback.toList.map fun _ => .notified message }) := by
  cases callback with
  | none => simp [notify]
  | some told =>
    have htold : told message = none := calm told rfl message
    rw [notify, runFrom_bind_of_ok (rfl : runFrom (note (.notified message)) ch =
      (.ok (), { ch with trace := ch.trace ++ [.notified message] }))]
    simp [htold]

theorem runFrom_notify_bind (peer : Peer σ) (id : Value) (calm : Callback.Calm callback)
    (message : Entries) (fuel : Nat) (ch : Channel σ) :
    ∃ ch', runFrom (do
        notify callback message
        awaitReply peer callback id fuel) ch = runFrom (awaitReply peer callback id fuel) ch' ∧
      ch.Moved ch.incoming.bytes (callback.toList.map fun _ => .notified message) ch' := by
  rw [runFrom_bind_of_ok (runFrom_notify calm message ch)]
  exact ⟨_, rfl, rfl, rfl, rfl, rfl, rfl, rfl⟩

theorem runFrom_awaitReply_of_not_isReply (peer : Peer σ) (calm : Callback.Calm callback)
    (usable : ch.Usable) (h : IsFrame header body message)
    (hreply : ¬ IsReply id message) (hbytes : ch.incoming.bytes = header ++ body ++ rest)
    (fuel : Nat) :
    ∃ ch', runFrom (awaitReply peer callback id (fuel + 1)) ch =
        runFrom (awaitReply peer callback id fuel) ch' ∧
      ch.Moved rest (handled callback message) ch' := by
  obtain ⟨received, hreceive, hmoved⟩ := runFrom_receive_of_isFrame usable h hbytes
  have hfree : received.writesLeft = none := hmoved.writesLeft.trans usable.free
  rw [awaitReply, runFrom_bind_of_ok hreceive]
  -- without a method it is the reply to another request
  cases hmethod : Entries.find? "method" message with
  | none =>
    simp only [same_eq_false_of_not_isReply hreply hmethod, Bool.false_eq_true, if_false]
    exact ⟨received, rfl, by simpa only [handled, hmethod] using hmoved⟩
  | some method =>
    cases hid : Entries.find? "id" message with
    | none =>
      obtain ⟨ch', hrest, htold⟩ := runFrom_notify_bind peer id calm message fuel received
      refine ⟨ch', ?_, ?_⟩
      · exact hrest
      · rw [hmoved.bytes] at htold
        simp only [handled, hmethod, hid]
        exact hmoved.trans htold
    | some other =>
      let known : Channel σ := { received with
        peer := peer.learn (acknowledgement other) received.peer
        trace := received.trace ++ [.acknowledged (acknowledgement other)] }
      have hknown : received.Moved rest [.acknowledged (acknowledgement other)] known :=
        ⟨hmoved.bytes, rfl, rfl, rfl, rfl, rfl⟩
      obtain ⟨ch', hrest, htold⟩ := runFrom_notify_bind peer id calm message fuel known
      refine ⟨ch', ?_, ?_⟩
      · show runFrom (acknowledge peer other >>= _) received = _
        rw [runFrom_bind_of_ok (runFrom_acknowledge hfree other)]
        exact hrest
      · rw [hknown.bytes] at htold
        simp only [handled, hmethod, hid]
        exact (hmoved.trans hknown).trans htold

theorem runFrom_awaitReply_of_isReply (peer : Peer σ) (callback : Option Callback)
    (usable : ch.Usable) (h : IsFrame header body reply) (hreply : IsReply id reply)
    (hbytes : ch.incoming.bytes = header ++ body ++ rest) (fuel : Nat) :
    ∃ ch', runFrom (awaitReply peer callback id (fuel + 1)) ch = (.ok reply, ch') ∧
      ch.Moved rest [.received reply] ch' := by
  obtain ⟨ch', hreceive, hmoved⟩ := runFrom_receive_of_isFrame usable h hbytes
  refine ⟨ch', ?_, hmoved⟩
  rw [awaitReply, runFrom_bind_of_ok hreceive, hreply.method]
  simp only [hreply.id, if_true]
  rfl

theorem runFrom_awaitReply_of_nil (usable : ch.Usable) (used : ch.incoming.bytes = [])
    (fuel : Nat) :
    runFrom (awaitReply peer callback id (fuel + 1)) ch =
      (.error (.read ch.incoming.dry), ch) := by
  rw [awaitReply, runFrom_bind_of_error (runFrom_receive_of_nil usable used)]

/-! ### All messages -/

/-- Messages among which the reply is not are passed over one after the other. -/
theorem runFrom_awaitReply_of_passed (peer : Peer σ) (calm : Callback.Calm callback)
    (usable : ch.Usable) (stream : Frames rest passed ch.incoming.bytes)
    (hpassed : ∀ m ∈ passed, ¬ IsReply id m) (fuel : Nat) :
    ∃ ch', runFrom (awaitReply peer callback id (passed.length + fuel)) ch =
        runFrom (awaitReply peer callback id fuel) ch' ∧
      ch.Moved rest (passed.flatMap (handled callback)) ch' ∧ ch'.Usable := by
  induction passed generalizing ch with
  | nil =>
    generalize hbytes : ch.incoming.bytes = bytes at stream
    cases stream
    exact ⟨ch, by rw [List.length_nil, Nat.zero_add], hbytes ▸ Moved.refl ch, usable⟩
  | cons message passed ih =>
    generalize hbytes : ch.incoming.bytes = bytes at stream
    cases stream with
    | @cons header body bytes _ _ frame stream =>
      obtain ⟨next, hnext, hmoved⟩ := runFrom_awaitReply_of_not_isReply peer calm usable
        frame (hpassed message List.mem_cons_self) hbytes (passed.length + fuel)
      have husable : next.Usable := by
        refine usable.of_moved hmoved ?_
        rw [hbytes, List.length_append]
        exact Nat.le_add_left _ _
      obtain ⟨ch', hrun, hmoved', husable'⟩ := ih husable (hmoved.bytes ▸ stream)
        fun m hm => hpassed m (List.mem_cons_of_mem _ hm)
      refine ⟨ch', ?_, ?_, husable'⟩
      · rw [List.length_cons, Nat.add_right_comm, hnext, hrun]
      · rw [List.flatMap_cons]
        exact hmoved.trans hmoved'

/-! ### Among all messages -/

def replyAmong (id : Value) (messages : List Entries) : Option Entries :=
  messages.find? fun message => IsReply id message

def inFront (id : Value) (messages : List Entries) : List Entries :=
  messages.takeWhile fun message => ¬ IsReply id message

def course (callback : Option Callback) (id wish : Value) (messages : List Entries) : List Event :=
  .wrote wish :: ((inFront id messages).flatMap (handled callback) ++
    (replyAmong id messages).toList.map .received)

/-- What the wait for a reply does over a channel, and how it ends, if the stream has the frames of
the given messages and others behind them. -/
structure Awaited (callback : Option Callback) (id : Value) (messages : List Entries) (rest : Bytes)
    (ch : Channel σ) (outcome : Except Fault Entries) (ch' : Channel σ) : Prop where
  outcome : outcome =
    match replyAmong id messages with
    | some reply => .ok reply
    | none => .error (.read ch.incoming.dry)
  trace : ch'.trace = ch.trace ++ ((inFront id messages).flatMap (handled callback) ++
    (replyAmong id messages).toList.map .received)
  taken : Frames ch'.incoming.bytes (inFront id messages ++ (replyAmong id messages).toList)
    ch.incoming.bytes
  left : Frames rest (messages.drop ((inFront id messages).length + 1)) ch'.incoming.bytes

theorem not_isReply_of_mem_inFront (h : message ∈ inFront id messages) : ¬ IsReply id message := by
  simpa using List.all_eq_true.mp List.all_takeWhile message h

theorem isReply_of_replyAmong (h : replyAmong id messages = some reply) : IsReply id reply := by
  simpa using List.find?_some h

theorem inFront_of_replyAmong_eq_none (h : replyAmong id messages = none) :
    inFront id messages = messages := by
  refine List.takeWhile_eq_self_iff.mpr fun message hmessage => ?_
  simpa using List.find?_eq_none.mp h message hmessage

theorem inFront_append (id : Value) (messages : List Entries) :
    inFront id messages ++ ((replyAmong id messages).toList ++
      messages.drop ((inFront id messages).length + 1)) = messages := by
  induction messages with
  | nil => rfl
  | cons message messages ih =>
    by_cases h : IsReply id message
    · simp [inFront, replyAmong, h]
    · have hrest : inFront id (message :: messages) = message :: inFront id messages := by
        simp [inFront, h]
      have hreply : replyAmong id (message :: messages) = replyAmong id messages := by
        simp [replyAmong, h]
      rw [hrest, hreply, List.cons_append, List.length_cons, List.drop_succ_cons, ih]

theorem awaited_of_none (peer : Peer σ) (calm : Callback.Calm callback) (usable : ch.Usable)
    (stream : Frames [] messages ch.incoming.bytes) (hreply : replyAmong id messages = none)
    (fuel : Nat) :
    ∃ outcome ch', runFrom (awaitReply peer callback id
        ((inFront id messages).length + (fuel + 1))) ch = (outcome, ch') ∧
      Awaited callback id messages [] ch outcome ch' := by
  have hall : inFront id messages = messages := inFront_of_replyAmong_eq_none hreply
  have hpassed (m : Entries) (hm : m ∈ messages) : ¬ IsReply id m := by
    rw [← hall] at hm
    exact not_isReply_of_mem_inFront hm
  obtain ⟨waiting, hrun, hmoved, hwaiting⟩ := runFrom_awaitReply_of_passed peer calm usable stream
    hpassed (fuel + 1)
  rw [hall, hrun]
  refine ⟨_, _, runFrom_awaitReply_of_nil hwaiting hmoved.bytes fuel, ?_, ?_, ?_, ?_⟩
  · rw [hreply, hmoved.dry]
  · rw [hmoved.trace, hall, hreply, Option.toList_none, List.map_nil, List.append_nil]
  · rw [hmoved.bytes, hall, hreply, Option.toList_none, List.append_nil]
    exact stream
  · rw [hmoved.bytes, hall, List.drop_eq_nil_of_le (Nat.le_succ _)]
    exact .none

theorem awaited_of_some (peer : Peer σ) (calm : Callback.Calm callback) (usable : ch.Usable)
    (stream : Frames rest messages ch.incoming.bytes)
    (hreply : replyAmong id messages = some reply) (fuel : Nat) :
    ∃ outcome ch', runFrom (awaitReply peer callback id
        ((inFront id messages).length + (fuel + 1))) ch = (outcome, ch') ∧
      Awaited callback id messages rest ch outcome ch' := by
  -- the messages in front, then the reply
  rw [← inFront_append id messages, hreply] at stream
  obtain ⟨middle, hfront, hbehind⟩ := stream.split
  obtain ⟨waiting, hrun, hmoved, hwaiting⟩ := runFrom_awaitReply_of_passed peer calm usable hfront
    (fun m hm => not_isReply_of_mem_inFront hm) (fuel + 1)
  rw [hrun]
  cases hbehind with
  | cons frame more =>
    obtain ⟨ch', hfound, hmoved'⟩ := runFrom_awaitReply_of_isReply peer callback hwaiting frame
      (isReply_of_replyAmong hreply) hmoved.bytes fuel
    refine ⟨_, _, hfound, ?_, ?_, ?_, ?_⟩
    · rw [hreply]
    · rw [hmoved'.trace, hmoved.trace, hreply, List.append_assoc]
      rfl
    · rw [hreply, Option.toList_some, hmoved'.bytes]
      exact hfront.concat frame
    · rw [hmoved'.bytes]
      exact more

theorem length_inFront_le (id : Value) (messages : List Entries) :
    (inFront id messages).length ≤ messages.length :=
  (List.takeWhile_prefix _).length_le

/-- The wait ends as the messages of the stream say: there are no more of them than octets. -/
theorem awaited (peer : Peer σ) (calm : Callback.Calm callback) (usable : ch.Usable)
    (stream : Frames rest messages ch.incoming.bytes)
    (ends : rest ≠ [] → ∃ m ∈ messages, IsReply id m) :
    ∃ outcome ch', runFrom (awaitReply peer callback id (ch.incoming.bytes.length + 1)) ch =
        (outcome, ch') ∧ Awaited callback id messages rest ch outcome ch' := by
  obtain ⟨fuel, hfuel⟩ : ∃ fuel, ch.incoming.bytes.length + 1 =
      (inFront id messages).length + (fuel + 1) := by
    have hfew := stream.length_le
    have hfront := length_inFront_le id messages
    exact ⟨ch.incoming.bytes.length - (inFront id messages).length, by omega⟩
  rw [hfuel]
  cases hreply : replyAmong id messages with
  | some reply => exact awaited_of_some peer calm usable stream hreply fuel
  | none =>
    obtain rfl : rest = [] := by
      refine Decidable.byContradiction fun hrest => ?_
      obtain ⟨m, hm, hreplies⟩ := ends hrest
      rw [← inFront_of_replyAmong_eq_none hreply] at hm
      exact not_isReply_of_mem_inFront hm hreplies
    exact awaited_of_none peer calm usable stream hreply fuel

/-! ### What is written and told -/

def Event.acknowledged? : Event → Option Value
  | .acknowledged message => some message
  | _ => none

/-- The acknowledgement that a message asks for: it names a method and has an id. -/
def acknowledgement? (message : Entries) : Option Value :=
  match Entries.find? "method" message with
  | some _ => (Entries.find? "id" message).map acknowledgement
  | none => none

theorem written_handled (message : Entries) : written (handled callback message) = [] := by
  unfold handled
  cases Entries.find? "method" message with
  | none => rfl
  | some _ => cases Entries.find? "id" message <;> cases callback <;> rfl

theorem acknowledged_handled (message : Entries) :
    (handled callback message).filterMap Event.acknowledged? =
      (acknowledgement? message).toList := by
  unfold handled acknowledgement?
  cases Entries.find? "method" message with
  | none => rfl
  | some _ => cases Entries.find? "id" message <;> cases callback <;> rfl

theorem notified_handled (told : Callback) (message : Entries) :
    (handled (some told) message).filterMap Event.notification? =
      (Option.guard (fun m => (Entries.find? "method" m).isSome) message).toList := by
  cases hmethod : Entries.find? "method" message with
  | none =>
    simp only [handled, Option.guard, hmethod]
    rfl
  | some _ =>
    simp only [handled, Option.guard, hmethod]
    cases Entries.find? "id" message <;> rfl

/-- What is kept of all that happens is what is kept of the request and of what happens to each
message in front of the reply. -/
theorem filterMap_course {β : Type} (keep : Event → Option β)
    (received : ∀ message, keep (.received message) = none) (wish : Value)
    (messages : List Entries) :
    (course callback id wish messages).filterMap keep = (keep (.wrote wish)).toList ++
      (inFront id messages).flatMap fun message => (handled callback message).filterMap keep := by
  have hreply : ((replyAmong id messages).toList.map .received).filterMap keep = [] := by
    cases replyAmong id messages <;> simp [received]
  rw [course, List.filterMap_cons, List.filterMap_append, hreply, List.append_nil,
    List.filterMap_flatMap]
  cases keep (.wrote wish) <;> rfl

theorem written_course (wish : Value) (messages : List Entries) :
    written (course callback id wish messages) = [wish] := by
  rw [written, filterMap_course Event.written? fun _ => rfl]
  have hnone (message : Entries) : (handled callback message).filterMap Event.written? = [] :=
    written_handled message
  simp [hnone, Event.written?]

theorem acknowledged_course (wish : Value) (messages : List Entries) :
    (course callback id wish messages).filterMap Event.acknowledged? =
      (inFront id messages).filterMap acknowledgement? := by
  rw [filterMap_course Event.acknowledged? fun _ => rfl]
  simp only [acknowledged_handled]
  rw [← List.filterMap_eq_flatMap_toList]
  rfl

theorem notified_course (told : Callback) (wish : Value) (messages : List Entries) :
    (course (some told) id wish messages).filterMap Event.notification? =
      (inFront id messages).filter fun message => (Entries.find? "method" message).isSome := by
  rw [filterMap_course Event.notification? fun _ => rfl]
  simp only [notified_handled]
  rw [← List.filterMap_eq_flatMap_toList, List.filterMap_eq_filter]
  rfl

theorem IsReply.find?_id (h : IsReply id reply) (hid : id ≠ .null) :
    ∃ own, Entries.find? "id" reply = some own ∧ Value.same own id = true := by
  have hsame := h.id
  unfold Reply.member at hsame
  cases hfind : Entries.find? "id" reply with
  | none =>
    rw [hfind] at hsame
    exact absurd (Value.eq_null_of_same hsame) hid
  | some own =>
    rw [hfind] at hsame
    exact ⟨own, rfl, hsame⟩

/-- A request over a channel to whose peer everything can be written, and whose stream brings some
messages. It gives the first one that is a reply, or fails as the client does if there is none. What
is written on the way are the acknowledgements of those messages in front of the reply that name a
method and have an id, what the callback is told of are those that name a method, each once and in
order. The frames up to the reply are all that is taken off the stream. -/
theorem request_among_messages (peer : Peer σ) (ch : Channel σ) (method : Text)
    (params : Option Value) {bytes : Bytes} (calm : Callback.Calm callback)
    (free : ch.writesLeft = none) (inTime : ch.incoming.expired = false)
    (hbytes : bytes = ch.incoming.bytes ++
      (peer.hear (requestMessage id method params) ch.peer).2)
    (asked : ∀ most ∈ ch.incoming.limit, bytes.length ≤ most)
    (stream : Frames rest messages bytes) (ends : rest ≠ [] → ∃ m ∈ messages, IsReply id m) :
    let wish := requestMessage id method params
    let events := course callback id wish messages
    ∃ outcome ch', runFrom (request peer callback id method params) ch = (outcome, ch') ∧
      (match replyAmong id messages with
        | some reply => outcome = .ok reply ∧
            (id ≠ .null → ∃ own, Entries.find? "id" reply = some own ∧ Value.same own id = true)
        | none => ∃ fault, outcome = .error fault ∧ fault.isReported = true) ∧
      ch'.trace = ch.trace ++ events ∧
      written events = [wish] ∧
      events.filterMap Event.acknowledged? = (inFront id messages).filterMap acknowledgement? ∧
      (∀ told, callback = some told → events.filterMap Event.notification? =
        (inFront id messages).filter fun message => (Entries.find? "method" message).isSome) ∧
      Frames ch'.incoming.bytes (inFront id messages ++ (replyAmong id messages).toList) bytes ∧
      Frames rest (messages.drop ((inFront id messages).length + 1)) ch'.incoming.bytes := by
  intro wish events
  let sent : Channel σ := { ch with
    peer := (peer.hear wish ch.peer).1
    incoming := { ch.incoming with bytes }
    trace := ch.trace ++ [.wrote wish] }
  have hsent : runFrom (write peer wish) ch = (.ok (), sent) := by
    rw [runFrom_write free, ← hbytes]
  have hget : runFrom (get : Exchange σ (Channel σ)) sent = (.ok sent, sent) := rfl
  have usable : sent.Usable := ⟨inTime, asked, free⟩
  obtain ⟨outcome, ch', hrun, hawaited⟩ := awaited peer calm usable stream ends
  have htrace : ch'.trace = ch.trace ++ events := by
    rw [hawaited.trace, List.append_assoc]
    rfl
  refine ⟨outcome, ch', ?_, ?_, htrace, written_course _ _, acknowledged_course _ _, ?_,
    hawaited.taken, hawaited.left⟩
  · rw [request, runFrom_bind_of_ok hsent, runFrom_bind_of_ok hget, hrun]
  · rw [hawaited.outcome]
    cases hreply : replyAmong id messages with
    | none => exact ⟨_, rfl, Incoming.isReported_dry _⟩
    | some reply => exact ⟨rfl, (isReply_of_replyAmong hreply).find?_id⟩
  · rintro told rfl
    exact notified_course told _ _

/-- A message of each kind: one for the callback alone, a request of the server under the id of the
pending one, a reply to another request, and the reply. The frame behind it stays, and so does what
is no frame yet. -/
theorem request_among_messages_of_each_kind :
    let note : Entries := [("method", .text "log")]
    let call : Entries := [("id", .int 1), ("method", .text "ask")]
    let stale : Entries := [("id", .int 0)]
    let reply : Entries := [("id", .int 1)]
    let bytes := ([note, call, stale, reply, []].flatMap fun m => Frame.encode (.table m)) ++ [67]
    let ch : Channel Unit := begin () ⟨bytes, [], some Incoming.wordLimit, false, false⟩ none
    let (outcome, ch') := runFrom (request .silent (some fun _ => none) (.int 1) "ask" none) ch
    outcome = .ok reply ∧
      ch'.trace.filterMap Event.acknowledged? = [acknowledgement (.int 1)] ∧
      ch'.trace.filterMap Event.notification? = [note, call] ∧
      Frames [67] [[]] ch'.incoming.bytes := by
  intro note call stale reply bytes ch
  have carries : ∀ m ∈ [note, call, stale, reply, []], Frame.Carries m := by
    have hdigit : (natText 0).length ≤ digitLimit ∧ (natText 1).length ≤ digitLimit := by
      decide +kernel
    have hshort (entries : Entries) (h : Json.Readable 1 (.table entries)) (fits) :
        Frame.Carries entries := .of_readable (h.mono (by decide)) fits
    simp only [List.mem_cons, List.not_mem_nil, or_false, forall_eq_or_imp, forall_eq]
    refine ⟨?_, ?_, ?_, ?_, ?_⟩ <;> refine hshort _ (.table (by decide) ?_) (by decide +kernel)
    all_goals simp [note, call, stale, reply, hdigit]
  have calm : Callback.Calm (some fun _ => none) := by
    rintro _ ⟨⟩ _
    rfl
  have asked : ∀ most ∈ ch.incoming.limit, bytes.length ≤ most := by
    rintro _ ⟨⟩
    decide +kernel
  have replies : IsReply (.int 1) reply := ⟨rfl, rfl⟩
  obtain ⟨outcome, ch', hrun, houtcome, htrace, -, hknown, htold, -, hleft⟩ :=
    request_among_messages .silent ch "ask" none calm rfl rfl (List.append_nil bytes).symm asked
      (Incoming.frames_of_carries carries [67]) fun _ => ⟨reply, by simp, replies⟩
  rw [hrun]
  refine ⟨houtcome.1, ?_, ?_, hleft⟩
  · rw [htrace]
    exact hknown
  · rw [htrace]
    exact htold _ rfl

end Channel
end StepLocator
