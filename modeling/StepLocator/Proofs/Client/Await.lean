import StepLocator.Client.Consultation
import StepLocator.Proofs.Client.Exchange

/-!
Requests and their replies. On the way to a reply the client takes care of whatever else the server
has sent: it acknowledges the requests of the server and passes over the replies to other requests.
-/
namespace StepLocator

def Callback.Calm (callback : Option Callback) : Prop := ∀ told ∈ callback, ∀ m, told m = none

namespace Channel

/-- A channel at which a peer is in some state and some octets are still to come; it is read in
time, and everything can be written to it. -/
structure At {σ : Type} (ch : Channel σ) (state : σ) (bytes : Bytes) : Prop where
  peer : ch.peer = state
  bytes : ch.incoming.bytes = bytes
  ready : ch.incoming.Ready
  free : ch.writesLeft = none

/-- A step that has an outcome at every such channel, and what it makes of the peer and of the
octets. -/
def Yields {ε σ α : Type} (x : ExceptT ε (StateM (Channel σ)) α) (state : σ) (bytes : Bytes)
    (outcome : Except ε α) (after : σ) (left : Bytes) : Prop :=
  ∀ ch : Channel σ, ch.At state bytes → ∃ ch', runFrom x ch = (outcome, ch') ∧ ch'.At after left

section

variable {ε σ α β : Type} {x : ExceptT ε (StateM (Channel σ)) α}
  {f : α → ExceptT ε (StateM (Channel σ)) β} {s s' s'' : σ} {b b' b'' : Bytes}

theorem Yields.pure (a : α) (s : σ) (b : Bytes) :
    Yields (Pure.pure a : ExceptT ε (StateM (Channel σ)) α) s b (.ok a) s b :=
  fun ch h => ⟨ch, rfl, h⟩

theorem Yields.throw (e : ε) (s : σ) (b : Bytes) :
    Yields (throw e : ExceptT ε (StateM (Channel σ)) α) s b (.error e) s b :=
  fun ch h => ⟨ch, rfl, h⟩

/-- A step after one that succeeds goes on from where that left. -/
theorem Yields.bind {a : α} {outcome : Except ε β} (h : Yields x s b (.ok a) s' b')
    (hf : Yields (f a) s' b' outcome s'' b'') : Yields (x >>= f) s b outcome s'' b'' := by
  intro ch hat
  obtain ⟨ch', hx, hat'⟩ := h ch hat
  obtain ⟨ch'', hfa, hat''⟩ := hf ch' hat'
  exact ⟨ch'', (runFrom_bind_of_ok hx).trans hfa, hat''⟩

theorem Yields.bind_error {e : ε} (h : Yields x s b (.error e) s' b') :
    Yields (x >>= f) s b (.error e) s' b' := by
  intro ch hat
  obtain ⟨ch', hx, hat'⟩ := h ch hat
  exact ⟨ch', runFrom_bind_of_error hx, hat'⟩

end

variable {σ : Type} {peer : Peer σ} {s : σ} {bytes : Bytes}

theorem yields_write (peer : Peer σ) (message : Value) (s : σ) (bytes : Bytes) :
    Yields (write peer message) s bytes (.ok ()) (peer.hear message s).1
      (bytes ++ (peer.hear message s).2) := by
  intro ch h
  refine ⟨_, runFrom_write h.free message, ?_⟩
  obtain ⟨rfl, rfl, ready, free⟩ := h
  exact ⟨rfl, rfl, ⟨ready.inTime, ready.unbounded⟩, free⟩

theorem yields_acknowledge (id : Value) (s : σ) (bytes : Bytes) :
    Yields (acknowledge peer id) s bytes (.ok ()) (peer.learn (acknowledgement id) s) bytes := by
  intro ch h
  refine ⟨_, runFrom_acknowledge h.free id, ?_⟩
  obtain ⟨rfl, rfl, ready, free⟩ := h
  exact ⟨rfl, rfl, ready, free⟩

theorem yields_receive {message : Entries} (h : Frame.Carries message) (s : σ) (rest : Bytes) :
    Yields receive s (Frame.encode (.table message) ++ rest) (.ok message) s rest := by
  intro ch hat
  obtain ⟨left, hreceive⟩ := runFrom_receive hat.ready h hat.bytes
  refine ⟨_, hreceive, ?_⟩
  exact ⟨hat.peer, rfl, ⟨hat.ready.inTime, hat.ready.unbounded⟩, hat.free⟩

theorem yields_note (event : Event) (s : σ) (bytes : Bytes) :
    Yields (note event) s bytes (.ok ()) s bytes := by
  intro ch h
  obtain ⟨rfl, rfl, ready, free⟩ := h
  exact ⟨{ ch with trace := ch.trace ++ [event] }, rfl, rfl, rfl, ready, free⟩

theorem yields_notify {callback : Option Callback} (calm : Callback.Calm callback)
    (message : Entries) (s : σ) (bytes : Bytes) :
    Yields (notify callback message) s bytes (.ok ()) s bytes := by
  cases callback with
  | none => exact .pure () s bytes
  | some told =>
    have htold : told message = none := calm told rfl message
    refine (yields_note _ s bytes).bind ?_
    rw [htold]
    exact .pure () s bytes

/-- What a peer learns while the client passes over a message: a request of its own is
acknowledged. -/
def learned (peer : Peer σ) (s : σ) (message : Entries) : σ :=
  match Entries.find? "method" message, Entries.find? "id" message with
  | some _, some id => peer.learn (acknowledgement id) s
  | _, _ => s

/-- A message that is not the reply to the request with an id. -/
def PassesOver (id : Value) (message : Entries) : Prop :=
  (Entries.find? "method" message).isSome = true ∨ Value.same (Reply.member "id" message) id = false

structure IsReply (id : Value) (message : Entries) : Prop where
  method : Entries.find? "method" message = none
  id : Value.same (Reply.member "id" message) id = true

theorem yields_awaitReply_of_isReply {callback : Option Callback} {id : Value} {reply : Entries}
    (carries : Frame.Carries reply) (h : IsReply id reply) (fuel : Nat) (s : σ) (rest : Bytes) :
    Yields (awaitReply peer callback id (fuel + 1)) s (Frame.encode (.table reply) ++ rest)
      (.ok reply) s rest := by
  refine (yields_receive carries s rest).bind ?_
  rw [h.method]
  simp only [h.id, if_true]
  exact .pure reply s rest

theorem yields_awaitReply_of_passesOver {callback : Option Callback}
    (calm : Callback.Calm callback) {id : Value} {message : Entries}
    (carries : Frame.Carries message) (h : PassesOver id message) {fuel : Nat} {s after : σ}
    {rest left : Bytes} {outcome : Except Fault Entries}
    (hrest : Yields (awaitReply peer callback id fuel) (learned peer s message) rest outcome after
      left) :
    Yields (awaitReply peer callback id (fuel + 1)) s (Frame.encode (.table message) ++ rest)
      outcome after left := by
  refine (yields_receive carries s rest).bind ?_
  unfold learned at hrest
  cases hmethod : Entries.find? "method" message with
  | some method =>
    simp only [hmethod] at hrest
    cases hid : Entries.find? "id" message with
    | some other =>
      simp only [hid] at hrest
      exact (yields_acknowledge other s rest).bind ((yields_notify calm message _ rest).bind hrest)
    | none =>
      simp only [hid] at hrest
      exact (yields_notify calm message s rest).bind hrest
  | none =>
    simp only [hmethod] at hrest
    have hother : Value.same (Reply.member "id" message) id = false := by
      rcases h with h | h
      · rw [hmethod] at h
        cases h
      · exact h
    simp only [hother, Bool.false_eq_true, if_false]
    exact hrest

/-- A reply is found behind any number of other messages, and what follows it stays. -/
theorem yields_awaitReply {callback : Option Callback} (calm : Callback.Calm callback)
    {id : Value} {pending : List Entries} (passed : ∀ m ∈ pending, PassesOver id m)
    {reply : Entries} (h : IsReply id reply)
    (carries : ∀ m ∈ pending ++ [reply], Frame.Carries m) {fuel : Nat}
    (enough : pending.length < fuel) (s : σ) (rest : Bytes) :
    Yields (awaitReply peer callback id fuel) s
      (((pending ++ [reply]).flatMap fun m => Frame.encode (.table m)) ++ rest) (.ok reply)
      (pending.foldl (learned peer) s) rest := by
  -- on the messages in front of the reply; each takes one unit of the fuel
  induction pending generalizing fuel s with
  | nil =>
    obtain ⟨n, rfl⟩ := Nat.exists_eq_succ_of_ne_zero (Nat.ne_of_gt enough)
    have hcarries := carries reply (by simp)
    simpa using yields_awaitReply_of_isReply hcarries h n s rest
  | cons message more ih =>
    obtain ⟨n, rfl⟩ := Nat.exists_eq_succ_of_ne_zero (Nat.ne_of_gt (Nat.zero_lt_of_lt enough))
    have hcarries := carries message (by simp)
    have hmore := ih (fun m hm => passed m (by simp [hm])) (fun m hm => carries m (by simp_all))
      (Nat.lt_of_succ_lt_succ enough) (learned peer s message)
    rw [List.cons_append, List.flatMap_cons, List.append_assoc]
    exact yields_awaitReply_of_passesOver calm hcarries (passed message (by simp)) hmore

theorem length_le_length_frames (messages : List Entries) :
    messages.length ≤ (messages.flatMap fun m => Frame.encode (.table m)).length := by
  induction messages with
  | nil => exact Nat.le_refl 0
  | cons m rest ih =>
    have hframe : 0 < (Frame.encode (.table m)).length := by
      rw [Frame.encode_eq]
      simp only [List.length_append, List.length_cons]
      omega
    rw [List.flatMap_cons, List.length_append, List.length_cons]
    omega

/-- A request that a peer answers with its reply yields the reply, whatever the peer has sent
before. -/
theorem yields_request {callback : Option Callback} (calm : Callback.Calm callback)
    {id : Value} {method : Text} {params : Option Value} {pending : List Entries}
    (passed : ∀ m ∈ pending, PassesOver id m) {reply : Entries} (h : IsReply id reply)
    (carries : ∀ m ∈ pending ++ [reply], Frame.Carries m) {after : σ}
    (hears : peer.hear (requestMessage id method params) s =
      (after, Frame.encode (.table reply))) :
    Yields (request peer callback id method params) s
      (pending.flatMap fun m => Frame.encode (.table m)) (.ok reply)
      (pending.foldl (learned peer) after) [] := by
  intro ch hat
  obtain ⟨ch', hwrite, hat'⟩ := yields_write peer (requestMessage id method params) s _ ch hat
  rw [hears] at hat'
  have hbytes : (pending.flatMap fun m => Frame.encode (.table m)) ++ Frame.encode (.table reply) =
      ((pending ++ [reply]).flatMap fun m => Frame.encode (.table m)) ++ [] := by
    simp
  have henough : pending.length < ch'.incoming.bytes.length + 1 := by
    have hfew := length_le_length_frames pending
    rw [hat'.bytes, List.length_append]
    omega
  simp only [hbytes] at hat'
  obtain ⟨ch'', hawait, hat''⟩ :=
    yields_awaitReply calm passed h carries henough after [] ch' hat'
  refine ⟨ch'', ?_, hat''⟩
  have hget : runFrom (get : Exchange σ (Channel σ)) ch' = (.ok ch', ch') := rfl
  rw [request, runFrom_bind_of_ok hwrite, runFrom_bind_of_ok hget]
  exact hawait

theorem yields_tell {method : Text} {params : Value} {after : σ} {sent : Bytes}
    (hears : peer.hear (notificationMessage method params) s = (after, sent)) (bytes : Bytes) :
    Yields (tell peer method params) s bytes (.ok ()) after (bytes ++ sent) := by
  have h := yields_write peer (notificationMessage method params) s bytes
  rw [hears] at h
  exact h

end Channel

namespace Consultation

open Channel

variable {σ α : Type} {s after : σ} {bytes left : Bytes}

theorem yields_lift {x : Exchange σ α} {outcome : Except Channel.Fault α}
    (h : Yields x s bytes outcome after left) :
    Yields (lift x) s bytes (outcome.mapError Fault.channel) after left := by
  intro ch hat
  obtain ⟨ch', hx, hat'⟩ := h ch hat
  refine ⟨ch', ?_, hat'⟩
  have hx' : x ch = (outcome, ch') := hx
  show ((x ch).1.mapError Fault.channel, (x ch).2) = _
  rw [hx']

theorem yields_greet {greeting : Option Callback} (calm : Callback.Calm greeting)
    (reply : Entries) (s : σ) (bytes : Bytes) :
    Yields (greet greeting reply) s bytes (.ok ()) s bytes := by
  cases greeting with
  | none => exact .pure () s bytes
  | some told =>
    refine (yields_note _ s bytes).bind ?_
    rw [calm told rfl]
    exact .pure () s bytes

end Consultation
end StepLocator
