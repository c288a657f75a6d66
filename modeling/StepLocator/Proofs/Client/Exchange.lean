import StepLocator.Client.Channel
import StepLocator.Proofs.Client.Framing

/-!
Steps over a channel. Each step has an outcome and leaves the channel in a state, and a step that
follows another one starts from there. Over a channel to which everything can be written, writing
and acknowledging succeed, and a frame at the front of the stream is received as its message.
-/
namespace StepLocator

/-- What a step over a state comes to: its outcome and the state afterwards. -/
def runFrom {ε σ α : Type} (x : ExceptT ε (StateM σ) α) (s : σ) : Except ε α × σ := (x.run s).run

section

variable {ε σ α β : Type} {x : ExceptT ε (StateM σ) α} {f : α → ExceptT ε (StateM σ) β} {s t : σ}

@[simp] theorem runFrom_pure (a : α) :
    runFrom (pure a : ExceptT ε (StateM σ) α) s = (.ok a, s) := rfl

theorem runFrom_bind_of_ok {a : α} (h : runFrom x s = (.ok a, t)) :
    runFrom (x >>= f) s = runFrom (f a) t := by
  have hx : x s = (Except.ok a, t) := h
  show (ExceptT.bind x f) s = _
  simp only [ExceptT.bind, ExceptT.mk, ExceptT.bindCont, bind, StateT.bind, hx]
  rfl

theorem runFrom_bind_of_error {e : ε} (h : runFrom x s = (.error e, t)) :
    runFrom (x >>= f) s = (.error e, t) := by
  have hx : x s = (Except.error e, t) := h
  show (ExceptT.bind x f) s = _
  simp only [ExceptT.bind, ExceptT.mk, ExceptT.bindCont, bind, StateT.bind, hx]
  rfl

end

namespace Channel

variable {σ : Type} {peer : Peer σ} {ch : Channel σ}

theorem runFrom_write (h : ch.writesLeft = none) (message : Value) :
    runFrom (write peer message) ch = (.ok (), { ch with
      peer := (peer.hear message ch.peer).1
      incoming := { ch.incoming with
        bytes := ch.incoming.bytes ++ (peer.hear message ch.peer).2 }
      trace := ch.trace ++ [.wrote message] }) := by
  obtain ⟨state, incoming, writes, trace⟩ := ch
  subst h
  rfl

theorem runFrom_acknowledge (h : ch.writesLeft = none) (id : Value) :
    runFrom (acknowledge peer id) ch = (.ok (), { ch with
      peer := peer.learn (acknowledgement id) ch.peer
      trace := ch.trace ++ [.acknowledged (acknowledgement id)] }) := by
  obtain ⟨state, incoming, writes, trace⟩ := ch
  subst h
  rfl

theorem runFrom_receive (ready : ch.incoming.Ready) {message : Entries}
    (h : Frame.Carries message) {rest : Bytes}
    (hbytes : ch.incoming.bytes = Frame.encode (.table message) ++ rest) :
    ∃ left, runFrom receive ch = (.ok message, { ch with
      incoming := { ch.incoming with bytes := rest, cuts := left }
      trace := ch.trace ++ [.received message] }) := by
  obtain ⟨left, hread⟩ := Incoming.readMessage_frame ready h hbytes
  refine ⟨left, ?_⟩
  unfold receive
  rw [runFrom_bind_of_ok (rfl : runFrom get ch = (.ok ch, ch))]
  simp only [hread]
  rfl

end Channel
end StepLocator
