import StepLocator.Proofs.Client.Exchange

/-!
Streams of messages. The messages that were sent over a channel are read back one by one, whatever
the pieces are in which the octets arrive; each reading takes one frame and nothing of the next.
-/
namespace StepLocator

namespace Channel

variable {σ : Type}

def sendAll (peer : Peer σ) : List Entries → Exchange σ Unit
  | [] => pure ()
  | message :: rest => do
    write peer (.table message)
    sendAll peer rest

def sentBytes (ch : Channel σ) : Bytes := Utf8.encode (sentText ch.trace)

theorem sentBytes_wrote (peer : σ) (incoming : Incoming) (writes : Option Nat)
    (trace : List Event) (message : Value) :
    sentBytes ⟨peer, incoming, writes, trace ++ [.wrote message]⟩ =
      Utf8.encode (sentText trace) ++ Frame.encode message := by
  simp only [sentBytes, sentText, List.filterMap_append, List.flatten_append, Utf8.encode_append,
    Frame.encode]
  simp [Event.sent?]

theorem runFrom_sendAll (peer : Peer σ) {ch : Channel σ} (h : ch.writesLeft = none)
    (messages : List Entries) :
    (runFrom (sendAll peer messages) ch).1 = .ok () ∧
      (runFrom (sendAll peer messages) ch).2.sentBytes =
        ch.sentBytes ++ messages.flatMap fun m => Frame.encode (.table m) := by
  induction messages generalizing ch with
  | nil => exact ⟨rfl, by simp [sendAll]⟩
  | cons message rest ih =>
    rw [sendAll, runFrom_bind_of_ok (runFrom_write h (.table message))]
    obtain ⟨hok, hsent⟩ := @ih { ch with
      peer := (peer.hear (.table message) ch.peer).1
      incoming := { ch.incoming with
        bytes := ch.incoming.bytes ++ (peer.hear (.table message) ch.peer).2 }
      trace := ch.trace ++ [.wrote (.table message)] } h
    refine ⟨hok, ?_⟩
    rw [hsent, sentBytes_wrote, List.flatMap_cons, List.append_assoc]
    rfl

end Channel

namespace Incoming

/-- Read so many times; gives what each reading comes to, and the stream afterwards. -/
def readMessages : Nat → Incoming → List (Except Fault Entries) × Incoming
  | 0, s => ([], s)
  | n + 1, s =>
    let rest := readMessages n s.readMessage.2
    (s.readMessage.1 :: rest.1, rest.2)

theorem readMessages_add (m n : Nat) (s : Incoming) :
    readMessages (m + n) s =
      ((readMessages m s).1 ++ (readMessages n (readMessages m s).2).1,
        (readMessages n (readMessages m s).2).2) := by
  induction m generalizing s with
  | zero => simp [readMessages]
  | succ m ih => simp [readMessages, Nat.succ_add, ih]

/-- As many readings as there are frames give their messages in order, and leave the stream behind
the last of them. -/
theorem readMessages_frames {messages : List Entries} (h : ∀ m ∈ messages, Frame.Carries m)
    {s : Incoming} (ready : s.Ready) {rest : Bytes}
    (hbytes : s.bytes = messages.flatMap (fun m => Frame.encode (.table m)) ++ rest) :
    ∃ left, s.readMessages messages.length =
      (messages.map .ok, { s with bytes := rest, cuts := left }) := by
  induction messages generalizing s with
  | nil =>
    obtain rfl : s.bytes = rest := by simpa using hbytes
    exact ⟨s.cuts, rfl⟩
  | cons message more ih =>
    have hfirst : s.bytes = Frame.encode (.table message) ++
        (more.flatMap (fun m => Frame.encode (.table m)) ++ rest) := by
      rw [hbytes, List.flatMap_cons, List.append_assoc]
    obtain ⟨left, hread⟩ := readMessage_frame ready (h message (by simp)) hfirst
    obtain ⟨last, hmore⟩ := ih (fun m hm => h m (by simp [hm]))
      (s := { s with
        bytes := more.flatMap (fun m => Frame.encode (.table m)) ++ rest
        cuts := left }) ⟨ready.inTime, ready.unbounded⟩ rfl
    refine ⟨last, ?_⟩
    simp only [List.length_cons, readMessages, hread, hmore, List.map_cons]

theorem readMessage_of_used {s : Incoming} (ready : s.Ready) (closed : s.heldOpen = false)
    (used : s.bytes = []) : s.readMessage.1 = .error .closed := by
  simp [readMessage, ready.inTime, used, splitHeader, splitHeaderFrom, dry, closed]

/-- What was sent is what is read: after each reading the frames of the messages still to come are
left, and when all of them are read the stream is found closed. -/
theorem readMessages_of_sent {σ : Type} (peer : Peer σ) (state : σ) (answers : Incoming)
    {messages : List Entries} (carries : ∀ m ∈ messages, Frame.Carries m) {s : Incoming}
    (ready : s.Ready) (closed : s.heldOpen = false)
    (sent : s.bytes =
      (runFrom (Channel.sendAll peer messages) (.begin state answers none)).2.sentBytes) :
    (∀ k ≤ messages.length,
      (s.readMessages k).1 = (messages.take k).map .ok ∧
      (s.readMessages k).2.bytes =
        (messages.drop k).flatMap fun m => Frame.encode (.table m)) ∧
    ∃ fault, (s.readMessages (messages.length + 1)).1 = messages.map .ok ++ [.error fault] ∧
      fault.isReported = true ∧ fault.message = "LSP stream closed".toList := by
  have hbytes : s.bytes = messages.flatMap fun m => Frame.encode (.table m) := by
    rw [sent, (Channel.runFrom_sendAll peer rfl messages).2]
    rfl
  constructor
  · intro k hk
    have hcut : s.bytes = (messages.take k).flatMap (fun m => Frame.encode (.table m)) ++
        (messages.drop k).flatMap (fun m => Frame.encode (.table m)) := by
      rw [hbytes, ← List.flatMap_append, List.take_append_drop]
    obtain ⟨left, hread⟩ := readMessages_frames
      (fun m hm => carries m (List.mem_of_mem_take hm)) ready hcut
    rw [List.length_take, Nat.min_eq_left hk] at hread
    rw [hread]
    exact ⟨rfl, rfl⟩
  · have hall : s.bytes = messages.flatMap (fun m => Frame.encode (.table m)) ++ [] := by
      rw [hbytes, List.append_nil]
    obtain ⟨left, hread⟩ := readMessages_frames carries ready hall
    have hlast : ({ s with bytes := [], cuts := left } : Incoming).readMessage.1 =
        .error .closed := readMessage_of_used ⟨ready.inTime, ready.unbounded⟩ closed rfl
    refine ⟨.closed, ?_, rfl, rfl⟩
    rw [readMessages_add, hread]
    simp [readMessages, hlast]

/-- Two messages whose octets come two, one and three at a time. -/
theorem readMessages_of_sent_pieces :
    let messages : List Entries := [[("id", .int 1), ("result", .text "a\nb")], []]
    let s : Incoming :=
      ⟨messages.flatMap fun m => Frame.encode (.table m), [2, 0, 3], some wordLimit, false, false⟩
    (s.readMessages 2).1 = messages.map .ok ∧
      ∃ fault, (s.readMessages 3).1 = messages.map .ok ++ [.error fault] ∧
        fault.message = "LSP stream closed".toList := by
  intro messages s
  have carries : ∀ m ∈ messages, Frame.Carries m := by
    intro m hm
    rcases List.mem_cons.mp hm with rfl | hm
    · have hreadable : Json.Readable 1 (.table [("id", .int 1), ("result", .text "a\nb")]) := by
        refine .table (by decide) fun e he => ?_
        rcases List.mem_cons.mp he with rfl | he
        · exact .int (by decide)
        · obtain rfl := List.mem_singleton.mp he
          exact .text _
      exact .of_readable (hreadable.mono (by decide)) (by decide +kernel)
    · obtain rfl := List.mem_singleton.mp hm
      have hreadable : Json.Readable 1 (.table []) := .table (by decide) (by simp)
      exact .of_readable (hreadable.mono (by decide)) (by decide +kernel)
  have ready : s.Ready := ⟨rfl, by simp [s]⟩
  have h := readMessages_of_sent Peer.silent () s carries ready rfl rfl
  obtain ⟨fault, hlast, _, hsaid⟩ := h.2
  exact ⟨(h.1 2 (by decide)).1, fault, hlast, hsaid⟩

end Incoming
end StepLocator
