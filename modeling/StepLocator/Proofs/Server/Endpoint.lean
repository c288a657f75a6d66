import StepLocator.Client.Local
import StepLocator.Proofs.Server.Handlers

/-!
What the endpoint makes of the messages of a client. A request is answered by its call, a notice
reaches its handler, and an acknowledgement settles the request that it belongs to.
-/
namespace StepLocator
namespace Local
namespace State

open Server Channel

def followed (s : State) (served : Endpoint.Served) : State × List Value :=
  (⟨served.endpoint, s.records ++ served.records⟩, served.sent)

variable {s : State} (fs : FileSystem)

theorem receive_request {method : Text} (up : s.endpoint.shutDown = false)
    (hexit : method ≠ "exit".toList) (hnotice : Notice.methods.contains method = false)
    (id : Value) (params : Option Value) :
    s.receive fs (requestMessage id method params) =
      s.followed (s.endpoint.request fs id method (params.getD .null)) := by
  have harrival : ∀ entries, requestMessage id method params = .table entries →
      Arrival.ofEntries entries = .request id method (params.getD .null) := by
    rintro _ ⟨⟩
    cases params with
    | none =>
      show Arrival.ofMethod method (some id) .null = _
      rw [Arrival.ofMethod, if_neg hexit, hnotice]
      rfl
    | some v =>
      show Arrival.ofMethod method (some id) v = _
      rw [Arrival.ofMethod, if_neg hexit, hnotice]
      rfl
  have hform : ∃ entries, requestMessage id method params = .table entries := ⟨_, rfl⟩
  obtain ⟨entries, hentries⟩ := hform
  rw [hentries, receive, Endpoint.receive, harrival entries hentries]
  simp [Endpoint.heeds, up, Endpoint.serve, followed]

theorem receive_notice {method : Text} (up : s.endpoint.shutDown = false)
    (hexit : method ≠ "exit".toList) (hnotice : Notice.methods.contains method = true)
    (params : Value) :
    s.receive fs (notificationMessage method params) =
      s.followed (s.endpoint.note fs method (if params.isVoid then .table [] else params)) := by
  have harrival : Arrival.ofEntries [("jsonrpc", .text "2.0"), ("method", .text method),
      ("params", if params.isVoid then .table [] else params)] =
      .notice method (if params.isVoid then .table [] else params) := by
    show Arrival.ofMethod method none (if params.isVoid then .table [] else params) = _
    rw [Arrival.ofMethod, if_neg hexit, hnotice]
    rfl
  rw [notificationMessage, receive, Endpoint.receive, harrival]
  simp [Endpoint.heeds, up, Endpoint.serve, followed]

theorem receive_exit (params : Value) :
    s.receive fs (notificationMessage "exit" params) =
      s.followed (s.endpoint.leave.silent []) := rfl

theorem receive_acknowledgement (up : s.endpoint.shutDown = false) (id : Value) :
    s.receive fs (acknowledgement id) = s.followed (s.endpoint.settle id .accepted) := by
  have harrival : Arrival.ofEntries [("jsonrpc", .text "2.0"), ("id", id), ("result", .null)] =
      .reply id .accepted := rfl
  rw [acknowledgement, receive, Endpoint.receive, harrival]
  simp [Endpoint.heeds, up, Endpoint.serve, followed]

end State
end Local

namespace Server
namespace Endpoint

variable (e : Endpoint) (fs : FileSystem) (id : Value)

theorem answer_of_requests_nil (method : Text) (call : Call)
    (h : (call.perform e.controller fs).requests = []) :
    e.answer fs id method call =
      ⟨{ e with controller := (call.perform e.controller fs).controller },
        [Message.outcomeReply id method
          ((call.perform e.controller fs).outcome.map (e.resultOf call))],
        (call.perform e.controller fs).records⟩ := by
  simp [answer, perform, h]

/-- The server after a handshake over a root that leads somewhere. The answer is what the server
can do for the client, or why not. -/
theorem request_handshake {params : Value} (h : checkRoot params = .ok ()) :
    e.request fs id "initialize" params =
      ⟨{ e with
          client := part params ["capabilities"]
          editor := some Editor.idle
          controller := (handshake e.controller fs (part params ["workspaceFolders"])).controller },
        [Message.outcomeReply id "initialize"
          ((handshake e.controller fs (part params ["workspaceFolders"])).outcome.map fun _ =>
            Capabilities.answer (part params ["capabilities"]))],
        (handshake e.controller fs (part params ["workspaceFolders"])).records⟩ := by
  have hrequest : e.request fs id "initialize" params = e.meet fs id "initialize" params := rfl
  rw [hrequest, meet, h]
  exact answer_of_requests_nil
    { e with client := part params ["capabilities"], editor := some Editor.idle } fs id "initialize"
    (.handshake (part params ["workspaceFolders"])) (handshake_requests e.controller fs _)

theorem request_definition (params : Value) :
    e.request fs id "textDocument/definition" params =
      ⟨e, [Message.outcomeReply id "textDocument/definition"
        ((definition e.controller fs (documentUri params) (positionLine params)).outcome.map
          Answer.toValue)],
        (definition e.controller fs (documentUri params) (positionLine params)).records⟩ := by
  obtain ⟨hcontroller, hrequests⟩ :=
    definition_keeps e.controller fs (documentUri params) (positionLine params)
  have hrequest : e.request fs id "textDocument/definition" params =
      e.answer fs id "textDocument/definition"
        (.definition (documentUri params) (positionLine params)) := rfl
  rw [hrequest]
  refine (answer_of_requests_nil e fs id "textDocument/definition"
    (.definition (documentUri params) (positionLine params)) hrequests).trans ?_
  simp only [Call.perform, hcontroller]
  rfl

theorem note_initialized {session : Session} (hsession : e.controller.session = some session)
    (hclient : Watching.announced Watching.messageNames e.client = true) (params : Value) :
    e.note fs "initialized" params =
      ⟨{ e with waiting := e.waiting ++ [e.made], made := e.made + 1 },
        [Message.registration (e.requestId e.made) Watching.registration], []⟩ := by
  have hnote : e.noticeCall? "initialized" params = some (.initialized true) := by
    show some (Call.initialized (Watching.announced Watching.messageNames e.client)) = _
    rw [hclient]
  have hcalled : "initialized".toList ≠ "$/cancelRequest".toList := by decide
  rw [note, if_neg hcalled, hnote]
  simp [perform, Call.perform, initialized, hsession, Except.map]

theorem settle_requestId (number : Nat) (h : e.waiting = [number]) (outcome : Watching.Outcome) :
    e.settle (.text (e.requestId number)) outcome =
      { e with waiting := [] }.silent [outcome.record] := by
  simp [settle, h, Value.same]

end Endpoint
end Server
end StepLocator
