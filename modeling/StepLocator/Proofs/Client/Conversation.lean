import StepLocator.Proofs.Client.Await
import StepLocator.Proofs.Server.Endpoint
import StepLocator.Proofs.Server.Messages

/-!
A conversation with the server. What the server makes of each message of the client is known, so the
whole conversation comes to the reply to the question, or to the rejection of the handshake.
-/
namespace StepLocator
namespace Local

open Server Channel Consultation

def State.sentOn (fs : FileSystem) : State → List Value → List Value
  | _, [] => []
  | s, message :: rest =>
    (s.receive fs message).2 ++ State.sentOn fs (s.receive fs message).1 rest

def clientCapabilities : Value :=
  .table [("workspace", .table [("didChangeWatchedFiles",
    .table [("dynamicRegistration", .bool true)])])]

def questionParams (uri : Text) (query : Query) : Value :=
  .table [("textDocument", .table [("uri", .text uri)]),
    ("position", .table [("line", .int query.line), ("character", .int query.character)])]

/-- What a client sends to a server whose requests have a mark, in order. -/
def asked (mark : Text) (workspace : Path) (uri : Text) (query : Query) : List Value :=
  [requestMessage (.int 1) "initialize" (some (handshakeParams workspace)),
    notificationMessage "initialized" .null,
    requestMessage (.int 2) "textDocument/definition" (some (questionParams uri query)),
    acknowledgement (.text (mark ++ natText 0)),
    requestMessage (.int 3) "shutdown" none,
    notificationMessage "exit" .null]

/-- The session over the workspace that the client offers, or why there is none. -/
def offered (fs : FileSystem) (workspace : Path) : Except Controller.Fault Session :=
  (Controller.fresh.handshake fs Controller.Obstacles.clear Hook.calm
    (Query.folders workspace)).outcome

/-- The outcome of the handshake of the client, as the reply to it holds it. -/
def welcomeOutcome (fs : FileSystem) (workspace : Path) : Except Failure Value :=
  (handshake Controller.fresh fs (Query.folders workspace)).outcome.map fun _ =>
    Capabilities.answer clientCapabilities

def answerOutcome (c : Controller) (fs : FileSystem) (uri : Text) (query : Query) :
    Except Failure Value :=
  (definition c fs uri query.line).outcome.map Answer.toValue

def met (c : Controller) (mark : Text) (waiting : List Nat) (made : Nat) : Endpoint :=
  ⟨c, clientCapabilities, some Editor.idle, mark, waiting, made, false, none⟩

section

variable (fs : FileSystem) (c : Controller) (mark : Text) (records : List Log.Record)

theorem receive_initialize {workspace : Path} (absolute : workspace.isAbsolute = true) :
    State.receive ⟨Endpoint.fresh mark, []⟩ fs
        (requestMessage (.int 1) "initialize" (some (handshakeParams workspace))) =
      (⟨met (handshake Controller.fresh fs (Query.folders workspace)).controller mark [] 0,
        (handshake Controller.fresh fs (Query.folders workspace)).records⟩,
        [Message.outcomeReply (.int 1) "initialize"
          (welcomeOutcome fs workspace)]) := by
  have hroot : Endpoint.checkRoot (handshakeParams workspace) = .ok () := by
    show Uri.check (Uri.ofPath workspace) = _
    exact Uri.check_ofPath absolute
  rw [State.receive_request fs rfl (by decide) (by decide +kernel), Option.getD_some,
    Endpoint.request_handshake _ fs _ hroot]
  rfl

theorem receive_initialized {session : Session} (h : c.session = some session) :
    State.receive ⟨met c mark [] 0, records⟩ fs (notificationMessage "initialized" .null) =
      (⟨met c mark [0] 1, records⟩,
        [Message.registration (mark ++ natText 0) Watching.registration]) := by
  have hannounced : Watching.announced Watching.messageNames clientCapabilities = true := by decide
  rw [State.receive_notice fs rfl (by decide) (by decide +kernel),
    Endpoint.note_initialized _ fs h hannounced]
  simp [State.followed, met, Endpoint.requestId]

/-- The acknowledgement of the client settles the request of the server. -/
theorem receive_acknowledged :
    State.receive ⟨met c mark [0] 1, records⟩ fs (acknowledgement (.text (mark ++ natText 0))) =
      (⟨met c mark [] 1, records ++ [Watching.Outcome.accepted.record]⟩, []) := by
  rw [State.receive_acknowledgement fs rfl]
  have hsettle := Endpoint.settle_requestId (met c mark [0] 1) 0 rfl .accepted
  show State.followed _ (Endpoint.settle _ (.text (Endpoint.requestId (met c mark [0] 1) 0)) _) = _
  rw [hsettle]
  rfl

theorem receive_question (uri : Text) (query : Query) (waiting : List Nat) (made : Nat) :
    State.receive ⟨met c mark waiting made, records⟩ fs
        (requestMessage (.int 2) "textDocument/definition" (some (questionParams uri query))) =
      (⟨met c mark waiting made, records ++ (definition c fs uri query.line).records⟩,
        [Message.outcomeReply (.int 2) "textDocument/definition"
          (answerOutcome c fs uri query)]) := by
  rw [State.receive_request fs rfl (by decide) (by decide +kernel), Option.getD_some,
    Endpoint.request_definition]
  rfl

theorem receive_shutdown (made : Nat) :
    State.receive ⟨met c mark [] made, records⟩ fs (requestMessage (.int 3) "shutdown" none) =
      (⟨{ met c mark [] made with shutDown := true }, records⟩,
        [Message.resultReply (.int 3) .null]) := by
  rw [State.receive_request fs rfl (by decide) (by decide +kernel)]
  show State.followed _ (Endpoint.shutdown _ _) = _
  simp [State.followed, Endpoint.shutdown, met]

end

section

variable {fs : FileSystem} {workspace : Path} {session : Session}

theorem welcome_of_ok (h : offered fs workspace = .ok session) :
    welcomeOutcome fs workspace = .ok (Capabilities.answer clientCapabilities) ∧
    (handshake Controller.fresh fs (Query.folders workspace)).controller = ⟨some session⟩ := by
  unfold offered at h
  rw [welcomeOutcome, handshake_outcome, controller_handshake, Controller.handshake_controller, h]
  exact ⟨rfl, rfl⟩

theorem welcomeOutcome_of_rejected {rejection : Controller.Rejection}
    (h : offered fs workspace = .error (.rejected rejection)) :
    welcomeOutcome fs workspace = .error (.refused (.rejected rejection)) := by
  unfold offered at h
  rw [welcomeOutcome, handshake_outcome, h]
  rfl

/-- The messages of the server to a client that it accepts: the reply to the handshake, its own
request, the reply to the question, and the reply to the shutdown. -/
theorem sentOn_asked (absolute : workspace.isAbsolute = true)
    (h : offered fs workspace = .ok session) (mark uri : Text) (query : Query) :
    State.sentOn fs ⟨Endpoint.fresh mark, []⟩ (asked mark workspace uri query) =
      [Message.resultReply (.int 1) (Capabilities.answer clientCapabilities),
        Message.registration (mark ++ natText 0) Watching.registration,
        Message.outcomeReply (.int 2) "textDocument/definition"
          (answerOutcome ⟨some session⟩ fs uri query),
        Message.resultReply (.int 3) .null] := by
  obtain ⟨houtcome, hcontroller⟩ := welcome_of_ok h
  rw [asked, State.sentOn, receive_initialize fs mark absolute, houtcome, hcontroller,
    State.sentOn, receive_initialized fs _ mark _ rfl, State.sentOn, receive_question,
    State.sentOn, receive_acknowledged, State.sentOn, receive_shutdown, State.sentOn,
    State.receive_exit]
  rfl

end

/-- The reply to the question is readable: of the numbers that it may tell, one is in the question,
and the other one is the number of lines of the document. -/
theorem readable_answer {fs : FileSystem} {uri : Text} {query : Query}
    (hline : query.line.natAbs ≤ Incoming.wordLimit)
    (hlines : ∀ lines, Document.readLines fs uri = .ok lines → lines.length ≤ Incoming.wordLimit)
    (c : Controller) :
    Json.Readable 5 (Message.outcomeReply (.int 2) "textDocument/definition"
      (answerOutcome c fs uri query)) := by
  have hid : Json.Readable 4 (.int 2) := .int (Incoming.length_natText_le (by decide))
  unfold answerOutcome
  refine Message.readable_outcomeReply (d := 1) hid ?_ ?_ "textDocument/definition"
  · intro v hv
    rcases definition_cases c fs uri query.line with h | ⟨places, h⟩ | ⟨cause, h⟩ |
      ⟨message, path, h⟩ | ⟨lines, _, h⟩ | ⟨_, h⟩
    all_goals rw [h] at hv
    · obtain rfl : Value.null = v := Except.ok.inj hv
      exact .null
    · obtain rfl := Except.ok.inj hv
      exact readable_locations places
    all_goals cases hv
  · intro refusal hrefusal
    have hdata : Json.Readable 1 refusal.data := by
      refine Refusal.readable_data fun fault hfault => ?_
      subst hfault
      rcases definition_cases c fs uri query.line with h | ⟨places, h⟩ | ⟨cause, h⟩ |
        ⟨message, path, h⟩ | ⟨lines, hread, h⟩ | ⟨_, h⟩
      all_goals rw [h] at hrefusal
      all_goals cases hrefusal
      exact ⟨Incoming.length_natText_le hline, Incoming.length_natText_le (hlines lines hread)⟩
    exact hdata.mono (by decide)

theorem readable_welcome (fs : FileSystem) (workspace : Path) :
    Json.Readable 7 (Message.outcomeReply (.int 1) "initialize"
      (welcomeOutcome fs workspace)) := by
  have hid : Json.Readable 6 (.int 1) := .int (Incoming.length_natText_le (by decide))
  unfold welcomeOutcome
  refine Message.readable_outcomeReply (d := 3) hid ?_ ?_ "initialize"
  · intro v hv
    cases hout : (handshake Controller.fresh fs (Query.folders workspace)).outcome with
    | error failure =>
      rw [hout] at hv
      cases hv
    | ok answer =>
      rw [hout] at hv
      obtain rfl := Except.ok.inj hv
      exact Capabilities.readable_answer clientCapabilities
  · intro refusal hrefusal
    have hdata : Json.Readable 1 refusal.data := by
      refine Refusal.readable_data fun fault hfault => ?_
      subst hfault
      rw [handshake_outcome] at hrefusal
      split at hrefusal
      all_goals cases hrefusal
    exact hdata.mono (by decide)

/-- A message whose octets can be counted in a word. -/
def Counted (message : Value) : Prop :=
  (Utf8.encode (Json.print message)).length ≤ Incoming.wordLimit

instance : DecidablePred Counted := fun message =>
  inferInstanceAs (Decidable ((Utf8.encode (Json.print message)).length ≤ Incoming.wordLimit))

theorem Counted.carries {d : Nat} {message : Entries} (h : Counted (.table message))
    (readable : Json.Readable d (.table message)) (hd : d ≤ Json.nestingLimit) :
    Frame.Carries message :=
  .of_readable (readable.mono hd) h

theorem hear_of_receive {fs : FileSystem} {s after : State} {message : Value} {sent : List Value}
    (h : s.receive fs message = (after, sent)) :
    (peer fs).hear message s = (after, sent.flatMap Frame.encode) := by
  show ((s.receive fs message).1, (s.receive fs message).2.flatMap Frame.encode) = _
  rw [h]

section

variable {fs : FileSystem} {callback : Option Callback}

/-- The server answers a request with its reply, whatever messages it has sent before. -/
theorem yields_ask (calm : Callback.Calm callback) {s after : State} {id : Int} {method : Text}
    {params : Option Value} {reply : Entries} {outcome : Except Failure Value}
    (hears : s.receive fs (requestMessage (.int id) method params) = (after, [.table reply]))
    (tells : Tells reply (.int id) outcome) {pending : List Entries}
    (passed : ∀ m ∈ pending, PassesOver (.int id) m)
    (carries : ∀ m ∈ pending ++ [reply], Frame.Carries m) :
    Yields (lift (request (peer fs) callback (.int id) method params)) s
      (pending.flatMap fun m => Frame.encode (.table m)) (.ok reply)
      (pending.foldl (learned (peer fs)) after) [] := by
  have hreply : IsReply (.int id) reply := by
    refine ⟨tells.method, ?_⟩
    rw [tells.id]
    simp [Value.same, Value.number?, Value.sameNumber]
  have hhear : (peer fs).hear (requestMessage (.int id) method params) s =
      (after, Frame.encode (.table reply)) := by
    rw [hear_of_receive hears, List.flatMap_singleton]
  exact yields_lift (yields_request calm passed hreply carries hhear)

variable (fs)

theorem yields_meet (calm : Callback.Calm callback) {workspace : Path}
    (absolute : workspace.isAbsolute = true) (mark : Text)
    (counted : Counted (Message.outcomeReply (.int 1) "initialize"
      (welcomeOutcome fs workspace))) :
    ∃ welcome records, Tells welcome (.int 1)
        (welcomeOutcome fs workspace) ∧
      Yields (lift (request (peer fs) callback (.int 1) "initialize"
          (some (handshakeParams workspace)))) ⟨Endpoint.fresh mark, []⟩ [] (.ok welcome)
        ⟨met (handshake Controller.fresh fs (Query.folders workspace)).controller mark [] 0,
          records⟩ [] := by
  obtain ⟨welcome, hwelcome, tells⟩ := Message.tells_outcomeReply (.int 1) "initialize"
    (welcomeOutcome fs workspace)
  have readable := readable_welcome fs workspace
  have hears := receive_initialize fs mark absolute
  rw [hwelcome] at counted readable hears
  have carries : ∀ m ∈ [] ++ [welcome], Frame.Carries m := by
    simpa using counted.carries readable (by decide)
  exact ⟨welcome, _, tells, yields_ask calm hears tells (by simp) carries⟩

theorem yields_ready {c : Controller} {session : Session} (h : c.session = some session)
    (mark : Text) (records : List Log.Record) :
    Yields (lift (tell (peer fs) "initialized" .null)) ⟨met c mark [] 0, records⟩ [] (.ok ())
      ⟨met c mark [0] 1, records⟩
      (Frame.encode (Message.registration (mark ++ natText 0) Watching.registration)) := by
  have hears := hear_of_receive (receive_initialized fs c mark records h)
  rw [List.flatMap_singleton] at hears
  exact yields_lift (yields_tell hears [])

theorem yields_question (calm : Callback.Calm callback) (c : Controller) (mark : Text)
    (records : List Log.Record) {uri : Text} {query : Query}
    (hline : query.line.natAbs ≤ Incoming.wordLimit)
    (hlines : ∀ lines, Document.readLines fs uri = .ok lines → lines.length ≤ Incoming.wordLimit)
    (asking : Counted (Message.registration (mark ++ natText 0) Watching.registration))
    (counted : Counted (Message.outcomeReply (.int 2) "textDocument/definition"
      (answerOutcome c fs uri query))) :
    ∃ reply more, Tells reply (.int 2)
        (answerOutcome c fs uri query) ∧
      Yields (lift (request (peer fs) callback (.int 2) "textDocument/definition"
          (some (questionParams uri query)))) ⟨met c mark [0] 1, records⟩
        (Frame.encode (Message.registration (mark ++ natText 0) Watching.registration)) (.ok reply)
        ⟨met c mark [] 1, more⟩ [] := by
  obtain ⟨reply, hreply, tells⟩ := Message.tells_outcomeReply (.int 2) "textDocument/definition"
    (answerOutcome c fs uri query)
  obtain ⟨request, hrequest, hmethod, hid⟩ : ∃ request,
      Message.registration (mark ++ natText 0) Watching.registration = .table request ∧
      (Entries.find? "method" request).isSome = true ∧
      learned (peer fs) ⟨met c mark [0] 1, records ++ (definition c fs uri query.line).records⟩
        request =
      ((peer fs).learn (acknowledgement (.text (mark ++ natText 0)))
        ⟨met c mark [0] 1, records ++ (definition c fs uri query.line).records⟩) :=
    ⟨_, rfl, rfl, rfl⟩
  have readableRequest := Message.readable_registration (mark ++ natText 0)
  have readableReply := readable_answer hline hlines c
  have hears := receive_question fs c mark records uri query [0] 1
  rw [hreply] at counted readableReply hears
  rw [hrequest] at asking readableRequest
  -- the request of the server stands in front of the reply, so the client meets it first
  have passed : ∀ m ∈ [request], PassesOver (.int 2) m := by
    intro m hm
    obtain rfl := List.mem_singleton.mp hm
    exact Or.inl hmethod
  have carries : ∀ m ∈ [request] ++ [reply], Frame.Carries m := by
    intro m hm
    rcases List.mem_append.mp hm with hm | hm
    · obtain rfl := List.mem_singleton.mp hm
      exact asking.carries readableRequest (by decide)
    · obtain rfl := List.mem_singleton.mp hm
      exact counted.carries readableReply (by decide)
  have step := yields_ask calm hears tells passed carries
  have hlearned : (peer fs).learn (acknowledgement (.text (mark ++ natText 0)))
      ⟨met c mark [0] 1, records ++ (definition c fs uri query.line).records⟩ =
      ⟨met c mark [] 1, records ++ (definition c fs uri query.line).records ++
        [Watching.Outcome.accepted.record]⟩ := by
    show (State.receive _ fs _).1 = _
    rw [receive_acknowledged]
  rw [List.foldl_cons, List.foldl_nil, hid, hlearned, List.flatMap_singleton] at step
  rw [hrequest]
  exact ⟨reply, _, tells, step⟩

theorem yields_shutdown (calm : Callback.Calm callback) (c : Controller) (mark : Text)
    (records : List Log.Record) (counted : Counted (Message.resultReply (.int 3) .null)) :
    ∃ farewell, Yields (lift (request (peer fs) callback (.int 3) "shutdown" none))
      ⟨met c mark [] 1, records⟩ [] (.ok farewell)
      ⟨{ met c mark [] 1 with shutDown := true }, records⟩ [] := by
  obtain ⟨farewell, hfarewell, tells⟩ := Message.tells_resultReply (.int 3) .null
  have hid : Json.Readable 0 (.int 3) := .int (Incoming.length_natText_le (by decide))
  have readable := Message.readable_resultReply hid .null
  have hears := receive_shutdown fs c mark records 1
  rw [hfarewell] at counted readable hears
  have carries : ∀ m ∈ [] ++ [farewell], Frame.Carries m := by
    simpa using counted.carries readable (by decide)
  exact ⟨farewell, yields_ask calm hears tells (by simp) carries⟩

theorem yields_leave (c : Controller) (mark : Text) (records : List Log.Record) :
    Yields (lift (tell (peer fs) "exit" .null))
      ⟨{ met c mark [] 1 with shutDown := true }, records⟩ [] (.ok ())
      ⟨{ met c mark [] 1 with shutDown := true, exitCode := some 0 }, records ++ []⟩ [] := by
  have hears := hear_of_receive (State.receive_exit (s := ⟨{ met c mark [] 1 with
    shutDown := true }, records⟩) fs .null)
  exact yields_lift (yields_tell hears [])

end

/-- What a machine can hold: a document has no more lines, and a message of the server no more
octets, than a word can count. A longer number of lines cannot be read, and a read cannot ask for
more octets. -/
structure Fits (fs : FileSystem) (mark : Text) (workspace : Path) (uri : Text) (query : Query) :
    Prop where
  lines : ∀ lines, Document.readLines fs uri = .ok lines → lines.length ≤ Incoming.wordLimit
  messages : ∀ message ∈ State.sentOn fs ⟨Endpoint.fresh mark, []⟩ (asked mark workspace uri query),
    Counted message

structure Calm (listeners : Listeners) : Prop where
  notification : Callback.Calm listeners.notification
  greeting : Callback.Calm listeners.greeting

section

variable {fs : FileSystem} {workspace : Path} {mark uri : Text} {query : Query}
  {listeners : Listeners}

/-- A conversation with a server that accepts the client comes to the reply to the question, and the
server leaves in order. -/
theorem yields_converse (calm : Calm listeners) (absolute : workspace.isAbsolute = true)
    {session : Session} (h : offered fs workspace = .ok session)
    (huri : query.documentUri fs = .ok uri) (hline : query.line.natAbs ≤ Incoming.wordLimit)
    (fits : Fits fs mark workspace uri query) :
    ∃ reply after, Tells reply (.int 2) (answerOutcome ⟨some session⟩ fs uri query) ∧
      after.endpoint.exitCode = some 0 ∧
      Yields (converse (peer fs) listeners fs workspace query) ⟨Endpoint.fresh mark, []⟩ []
        (.ok reply) after [] := by
  have counted := fits.messages
  rw [sentOn_asked absolute h mark uri query] at counted
  obtain ⟨houtcome, hcontroller⟩ := welcome_of_ok h
  have hgreeted : Counted (Message.outcomeReply (.int 1) "initialize"
      (welcomeOutcome fs workspace)) := by
    rw [houtcome]
    exact counted _ List.mem_cons_self
  obtain ⟨welcome, records, tellsWelcome, stepWelcome⟩ :=
    yields_meet fs calm.notification absolute mark hgreeted
  rw [hcontroller] at stepWelcome
  have stepReady := yields_ready fs (c := ⟨some session⟩) rfl mark records
  obtain ⟨reply, more, tellsReply, stepReply⟩ := yields_question fs calm.notification
    ⟨some session⟩ mark records hline fits.lines (counted _ (by simp)) (counted _ (by simp))
  obtain ⟨farewell, stepFarewell⟩ := yields_shutdown fs calm.notification ⟨some session⟩
    mark more (counted _ (by simp))
  have stepLeave := yields_leave fs ⟨some session⟩ mark more
  have hparams : query.params fs = .ok (questionParams uri query) := by
    rw [Query.params, huri]
    rfl
  have hwelcome : Reply.hasError welcome = false := by
    rw [houtcome] at tellsWelcome
    exact (tellsWelcome.result _ rfl).1
  refine ⟨reply, ⟨{ met ⟨some session⟩ mark [] 1 with shutDown := true, exitCode := some 0 },
    more ++ []⟩, tellsReply, rfl, ?_⟩
  -- stage by stage, each from the state in which the one before has left the server
  unfold converse
  refine stepWelcome.bind ?_
  simp only [hwelcome, hparams, Bool.false_eq_true, if_false]
  refine (yields_lift (yields_greet calm.greeting welcome _ [])).bind ?_
  refine stepReady.bind ?_
  refine stepReply.bind ?_
  refine stepFarewell.bind ?_
  exact stepLeave.bind (.pure reply _ [])

/-- A conversation with a server that rejects the client comes to the rejection. -/
theorem yields_converse_of_rejected (calm : Calm listeners)
    (absolute : workspace.isAbsolute = true) {rejection : Controller.Rejection}
    (h : offered fs workspace = .error (.rejected rejection))
    (fits : Fits fs mark workspace uri query) :
    ∃ after, Yields (converse (peer fs) listeners fs workspace query) ⟨Endpoint.fresh mark, []⟩ []
      (.error (.rejected rejection.message)) after [] := by
  have hsent : Message.outcomeReply (.int 1) "initialize" (welcomeOutcome fs workspace) ∈
      State.sentOn fs ⟨Endpoint.fresh mark, []⟩ (asked mark workspace uri query) := by
    rw [asked, State.sentOn, receive_initialize fs mark absolute]
    exact List.mem_append_left _ (List.mem_singleton_self _)
  obtain ⟨welcome, records, tells, step⟩ :=
    yields_meet fs calm.notification absolute mark (fits.messages _ hsent)
  rw [welcomeOutcome_of_rejected h] at tells
  obtain ⟨hwelcome, htext⟩ := tells.failure _ rfl
  refine ⟨⟨met (handshake Controller.fresh fs (Query.folders workspace)).controller mark [] 0,
    records⟩, ?_⟩
  unfold converse
  refine step.bind ?_
  simp only [hwelcome, htext, if_true]
  exact (Yields.throw _ _ []).bind_error

end

end Local
end StepLocator
