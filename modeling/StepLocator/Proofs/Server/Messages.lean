import StepLocator.Proofs.Json.RoundTrip
import StepLocator.Server.Capabilities
import StepLocator.Server.Message
import StepLocator.Server.Watching
import StepLocator.Client.Reply

/-!
What a client makes of the messages of the server. A reply tells it the outcome of its request, and
each message is one that a reader gives back from its JSON text.
-/
namespace StepLocator
namespace Server

open Json

/-- A reply to the request with an id that tells of its outcome. -/
structure Tells (reply : Entries) (id : Value) (outcome : Except Failure Value) : Prop where
  method : Entries.find? "method" reply = none
  id : Reply.member "id" reply = id
  result : ∀ v, outcome = .ok v → Reply.hasError reply = false ∧ Reply.member "result" reply = v
  failure : ∀ failure, outcome = .error failure →
    Reply.hasError reply = true ∧ Reply.errorText reply = failure.report

namespace Message

theorem tells_resultReply (id result : Value) :
    ∃ reply, resultReply id result = .table reply ∧ Tells reply id (.ok result) := by
  refine ⟨_, rfl, rfl, rfl, ?_, ?_⟩
  · rintro v ⟨⟩
    exact ⟨rfl, rfl⟩
  · rintro failure ⟨⟩

theorem tells_errorReply (id : Value) (code : Int) (failure : Failure) (data : Value) :
    ∃ reply, errorReply id code failure.report data = .table reply ∧
      Tells reply id (.error failure) := by
  refine ⟨_, rfl, rfl, rfl, ?_, ?_⟩
  · rintro v ⟨⟩
  · rintro failure ⟨⟩
    exact ⟨rfl, rfl⟩

theorem tells_outcomeReply (id : Value) (method : Text) (outcome : Except Failure Value) :
    ∃ reply, outcomeReply id method outcome = .table reply ∧ Tells reply id outcome := by
  cases outcome with
  | ok result => exact tells_resultReply id result
  | error failure =>
    cases failure with
    | refused refusal => exact tells_errorReply id refusal.code (.refused refusal) refusal.data
    | nulInPath => exact tells_errorReply id internalError .nulInPath _
    | address fault => exact tells_errorReply id internalError (.address fault) _
    | agent fault => exact tells_errorReply id internalError (.agent fault) _

section

variable {d : Nat} {id result data : Value}

theorem readable_resultReply (hid : Readable d id) (hresult : Readable d result) :
    Readable (d + 1) (resultReply id result) := by
  simp [resultReply, ofEntries, object, hid, hresult]

theorem readable_dataEntries (h : Readable d data) :
    ((dataEntries data).map Prod.fst).Sublist ["data"] ∧
      ∀ e ∈ dataEntries data, Readable d e.2 := by
  unfold dataEntries
  split
  · simp
  · simp [h]

theorem readable_errorReply {code : Int} (hid : Readable (d + 1) id)
    (hcode : (natText code.natAbs).length ≤ digitLimit) (message : Text)
    (hdata : Readable d data) : Readable (d + 2) (errorReply id code message data) := by
  obtain ⟨hsub, hall⟩ := readable_dataEntries hdata
  have hkeys : (["code", "message", "data"] : List Text).Nodup := by decide
  have hdistinct := hkeys.sublist (hsub.append_left ["code", "message"])
  have herror : Readable (d + 1)
      (.table (("code", .int code) :: ("message", .text message) :: dataEntries data)) := by
    refine .table hdistinct fun e he => ?_
    rcases List.mem_cons.mp he with rfl | he
    · exact .int hcode
    rcases List.mem_cons.mp he with rfl | he
    · exact .text message
    · exact hall e he
  have hreply : ∀ error, Readable (d + 1) error →
      Readable (d + 2) (ofEntries [("id", id), ("error", error)]) := by
    intro error h
    simp [ofEntries, object, hid, h]
  exact hreply _ herror

end

theorem length_code (refusal : Refusal) :
    (natText refusal.code.natAbs).length ≤ digitLimit := by
  have hlimit : 40000 < Nat.pow 10 digitLimit := by decide +kernel
  have hcode : refusal.code.natAbs ≤ 40000 := by
    cases refusal
    all_goals
      simp [Refusal.code, Refusal.notInitialized, Refusal.invalidParams, Refusal.requestFailed]
  exact Digits.length_natText_le (Nat.lt_of_le_of_lt hcode hlimit)

/-- The reply to a request is readable if the result is, or what a refusal adds to its message. -/
theorem readable_outcomeReply {d : Nat} {id : Value} {outcome : Except Failure Value}
    (hid : Readable (d + 3) id) (hresult : ∀ v, outcome = .ok v → Readable (d + 3) v)
    (hdata : ∀ refusal, outcome = .error (.refused refusal) → Readable (d + 2) refusal.data)
    (method : Text) : Readable (d + 4) (outcomeReply id method outcome) := by
  have hcode : (natText internalError.natAbs).length ≤ digitLimit :=
    Digits.length_natText_le (by decide +kernel)
  have htrace : Readable (d + 2) (object [("traceback", .list [.text method])]) := by
    simp [object]
  cases outcome with
  | ok result => exact readable_resultReply hid (hresult result rfl)
  | error failure =>
    cases failure with
    | refused refusal =>
      exact readable_errorReply hid (length_code refusal) refusal.message (hdata refusal rfl)
    | nulInPath => exact readable_errorReply hid hcode _ htrace
    | address fault => exact readable_errorReply hid hcode _ htrace
    | agent fault => exact readable_errorReply hid hcode _ htrace

theorem readable_registration (id : Text) :
    Readable 7 (registration id Watching.registration) := by
  simp [registration, Watching.registration, Watching.patterns, ofEntries, object]

end Message

theorem readable_locations (places : List Location) :
    Readable 4 (Answer.locations places).toValue := by
  have hzero : (natText 0).length ≤ digitLimit := Digits.length_natText_le (by decide +kernel)
  simp [Answer.toValue, Location.toValue, Location.origin, object, hzero]

theorem Refusal.readable_data {refusal : Refusal}
    (h : ∀ fault, refusal = .outOfRange fault →
      (natText fault.line.natAbs).length ≤ digitLimit ∧
      (natText fault.lineCount).length ≤ digitLimit) : Readable 1 refusal.data := by
  cases refusal with
  | notReady cause => simp [Refusal.data]
  | rejected rejection => simp [Refusal.data, object]
  | unreadable message path => simp [Refusal.data, object]
  | outOfRange fault =>
    obtain ⟨hline, hcount⟩ := h fault rfl
    have hkeys : (["line", "line_count"] : List Text).Nodup := by decide
    refine .table hkeys fun e he => ?_
    rcases List.mem_cons.mp he with rfl | he
    · exact .int hline
    · obtain rfl := List.mem_singleton.mp he
      exact .int hcount

namespace Capabilities

theorem filterMap_sublist_map {α β : Type} {f : α → Option β} {g : α → β}
    (h : ∀ a b, f a = some b → b = g a) (items : List α) :
    (items.filterMap f).Sublist (items.map g) := by
  induction items with
  | nil => exact List.Sublist.slnil
  | cons a rest ih =>
    rw [List.map_cons]
    cases hf : f a with
    | none =>
      rw [List.filterMap_cons_none hf]
      exact ih.cons _
    | some b =>
      rw [List.filterMap_cons_some hf, h a b hf]
      exact ih.cons_cons _

theorem saveEntries_sublist (client : Value) :
    (saveEntries client).Sublist
      [("willSave", .bool false), ("willSaveWaitUntil", .bool false)] := by
  have hsub : (saveEntries client).Sublist ((["willSave", "willSaveWaitUntil"] : List Text).map
      fun name => (name, Value.bool false)) := by
    refine filterMap_sublist_map (fun name entry h => ?_) _
    split at h
    · exact (Option.some.inj h).symm
    · cases h
  exact hsub

/-- Whatever a client announces, what the server answers it with is readable. -/
theorem readable_answer (client : Value) : Readable 6 (answer client) := by
  have hsub := saveEntries_sublist client
  have hkeys : (["openClose", "change", "save", "willSave", "willSaveWaitUntil"] :
      List Text).Nodup := by decide
  have hdistinct := hkeys.sublist
    ((hsub.map Prod.fst).append_left ["openClose", "change", "save"])
  have htwo : (natText 2).length ≤ digitLimit := Digits.length_natText_le (by decide +kernel)
  have hsync : Readable 4 (.table (("openClose", .bool true) :: ("change", .int 2) ::
      ("save", .bool false) :: saveEntries client)) := by
    refine .table hdistinct fun e he => ?_
    rcases List.mem_cons.mp he with rfl | he
    · exact .bool true
    rcases List.mem_cons.mp he with rfl | he
    · exact .int htwo
    rcases List.mem_cons.mp he with rfl | he
    · exact .bool false
    have hmem := hsub.subset he
    simp only [List.mem_cons, List.not_mem_nil, or_false] at hmem
    rcases hmem with rfl | rfl
    all_goals exact .bool false
  have hanswer : ∀ encoding sync, Readable 4 sync → Readable 6 (object [
      ("capabilities", object [
        ("positionEncoding", .text encoding), ("textDocumentSync", sync),
        ("completionProvider", object [("triggerCharacters", .list [.text "-"])]),
        ("hoverProvider", .bool true),
        ("definitionProvider", .bool true),
        ("documentFormattingProvider", .bool true),
        ("executeCommandProvider", object [("commands", .list [.text "ciOperator.generations"])]),
        ("workspace", object [
          ("workspaceFolders",
            object [("supported", .bool true), ("changeNotifications", .bool true)]),
          ("fileOperations", object [])])]),
      ("serverInfo", object [("name", .text name), ("version", .text version)])]) := by
    intro encoding sync h
    simp [object, h]
  exact hanswer _ _ hsync

end Capabilities
end Server
end StepLocator
