import StepLocator.CommandLine.Question
import StepLocator.Proofs.Client.Agreement

/-!
How the command ends that asks in the same program. What the handlers answer can always be printed,
and what they refuse is reported; but a number that no position has is noticed between the handshake
and the handlers, where nobody reports it.
-/
namespace StepLocator

open Server

def Server.Location.place (l : Location) : Place := ⟨l.uri, ⟨0, 0⟩, ⟨0, 0⟩⟩

namespace Place

theorem place_toValue (l : Location) : Shape.place l.toValue = .ok l.place := rfl

theorem toValue_place (l : Location) : l.place.toValue = l.toValue := rfl

/-- The values of an answer in print, as they are. -/
def inPrint (values : List Value) : Text :=
  Json.printIndented 0 (Json.sortKeys (.table [(listKey, .list values)]))

theorem printList_locations (found : List Location) :
    printList (found.map Location.place) = inPrint (found.map Location.toValue) := by
  have hvalues : (found.map Location.place).map toValue = found.map Location.toValue := by
    rw [List.map_map]
    exact List.map_congr_left fun l _ => toValue_place l
  rw [printList, hvalues, inPrint]

theorem allFrom_locations (found : List Location) (index : Nat) :
    Shape.Checked.allFrom Shape.place index (found.map Location.toValue) =
      .ok (found.map Location.place) := by
  induction found generalizing index with
  | nil => rfl
  | cons l rest ih =>
    rw [List.map_cons, Shape.Checked.allFrom, place_toValue, ih]
    rfl

theorem listOf_locations (found : List Location) :
    listOf (.list (found.map Location.toValue)) = .ok (found.map Location.place) := by
  rw [listOf, Shape.listOf, allFrom_locations]
  rfl

end Place

namespace Local

variable {fs : FileSystem} {root : Option Path} {query : Query} {workspace : Path} {uri : Text}

def HasPosition (q : Query) : Prop :=
  (0 ≤ q.line ∧ q.line ≤ 2147483647) ∧ 0 ≤ q.character ∧ q.character ≤ 2147483647

theorem inRange_iff {number : Int} : inRange number = true ↔ 0 ≤ number ∧ number ≤ 2147483647 := by
  rw [inRange, Bool.and_eq_true, decide_eq_true_iff, decide_eq_true_iff]
  rfl

theorem badNumber?_eq_none_iff : badNumber? query = none ↔ HasPosition query := by
  unfold badNumber? HasPosition
  rw [← inRange_iff, ← inRange_iff]
  cases inRange query.line <;> cases inRange query.character <;> simp

theorem of_badNumber?_eq_some {field : Text} {number : Int}
    (h : badNumber? query = some (field, number)) :
    (number < 0 ∨ 2147483647 < number) ∧
      (field = "line" ∧ number = query.line ∨ field = "character" ∧ number = query.character) := by
  have hout : ∀ n, ¬ inRange n = true → n < 0 ∨ 2147483647 < n := fun n hn => by
    rw [inRange_iff] at hn
    omega
  unfold badNumber? at h
  split at h
  · rename_i hline
    cases h
    exact ⟨hout _ hline, .inl ⟨rfl, rfl⟩⟩
  · split at h
    · rename_i hcharacter
      cases h
      exact ⟨hout _ hcharacter, .inr ⟨rfl, rfl⟩⟩
    · cases h

theorem ask_of_badNumber (hworkspace : Query.workspace fs root = .ok workspace)
    (huri : query.documentUri fs = .ok uri) {session : Session}
    (h : offered fs workspace = .ok session) {field : Text} {number : Int}
    (hnumber : badNumber? query = some (field, number)) :
    (ask Controller.fresh fs root query).outcome = .error (.position field number) := by
  unfold offered at h
  rw [ask, hworkspace]
  simp only [h, huri, hnumber]

theorem ask_of_session (hworkspace : Query.workspace fs root = .ok workspace)
    (huri : query.documentUri fs = .ok uri) {session : Session}
    (h : offered fs workspace = .ok session) (hposition : badNumber? query = none) :
    (∃ found : List Location,
      (ask Controller.fresh fs root query).outcome = .ok (found.map Location.toValue)) ∨
    ∃ refusal, (ask Controller.fresh fs root query).outcome = .error (.refused refusal) := by
  rw [ask_of_ok hworkspace huri hposition h]
  rcases definition_cases ⟨some session⟩ fs uri query.line with hout | ⟨found, hout⟩ |
    ⟨cause, hout⟩ | ⟨message, path, hout⟩ | ⟨lines, _, hout⟩ | ⟨hread, hout⟩
  all_goals rw [hout]
  · exact .inl ⟨[], rfl⟩
  · exact .inl ⟨found, rfl⟩
  · exact .inr ⟨_, rfl⟩
  · exact .inr ⟨_, rfl⟩
  · exact .inr ⟨_, rfl⟩
  · exact absurd hread (readLines_ne_nul_of_documentUri huri)

end Local

namespace CommandLine

open Local

/-- The command ends as it is meant to: what is answered is printed as it is, or a failure of the
client or of the handshake is reported. -/
inductive Ending.Foreseen {ε : Type} (asked : Except Local.Fault (List Value)) : Ending ε → Prop
  | printed (values : List Value) (answered : asked = .ok values) :
    Foreseen asked (.printed (Place.inPrint values ++ "\n"))
  | reported (fault : Local.Fault) (failed : asked = .error fault)
    (reported : fault.isReported = true) :
    Foreseen asked (.reported (Text.plain fault.message ++ "\n"))

variable {fs : FileSystem} {root : Option Path} {query : Query} {timeout : Timeout}
  {workspace document : Path}

theorem run_of_answer {found : List Location}
    (h : (ask Controller.fresh fs root query).outcome = .ok (found.map Location.toValue)) :
    Question.run fs ⟨query, root, true, timeout⟩ =
      .printed (Place.inPrint (found.map Location.toValue) ++ "\n") := by
  simp only [Question.run, Question.call, if_true, Call.answer, h, Ending.ofAnswer,
    Place.listOf_locations, Place.printList_locations]

theorem run_of_fault {fault : Local.Fault}
    (h : (ask Controller.fresh fs root query).outcome = .error fault) :
    Question.run fs ⟨query, root, true, timeout⟩ =
      if fault.isReported then .reported (Text.plain fault.message ++ "\n")
      else .unforeseen (.direct fault) := by
  simp only [Question.run, Question.call, if_true, Call.answer, h]
  cases fault.isReported <;> rfl

theorem foreseen_of_fault {fault : Local.Fault}
    (h : (ask Controller.fresh fs root query).outcome = .error fault)
    (hreported : fault.isReported = true) :
    Ending.Foreseen (ask Controller.fresh fs root query).outcome
      (Question.run fs ⟨query, root, true, timeout⟩) := by
  rw [run_of_fault h, if_pos hreported]
  exact .reported fault h hreported

theorem documentUri_of_canonical (hdocument : fs.canonical query.document = .ok document) :
    query.documentUri fs = .ok (Uri.ofPath document) := by
  rw [Query.documentUri, hdocument]
  rfl

/-- Without a session there is no number to look at: the rejected handshake is reported. -/
theorem foreseen_of_not_greeted (hworkspace : Query.workspace fs root = .ok workspace)
    (h : ¬ ∃ session, offered fs workspace = .ok session) :
    Ending.Foreseen (ask Controller.fresh fs root query).outcome
      (Question.run fs ⟨query, root, true, timeout⟩) := by
  cases hoffered : offered fs workspace with
  | ok session => exact absurd ⟨session, hoffered⟩ h
  | error fault =>
    cases fault with
    | rejected rejection => exact foreseen_of_fault (ask_of_error hworkspace hoffered) rfl
    | nulInPath =>
      have hnul := (FileSystem.canonical_eq_ok hworkspace).2
      exact absurd hoffered (Controller.handshake_folders hnul _ fs _ _)

theorem foreseen_of_position (hworkspace : Query.workspace fs root = .ok workspace)
    (hdocument : fs.canonical query.document = .ok document) {session : Session}
    (h : offered fs workspace = .ok session) (hposition : HasPosition query) :
    Ending.Foreseen (ask Controller.fresh fs root query).outcome
      (Question.run fs ⟨query, root, true, timeout⟩) := by
  rcases ask_of_session hworkspace (documentUri_of_canonical hdocument) h
    (badNumber?_eq_none_iff.mpr hposition) with ⟨found, hfound⟩ | ⟨refusal, hrefusal⟩
  · rw [run_of_answer hfound]
    exact .printed _ hfound
  · exact foreseen_of_fault hrefusal rfl

/-- A number that no position has is not reported, but left to whoever runs the command. -/
theorem unforeseen_of_not_position (hworkspace : Query.workspace fs root = .ok workspace)
    (hdocument : fs.canonical query.document = .ok document) {session : Session}
    (h : offered fs workspace = .ok session) (hposition : ¬ HasPosition query) :
    ∃ field number, badNumber? query = some (field, number) ∧
      (ask Controller.fresh fs root query).outcome = .error (.position field number) ∧
      Question.run fs ⟨query, root, true, timeout⟩ =
        .unforeseen (.direct (.position field number)) := by
  rw [← badNumber?_eq_none_iff, ← ne_eq, Option.ne_none_iff_exists'] at hposition
  obtain ⟨⟨field, number⟩, hnumber⟩ := hposition
  have hask := ask_of_badNumber hworkspace (documentUri_of_canonical hdocument) h hnumber
  exact ⟨field, number, hnumber, hask, run_of_fault hask⟩

theorem Ending.Foreseen.exitCode {ε : Type} {asked : Except Local.Fault (List Value)}
    {ending : Ending ε} (h : Foreseen asked ending) :
    (∃ places, asked = .ok places ∧ ending.exitCode = 0) ∨
      ∃ fault, asked = .error fault ∧ fault.isReported = true ∧ ending.exitCode = 2 := by
  cases h with
  | printed values answered => exact .inl ⟨values, answered, rfl⟩
  | reported fault failed reported => exact .inr ⟨fault, failed, reported, rfl⟩

/-- For every workspace and document that there are paths to, the command that asks in the same
program prints the places or reports a failure of the client or of the handshake, with the exit code
two, except exactly where the handshake makes a session and the line or the character is a number
that no position has: that failure is not foreseen. -/
theorem run_direct_foreseen_iff (hworkspace : Query.workspace fs root = .ok workspace)
    (hdocument : fs.canonical query.document = .ok document) (timeout : Timeout) :
    let asked := (ask Controller.fresh fs root query).outcome
    let ending := Question.run fs ⟨query, root, true, timeout⟩
    let greeted := ∃ session, offered fs workspace = .ok session
    (Ending.Foreseen asked ending ↔ (greeted → HasPosition query)) ∧
    (Ending.Foreseen asked ending →
      (∃ places, asked = .ok places ∧ ending.exitCode = 0) ∨
        ∃ fault, asked = .error fault ∧ fault.isReported = true ∧ ending.exitCode = 2) ∧
    (greeted → ¬ HasPosition query → ∃ (field : Text) (number : Int),
      (number < 0 ∨ 2147483647 < number) ∧
      (field = "line" ∧ number = query.line ∨ field = "character" ∧ number = query.character) ∧
      asked = .error (.position field number) ∧
      ending = .unforeseen (.direct (.position field number)) ∧ ending.exitCode = 1) := by
  intro asked ending greeted
  have hbad (hgreeted : greeted) (hposition : ¬ HasPosition query) : ∃ field number,
      badNumber? query = some (field, number) ∧ asked = .error (.position field number) ∧
      ending = .unforeseen (.direct (.position field number)) := by
    obtain ⟨session, hsession⟩ := hgreeted
    exact unforeseen_of_not_position hworkspace hdocument hsession hposition
  refine ⟨⟨fun hforeseen hgreeted => ?_, fun himp => ?_⟩, Ending.Foreseen.exitCode, ?_⟩
  · refine Classical.byContradiction fun hposition => ?_
    obtain ⟨field, number, -, -, hending⟩ := hbad hgreeted hposition
    rw [hending] at hforeseen
    cases hforeseen
  · by_cases hgreeted : greeted
    · obtain ⟨session, hsession⟩ := hgreeted
      exact foreseen_of_position hworkspace hdocument hsession (himp ⟨session, hsession⟩)
    · exact foreseen_of_not_greeted hworkspace hgreeted
  · intro hgreeted hposition
    obtain ⟨field, number, hnumber, hasked, hending⟩ := hbad hgreeted hposition
    obtain ⟨hout, hfield⟩ := of_badNumber?_eq_some hnumber
    exact ⟨field, number, hout, hfield, hasked, hending, by rw [hending]; rfl⟩

/-- The question about the first line of a document with a reference is answered in print. -/
theorem run_direct_prints_reference :
    let ending := Question.run oneReference
      ⟨firstLine, some (Path.ofText "/w".toList), true, Timeout.standard⟩
    Query.workspace oneReference (some (Path.ofText "/w".toList)) =
      .ok (Path.ofText "/w".toList) ∧
    oneReference.canonical firstLine.document = .ok (Path.ofText "/d".toList) ∧
    Ending.Foreseen (ask Controller.fresh oneReference (some (Path.ofText "/w".toList))
      firstLine).outcome ending ∧ ending.exitCode = 0 := by
  intro ending
  have hworkspace : Query.workspace oneReference (some (Path.ofText "/w".toList)) =
      .ok (Path.ofText "/w".toList) := rfl
  have hdocument : oneReference.canonical firstLine.document = .ok (Path.ofText "/d".toList) := rfl
  have hposition : HasPosition firstLine := ⟨by decide, by decide⟩
  have hforeseen := (run_direct_foreseen_iff hworkspace hdocument Timeout.standard).1.mpr
    fun _ => hposition
  have hask : (ask Controller.fresh oneReference (some (Path.ofText "/w".toList))
      firstLine).outcome =
      .ok ([Location.ofTarget "/w/ci-operator/step-registry/a/a-ref.yaml".toList].map
        Location.toValue) := rfl
  refine ⟨hworkspace, hdocument, hforeseen, ?_⟩
  rw [show ending = _ from run_of_answer hask]
  rfl

/-- The first line past the greatest number of a position is neither answered nor reported. -/
theorem run_direct_fails_past_greatest :
    let query : Query := ⟨Path.ofText "/d".toList, 2147483648, 0⟩
    let root := some (Path.ofText "/w".toList)
    let ending := Question.run oneReference ⟨query, root, true, Timeout.standard⟩
    Query.workspace oneReference root = .ok (Path.ofText "/w".toList) ∧
    oneReference.canonical query.document = .ok (Path.ofText "/d".toList) ∧
    (ask Controller.fresh oneReference root query).outcome =
      .error (.position "line" 2147483648) ∧
    (Local.Fault.position "line" 2147483648).isReported = false ∧
    ending = .unforeseen (.direct (.position "line" 2147483648)) ∧ ending.exitCode = 1 := by
  intro query root ending
  have hworkspace : Query.workspace oneReference root = .ok (Path.ofText "/w".toList) := rfl
  have hdocument : oneReference.canonical query.document = .ok (Path.ofText "/d".toList) := rfl
  obtain ⟨session, hsession⟩ : ∃ session,
      offered oneReference (Path.ofText "/w".toList) = .ok session := ⟨_, rfl⟩
  have hnumber : badNumber? query = some ("line".toList, 2147483648) := by decide
  have hask := ask_of_badNumber hworkspace (documentUri_of_canonical hdocument) hsession hnumber
  have hending : ending = _ := run_of_fault hask
  refine ⟨hworkspace, hdocument, hask, rfl, hending, ?_⟩
  rw [hending]
  rfl

end CommandLine
end StepLocator
