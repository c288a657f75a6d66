import StepLocator.Proofs.Server.Run

/-!
Questions about documents that cannot be read. Whatever keeps a document from being read, the files
on the way to it, the file itself or its octets, the question is refused with the path that was
tried; only a path with the character number zero in it is not tried at all, and that is not
foreseen.
-/
namespace StepLocator

namespace Document

def IsReadable (fs : FileSystem) (uri : Text) : Prop :=
  ∃ content text, fs.read (Uri.documentPath uri).toText = .ok content ∧
    Utf8.decode content = .ok text

variable {fs : FileSystem} {uri : Text}

theorem readLines_of_readable (h : IsReadable fs uri) : ∃ lines, readLines fs uri = .ok lines := by
  obtain ⟨content, text, hread, hdecode⟩ := h
  have hlines : linesOf content = .ok (Text.lines (Text.unifyLineEnds text)) := by
    rw [linesOf, textOf, hdecode]
    rfl
  exact ⟨_, by simp only [readLines, hread, hlines]; rfl⟩

/-- A document that cannot be read is told by its URI and its path, unless the path is not tried. -/
theorem readLines_of_unreadable (h : ¬ IsReadable fs uri) :
    ('\x00' ∉ (Uri.documentPath uri).toText → ∃ cause,
      readLines fs uri = .error (.unreadable ⟨uri, (Uri.documentPath uri).toText, cause⟩)) ∧
    ('\x00' ∈ (Uri.documentPath uri).toText → readLines fs uri = .error .nulInPath) := by
  cases hread : fs.read (Uri.documentPath uri).toText with
  | error fault =>
    cases fault with
    | nulInPath =>
      have hmem := FileSystem.read_eq_nul_iff.mp hread
      exact ⟨fun hnone => absurd hmem hnone, fun _ => by simp only [readLines, hread]⟩
    | refused cause path =>
      refine ⟨fun _ => ⟨.access cause path, by simp only [readLines, hread]⟩, fun hmem => ?_⟩
      cases hread.symm.trans (FileSystem.read_eq_nul_iff.mpr hmem)
  | ok content =>
    refine ⟨fun _ => ?_, fun hmem => ?_⟩
    · cases hdecode : Utf8.decode content with
      | ok text => exact absurd ⟨content, text, hread, hdecode⟩ h
      | error fault =>
        have hlines : linesOf content = .error fault := by
          rw [linesOf, textOf, hdecode]
          rfl
        exact ⟨.encoding fault, by simp only [readLines, hread, hlines]⟩
    · cases hread.symm.trans (FileSystem.read_eq_nul_iff.mpr hmem)

end Document

namespace Server

variable {c : Controller} {s : Session}

/-- Both questions that read a document fail as the reading does. -/
theorem questions_of_readLines_eq_error (h : c.session = some s) {fs : FileSystem} {uri : Text}
    {fault : Document.Fault} (hlines : Document.readLines fs uri = .error fault) (line : Int) :
    let failure : Failure := match fault with
      | .nulInPath => .nulInPath
      | .unreadable document => .refused (.unreadable document.message document.path)
    (definition c fs uri line).outcome = .error failure ∧
      (formatting c fs uri).outcome = .error failure := by
  simp only [definition, formatting, withSession_of_some h, withLines, hlines]
  cases fault <;> exact ⟨rfl, rfl⟩

theorem questions_of_readable (h : c.session = some s) {fs : FileSystem} {uri : Text}
    (hreadable : Document.IsReadable fs uri) (line : Int) :
    (formatting c fs uri).outcome = .ok .noEdits ∧
      ∀ refusal, (definition c fs uri line).outcome = .error (.refused refusal) →
        refusal.code ≠ Refusal.requestFailed := by
  obtain ⟨lines, hlines⟩ := Document.readLines_of_readable hreadable
  simp only [definition, formatting, withSession_of_some h, withLines, hlines]
  refine ⟨rfl, fun refusal hrefusal => ?_⟩
  split at hrefusal
  · cases hrefusal
    show Refusal.invalidParams ≠ Refusal.requestFailed
    decide
  · cases hrefusal
  · cases hrefusal

theorem formatting_keeps (c : Controller) (fs : FileSystem) (uri : Text) :
    (formatting c fs uri).controller = c := by
  have hquestion : (Call.formatting uri).isQuestion = true := rfl
  exact perform_question_keeps hquestion c fs

/-- With a session, a document that cannot be read fails both questions that read it, each time and
without a change. The client is told of the path that was tried; where the character number zero
keeps it from being tried, the failure is not foreseen. A document that can be read fails neither
of them for want of it. -/
theorem questions_about_document (h : c.session = some s) (fs : FileSystem) (uri : Text)
    (line : Int) :
    let path := (Uri.documentPath uri).toText
    let asked := definition c fs uri line
    let checked := formatting c fs uri
    asked.controller = c ∧ checked.controller = c ∧
    (¬ Document.IsReadable fs uri → '\x00' ∉ path → ∃ refusal,
      asked.outcome = .error (.refused refusal) ∧ checked.outcome = .error (.refused refusal) ∧
        refusal.code = -32803 ∧ refusal.data = .table [("path", .text path)] ∧
        ∃ cause : Document.Cause,
          refusal.message = "cannot read document " ++ uri ++ ": " ++ cause.message) ∧
    ('\x00' ∈ path → ¬ Document.IsReadable fs uri ∧
      asked.outcome = .error .nulInPath ∧ checked.outcome = .error .nulInPath) ∧
    (Document.IsReadable fs uri → checked.outcome = .ok .noEdits ∧
      ∀ refusal, asked.outcome = .error (.refused refusal) → refusal.code ≠ -32803) := by
  intro path asked checked
  refine ⟨(definition_keeps c fs uri line).1, formatting_keeps c fs uri, ?_, ?_,
    fun hreadable => questions_of_readable h hreadable line⟩
  · intro hunreadable hnone
    obtain ⟨cause, hlines⟩ := (Document.readLines_of_unreadable hunreadable).1 hnone
    obtain ⟨hasked, hchecked⟩ := questions_of_readLines_eq_error h hlines line
    exact ⟨_, hasked, hchecked, rfl, rfl, cause, rfl⟩
  · intro hmem
    have hunreadable : ¬ Document.IsReadable fs uri := by
      rintro ⟨content, text, hread, -⟩
      cases hread.symm.trans (FileSystem.read_eq_nul_iff.mpr hmem)
    have hlines := (Document.readLines_of_unreadable hunreadable).2 hmem
    exact ⟨hunreadable, questions_of_readLines_eq_error h hlines line⟩

/-- With the session of the workspace `/w`, a document that is a directory is refused with its
path. -/
theorem questions_about_directory :
    let fs : FileSystem := .ofListing (.directory "w" .empty .empty)
    let c := after Controller.fresh
      [⟨fs, .handshake (.list [.table [("uri", .text "file:///w")]])⟩]
    ∃ refusal, (definition c fs "file:///w" 0).outcome = .error (.refused refusal) ∧
      (formatting c fs "file:///w").outcome = .error (.refused refusal) ∧
      refusal.code = -32803 ∧ refusal.data = .table [("path", .text "/w")] := by
  intro fs c
  obtain ⟨s, hs⟩ : ∃ s, c.session = some s := ⟨_, rfl⟩
  have hunreadable : ¬ Document.IsReadable fs "file:///w" := by
    rintro ⟨content, text, hread, -⟩
    cases hread
  obtain ⟨-, -, hrefused, -⟩ := questions_about_document hs fs "file:///w" 0
  obtain ⟨refusal, hasked, hchecked, hcode, hdata, -⟩ := hrefused hunreadable (by decide)
  exact ⟨refusal, hasked, hchecked, hcode, hdata⟩

/-- The document at `file:///a%00b.yaml` fails both questions in a way that is not foreseen. -/
theorem questions_about_nul_fail :
    let fs : FileSystem := .ofListing (.directory "w" .empty .empty)
    let c := after Controller.fresh
      [⟨fs, .handshake (.list [.table [("uri", .text "file:///w")]])⟩]
    (∃ s, c.session = some s) ∧
      (definition c fs "file:///a%00b.yaml" 0).outcome = .error .nulInPath ∧
      (formatting c fs "file:///a%00b.yaml").outcome = .error .nulInPath := by
  intro fs c
  have hlines : Document.readLines fs "file:///a%00b.yaml" = .error .nulInPath := by
    decide +kernel
  exact ⟨⟨_, rfl⟩, questions_of_readLines_eq_error rfl hlines 0⟩

end Server
end StepLocator
