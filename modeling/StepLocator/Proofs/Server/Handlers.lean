import StepLocator.Client.Query
import StepLocator.Proofs.Files.Canonical
import StepLocator.Proofs.Path.Uri
import StepLocator.Proofs.Registry.Containment
import StepLocator.Server.Handlers

/-!
What comes of the handlers behind a question: they answer, or they refuse for a cause that can be
told. What a canonical path leads to is never a path that cannot be tried.
-/
namespace StepLocator

open Files

theorem Folders.read_folders (workspace : Path) :
    read (Query.folders workspace) = .ok ⟨Uri.ofPath workspace, some workspace.name⟩ := rfl

theorem Controller.root_of_handshake_eq_nul {c : Controller} {fs : FileSystem}
    {obstacles : Obstacles} {hook : Hook} {folders : Value}
    (h : (c.handshake fs obstacles hook folders).outcome = .error .nulInPath) :
    Folders.root fs folders = .error .nulInPath := by
  unfold handshake at h
  split at h
  · cases h
  · split at h
    · unfold establish at h
      simp only at h
      split at h
      · cases h
      · split at h <;> cases h
    · cases h
    · cases h
    · assumption

theorem Controller.handshake_folders {workspace : Path} (h : '\x00' ∉ workspace.toText)
    (c : Controller) (fs : FileSystem) (obstacles : Obstacles) (hook : Hook) :
    (c.handshake fs obstacles hook (Query.folders workspace)).outcome ≠ .error .nulInPath := by
  intro hout
  have hroot := root_of_handshake_eq_nul hout
  have hentry : fs.entry (Path.ofText workspace.toText).toText ≠ .error .nulInPath := fun e =>
    Path.nul_notMem_toText_ofText h (FileSystem.entry_eq_nul_iff.mp e)
  rw [Folders.root, Folders.read_folders] at hroot
  simp only [Uri.folderPath_ofPath] at hroot
  split at hroot
  · cases hroot
  · cases hroot
  · rename_i e
    exact hentry e

namespace Server

/-- What comes of a question about a line: nothing is there, places are there, or it is refused
since there is no session, since the document cannot be read or since it does not have the line. -/
theorem definition_cases (c : Controller) (fs : FileSystem) (uri : Text) (line : Int) :
    (definition c fs uri line).outcome = .ok .nothing ∨
    (∃ places, (definition c fs uri line).outcome = .ok (.locations places)) ∨
    (∃ cause, (definition c fs uri line).outcome = .error (.refused (.notReady cause))) ∨
    (∃ message path,
      (definition c fs uri line).outcome = .error (.refused (.unreadable message path))) ∨
    (∃ lines, Document.readLines fs uri = .ok lines ∧
      (definition c fs uri line).outcome =
        .error (.refused (.outOfRange ⟨line, lines.length⟩))) ∨
    (Document.readLines fs uri = .error .nulInPath ∧
      (definition c fs uri line).outcome = .error .nulInPath) := by
  unfold definition withSession
  cases c.requireSession with
  | error cause => exact Or.inr (Or.inr (Or.inl ⟨cause, rfl⟩))
  | ok session =>
    simp only [withLines]
    cases hlines : Document.readLines fs uri with
    | error fault =>
      cases fault with
      | nulInPath => simp [Handled.quiet]
      | unreadable document => simp [Handled.quiet]
    | ok lines =>
      simp only
      cases hline : Registry.lineAt? lines line with
      | none =>
        have hfound := Registry.definitions_of_none hline session.registryRoot.toText
        simp [hfound, Handled.quiet]
      | some text =>
        have hfound := Registry.definitions_of_some hline session.registryRoot.toText
        simp only [hfound]
        split
        · rename_i e
          cases e
        · simp [Handled.quiet]
        · simp [Handled.quiet]

theorem definition_keeps (c : Controller) (fs : FileSystem) (uri : Text) (line : Int) :
    (definition c fs uri line).controller = c ∧ (definition c fs uri line).requests = [] := by
  unfold definition withSession withLines
  split
  · split
    · simp only
      split <;> exact ⟨rfl, rfl⟩
    · exact ⟨rfl, rfl⟩
    · exact ⟨rfl, rfl⟩
  · exact ⟨rfl, rfl⟩

theorem handshake_outcome (c : Controller) (fs : FileSystem) (folders : Value) :
    (handshake c fs folders).outcome =
      match (c.handshake fs Controller.Obstacles.clear Hook.calm folders).outcome with
      | .ok _ => .ok .nothing
      | .error (.rejected rejection) => .error (.refused (.rejected rejection))
      | .error .nulInPath => .error .nulInPath := by
  unfold handshake
  generalize c.handshake fs Controller.Obstacles.clear Hook.calm folders = done
  obtain ⟨outcome, controller, attempts, reports, records⟩ := done
  cases outcome with
  | ok session => rfl
  | error fault =>
    cases fault with
    | rejected rejection => rfl
    | nulInPath => rfl

theorem controller_handshake (c : Controller) (fs : FileSystem) (folders : Value) :
    (handshake c fs folders).controller =
      (c.handshake fs Controller.Obstacles.clear Hook.calm folders).controller := by
  unfold handshake
  simp only
  split <;> rfl

theorem handshake_requests (c : Controller) (fs : FileSystem) (folders : Value) :
    (handshake c fs folders).requests = [] := by
  unfold handshake
  simp only
  split <;> rfl

theorem readLines_ne_nul {document : Path} (h : '\x00' ∉ document.toText) (fs : FileSystem) :
    Document.readLines fs (Uri.ofPath document) ≠ .error .nulInPath := by
  intro e
  have hread : fs.read (Path.ofText document.toText).toText ≠ .error .nulInPath := fun e =>
    Path.nul_notMem_toText_ofText h (FileSystem.read_eq_nul_iff.mp e)
  rw [Document.readLines, Uri.documentPath_ofPath] at e
  split at e
  · rename_i hnul
    exact hread hnul
  · cases e
  · split at e <;> cases e

end Server
end StepLocator
