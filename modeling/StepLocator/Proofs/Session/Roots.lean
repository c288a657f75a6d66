import StepLocator.Proofs.Files.Entries
import StepLocator.Proofs.Session.Handshake

/-!
The roots of workspaces. A handshake asks of the root that it can be examined, and of nothing else:
the path may begin at the current directory, and what stands there may be a file.
-/
namespace StepLocator

namespace Folders

variable {fs : FileSystem} {folders : Value} {offered : Folder}

theorem root_eq_ok_iff {path : Path} :
    root fs folders = .ok path ↔ ∃ offered entry, read folders = .ok offered ∧
      path = Uri.folderPath offered.uri ∧ fs.entry path.toText = .ok entry := by
  refine ⟨root_eq_ok, ?_⟩
  rintro ⟨offered, entry, hread, rfl, hentry⟩
  simp [root, hread, hentry]

theorem root_of_refused (hread : read folders = .ok offered) {cause : Files.Cause} {path : Text}
    (h : fs.entry (Uri.folderPath offered.uri).toText = .error (.refused cause path)) :
    root fs folders = .error (.inaccessible (Uri.folderPath offered.uri) cause path) := by
  simp [root, hread, h]

end Folders

namespace Controller

variable {c : Controller} {fs : FileSystem} {obstacles : Obstacles} {hook : Hook} {folders : Value}

/-- Once the root of a workspace is known, only an agent can keep the session from being made. -/
theorem establish_eq_error {root : Path} {fault : Fault}
    (h : (c.establish fs obstacles hook root).outcome = .error fault) :
    ∃ kind failure, fault = .rejected (.agent kind failure) := by
  simp only [establish] at h
  split at h
  · exact ⟨_, _, (Except.error.inj h).symm⟩
  · split at h
    · exact ⟨_, _, (Except.error.inj h).symm⟩
    · cases h

theorem handshake_of_root {root : Path} (hready : c.ready = false)
    (h : Folders.root fs folders = .ok root) :
    c.handshake fs obstacles hook folders = c.establish fs obstacles hook root := by
  simp [handshake, hready, h]

/-- The root of a session is the path of the one URI that the client offers, without the scheme and
with its escapes decoded; it begins at the root of the files exactly if that text begins with a
slash, and there is a directory or a file at it. A root that cannot be examined is rejected by its
name; one that can be is rejected only where an agent does not start. -/
theorem root_of_handshake (c : Controller) (fs : FileSystem) (obstacles : Obstacles) (hook : Hook)
    (folders : Value) :
    let done := c.handshake fs obstacles hook folders
    (∀ s, done.outcome = .ok s → ∃ offered, Folders.read folders = .ok offered ∧
      let text := Percent.decode (Text.withoutStart Uri.scheme offered.uri)
      s.layout = Layout.ofRoot (Path.ofText text) ∧
      (s.layout.root.isAbsolute = true ↔ text.head? = some '/') ∧
      ((∃ listing, fs.entry s.layout.root.toText = .ok (.directory listing)) ∨
        ∃ content stamp, fs.entry s.layout.root.toText = .ok (.file content stamp))) ∧
    ∀ offered, c.ready = false → Folders.read folders = .ok offered →
      let root := Uri.folderPath offered.uri
      (∀ cause path, fs.entry root.toText = .error (.refused cause path) →
        done.outcome = .error (.rejected (.inaccessible root cause path))) ∧
      ∀ entry, fs.entry root.toText = .ok entry → ∀ fault, done.outcome = .error fault →
        ∃ kind failure, fault = .rejected (.agent kind failure) := by
  intro done
  constructor
  · intro s hdone
    obtain ⟨path, hpath, hlayout⟩ := (handshake_eq_ok_iff.mp hdone).2.layout
    obtain ⟨offered, entry, hread, rfl, hentry⟩ := Folders.root_eq_ok hpath
    refine ⟨offered, hread, hlayout, ?_, ?_⟩
    · rw [hlayout]
      exact Path.isAbsolute_ofText_iff
    · rw [hlayout, Layout.ofRoot_root, hentry]
      rcases FileSystem.directory_or_file hentry with ⟨listing, rfl⟩ | ⟨content, stamp, rfl⟩
      · exact .inl ⟨listing, rfl⟩
      · exact .inr ⟨content, stamp, rfl⟩
  · intro offered hready hread root
    refine ⟨fun cause path hrefused => ?_, fun entry hentry fault hfault => ?_⟩
    · have hroot := Folders.root_of_refused hread hrefused
      simp only [done, handshake, hready, hroot]
      rfl
    · have hroot := Folders.root_eq_ok_iff.mpr ⟨offered, entry, hread, rfl, hentry⟩
      rw [show done = _ from handshake_of_root hready hroot] at hfault
      exact establish_eq_error hfault

/-- A file makes a workspace, and so does the current directory by no name at all. -/
theorem session_over_file_and_over_here :
    let fs : FileSystem := .ofListing (.file "w" [] 1 .empty)
    let offer (uri : Text) : Value := .list [.table [("uri", .text uri)]]
    (∃ s content stamp, (fresh.handshake fs .clear .calm (offer "file:///w")).outcome = .ok s ∧
      fs.entry s.layout.root.toText = .ok (.file content stamp)) ∧
    ∃ s, (fresh.handshake fs .clear .calm (offer "file://")).outcome = .ok s ∧
      s.layout.root.isAbsolute = false := by
  intro fs offer
  exact ⟨⟨_, _, _, rfl, rfl⟩, _, rfl, rfl⟩

end Controller
end StepLocator
