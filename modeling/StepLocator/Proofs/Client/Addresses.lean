import StepLocator.Proofs.Document
import StepLocator.Proofs.Server.Handlers

/-!
Addresses that a client makes. A client names a document and its workspace by the URIs of their
paths; the server takes the one apart in another order than the other, and finds the path that the
client meant on both ways, whatever characters it has.
-/
namespace StepLocator

theorem Uri.readings_ofPath {p : Path} (h : p.WellFormed) :
    documentPath (ofPath p) = p ∧ folderPath (ofPath p) = p := by
  rw [documentPath_ofPath, folderPath_ofPath, Path.ofText_toText h]
  exact ⟨rfl, rfl⟩

theorem Uri.ofPath_eq_iff {p q : Path} (hp : p.WellFormed) (hq : q.WellFormed) :
    ofPath p = ofPath q ↔ p = q := by
  refine ⟨fun h => ?_, fun h => by rw [h]⟩
  rw [← (readings_ofPath hp).1, h, (readings_ofPath hq).1]

theorem Folders.root_folders_iff {p : Path} (h : p.WellFormed) (fs : FileSystem) :
    root fs (Query.folders p) = .ok p ↔ ∃ entry, fs.entry p.toText = .ok entry := by
  constructor
  · intro hroot
    obtain ⟨_, entry, _, _, hentry⟩ := root_eq_ok hroot
    exact ⟨entry, hentry⟩
  · rintro ⟨entry, hentry⟩
    simp only [root, read_folders, (Uri.readings_ofPath h).2, hentry]

/-- A session over the folder that a client offers is one over its workspace. -/
theorem Controller.layout_of_folders {p : Path} (h : p.WellFormed) {c : Controller}
    {fs : FileSystem} {obstacles : Obstacles} {hook : Hook} {s : Session}
    (hs : (c.handshake fs obstacles hook (Query.folders p)).outcome = .ok s) :
    s.layout = Layout.ofRoot p := by
  obtain ⟨root, hroot, hlayout⟩ := (handshake_eq_ok_iff.mp hs).2.layout
  obtain ⟨offered, _, hread, rfl, _⟩ := Folders.root_eq_ok hroot
  rw [Folders.read_folders] at hread
  obtain rfl := Except.ok.inj hread
  rw [hlayout, (Uri.readings_ofPath h).2]

/-- The document at the URI of a path is the file at the path. -/
theorem Document.readLines_ofPath_iff {p : Path} (h : p.WellFormed) (fs : FileSystem)
    {lines : List Text} :
    readLines fs (Uri.ofPath p) = .ok lines ↔
      ∃ content, fs.read p.toText = .ok content ∧ linesOf content = .ok lines := by
  rw [readLines_eq_ok_iff, (Uri.readings_ofPath h).1]

/-- The URI that a client makes of a path leads back to the path, as that of a document and as that
of a workspace where something is there. So different paths have different URIs, the session that
the server makes is over the workspace that was meant, and the lines that it reads are those of the
document that was meant. -/
theorem address_leads_back (text : Text) :
    let p := Path.ofText text
    Uri.documentPath (Uri.ofPath p) = p ∧
    (∀ fs, Folders.root fs (Query.folders p) = .ok p ↔ ∃ entry, fs.entry p.toText = .ok entry) ∧
    (∀ other, Uri.ofPath p = Uri.ofPath (Path.ofText other) ↔ p = Path.ofText other) ∧
    (∀ (c : Controller) (fs : FileSystem) (obstacles : Controller.Obstacles) (hook : Hook)
      (s : Session), (c.handshake fs obstacles hook (Query.folders p)).outcome = .ok s →
        s.layout = Layout.ofRoot p) ∧
    ∀ (fs : FileSystem) (lines : List Text), Document.readLines fs (Uri.ofPath p) = .ok lines ↔
      ∃ content, fs.read p.toText = .ok content ∧ Document.linesOf content = .ok lines := by
  intro p
  have hp : p.WellFormed := Path.wellFormed_ofText text
  exact ⟨(Uri.readings_ofPath hp).1, Folders.root_folders_iff hp,
    fun other => Uri.ofPath_eq_iff hp (Path.wellFormed_ofText other),
    fun c fs obstacles hook s => Controller.layout_of_folders hp,
    fun fs lines => Document.readLines_ofPath_iff hp fs⟩

/-- Two slashes in front, escapes in a name and a name like the scheme. -/
example : Uri.ofPath (Path.ofText "//a b/%2F/file:/é?#".toList) =
    "file:////a%20b/%252F/file%3A/%C3%A9%3F%23".toList := by
  decide +kernel

end StepLocator
