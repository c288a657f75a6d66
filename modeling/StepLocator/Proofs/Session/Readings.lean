import Mathlib.Data.List.Infix
import StepLocator.Proofs.Document
import StepLocator.Proofs.Path.Uri
import StepLocator.Proofs.Session.Roots
import StepLocator.Proofs.Text.Escapes

/-!
One URI, read as that of a document and as that of a workspace folder. The first reading decodes the
escapes before it cuts off the scheme, the second one afterwards. Behind the scheme a text is
decoded as it is on its own, so the order counts only where the scheme itself is written with
escapes: then the second reading takes it for the name of a directory, and the paths differ by that
name.
-/
namespace StepLocator
namespace Uri

/-- A URI that begins with the scheme only once its escapes are decoded. -/
def HidesScheme (uri : Text) : Prop := ¬ scheme <+: uri ∧ scheme <+: Percent.decode uri

theorem withoutStart_eq_self {start text : Text} (h : ¬ start <+: text) :
    Text.withoutStart start text = text := by
  have hnone : start.isPrefixOf? text = none := by
    rw [Option.eq_none_iff_forall_ne_some]
    exact fun rest hrest => h ⟨rest, List.append_eq_of_isPrefixOf?_eq_some hrest⟩
  rw [Text.withoutStart, hnone, Option.getD_none]

theorem decode_scheme_append (rest : Text) :
    Percent.decode (scheme ++ rest) = scheme ++ Percent.decode rest := by
  have hascii : scheme.all Percent.isAscii = true := by decide
  exact Percent.decode_append_of_ascii (List.all_eq_true.mp hascii) (by decide) rest

theorem documentPath_scheme_append (rest : Text) :
    documentPath (scheme ++ rest) = Path.ofText (Percent.decode rest) := by
  rw [documentPath, decode_scheme_append, withoutStart_append]

theorem folderPath_scheme_append (rest : Text) :
    folderPath (scheme ++ rest) = Path.ofText (Percent.decode rest) := by
  rw [folderPath, withoutStart_append]

theorem documentPath_of_no_scheme {uri : Text} (h : ¬ scheme <+: Percent.decode uri) :
    documentPath uri = Path.ofText (Percent.decode uri) := by
  rw [documentPath, withoutStart_eq_self h]

theorem folderPath_of_no_scheme {uri : Text} (h : ¬ scheme <+: uri) :
    folderPath uri = Path.ofText (Percent.decode uri) := by
  rw [folderPath, withoutStart_eq_self h]

theorem ofText_scheme_append (rest : Text) :
    Path.ofText (scheme ++ rest) = ⟨.here, "file:" :: Path.namesOf rest⟩ := by
  have hname : Path.namesOf "file:" = ["file:".toList] :=
    Path.namesOf_name (by decide) (by decide)
  have hnames : Path.namesOf (scheme ++ rest) = "file:".toList :: Path.namesOf rest := by
    show Path.namesOf ("file:".toList ++ '/' :: '/' :: rest) = _
    rw [Path.namesOf_append_slash, Path.namesOf_slash, hname, List.singleton_append]
  rw [Path.ofText, hnames]
  rfl

/-- Of a scheme that is hidden one reading keeps the name. -/
theorem folderPath_of_hidesScheme {uri : Text} (h : HidesScheme uri) :
    folderPath uri = ⟨.here, "file:" :: (documentPath uri).names⟩ := by
  obtain ⟨rest, hrest⟩ := h.2
  rw [folderPath_of_no_scheme h.1, documentPath, ← hrest, withoutStart_append,
    ofText_scheme_append]
  rfl

theorem documentPath_eq_folderPath_iff {uri : Text} :
    documentPath uri = folderPath uri ↔ ¬ HidesScheme uri := by
  constructor
  · intro heq h
    -- the one path has one name more than the other
    have hnames := congrArg (fun p => p.names.length) (folderPath_of_hidesScheme h)
    simp [heq] at hnames
  · intro h
    by_cases hbegins : scheme <+: uri
    · obtain ⟨rest, rfl⟩ := hbegins
      rw [documentPath_scheme_append, folderPath_scheme_append]
    · rw [documentPath_of_no_scheme fun hdecoded => h ⟨hbegins, hdecoded⟩,
        folderPath_of_no_scheme hbegins]

end Uri

namespace Folders

variable {fs : FileSystem} {folders : Value} {path : Path}

/-- The workspace of some folders is looked for at a path: it is there, or the fault names the
path. -/
def LooksAt (fs : FileSystem) (folders : Value) (path : Path) : Prop :=
  root fs folders = .ok path ∨
    ∃ cause text, root fs folders = .error (.inaccessible path cause text)

theorem folderPath_of_looksAt {offered : Folder} (hread : read folders = .ok offered)
    (h : LooksAt fs folders path) : path = Uri.folderPath offered.uri := by
  rcases h with h | ⟨cause, text, h⟩
  all_goals
    simp only [root, hread] at h
    split at h
    all_goals cases h
    rfl

end Folders

theorem Path.toText_ofText_eq_iff {text : Text} {p : Path} (h : p.WellFormed) :
    (Path.ofText text).toText = p.toText ↔ Path.ofText text = p := by
  refine ⟨fun heq => ?_, fun heq => by rw [heq]⟩
  rw [← Path.ofText_toText (Path.wellFormed_ofText text), heq, Path.ofText_toText h]

/-- The two readings of a URI give one path, except for a URI that hides the scheme, and of that
they never do. Behind a scheme in plain sight both decode what is left, whatever escapes there are.
So a document is looked for where the workspace with its URI is looked for, with that exception. -/
theorem readings_agree_iff (uri : Text) :
    (Uri.documentPath uri = Uri.folderPath uri ↔ ¬ Uri.HidesScheme uri) ∧
    (∀ rest, uri = Uri.scheme ++ rest →
      Uri.documentPath uri = Path.ofText (Percent.decode rest) ∧
      Uri.folderPath uri = Path.ofText (Percent.decode rest)) ∧
    ∀ (fs : FileSystem) (folders : Value) (offered : Folders.Folder) (root : Path),
      Folders.read folders = .ok offered → offered.uri = uri → Folders.LooksAt fs folders root →
      (Uri.documentPath uri = root ↔ ¬ Uri.HidesScheme uri) ∧
      (∀ document, Document.readLines fs uri = .error (.unreadable document) →
        (document.path = root.toText ↔ ¬ Uri.HidesScheme uri)) ∧
      (∀ lines, ¬ Uri.HidesScheme uri → (Document.readLines fs uri = .ok lines ↔
        ∃ content, fs.read root.toText = .ok content ∧ Document.linesOf content = .ok lines)) := by
  refine ⟨Uri.documentPath_eq_folderPath_iff, ?_, ?_⟩
  · rintro rest rfl
    exact ⟨Uri.documentPath_scheme_append rest, Uri.folderPath_scheme_append rest⟩
  · rintro fs folders offered root hread rfl hlooks
    obtain rfl := Folders.folderPath_of_looksAt hread hlooks
    refine ⟨Uri.documentPath_eq_folderPath_iff, fun document hdocument => ?_,
      fun lines hplain => ?_⟩
    · rw [Document.path_of_readLines hdocument, ← Uri.documentPath_eq_folderPath_iff]
      exact Path.toText_ofText_eq_iff (Path.wellFormed_ofText _)
    · rw [← Uri.documentPath_eq_folderPath_iff.mpr hplain]
      exact Document.readLines_eq_ok_iff

/-- A scheme with one escape, and escapes behind a scheme: cut off, doubled and no UTF-8. -/
example : Uri.documentPath "f%69le:///w" = Path.ofText "/w" ∧
    Uri.folderPath "f%69le:///w" = Path.ofText "file:/w" ∧
    Uri.documentPath "file:///%2541%FF%4" = Uri.folderPath "file:///%2541%FF%4" := by
  decide +kernel

end StepLocator
