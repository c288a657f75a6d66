import StepLocator.Document
import StepLocator.Proofs.Text.LineEnds

/-!
The lines of documents. What is read of a file are its lines as an editor counts them: the pieces of
its text between the ends of its lines. It is read exactly if the file holds the octets of a text,
and the same lines come from the octets that are cut first and then read piece by piece.
-/
namespace StepLocator

theorem FileSystem.read_of_file {fs : FileSystem} {text : Text} {content : Bytes} {stamp : Int}
    (h : fs.entry text = .ok (.file content stamp)) : fs.read text = .ok content := by
  rw [FileSystem.read, h]
  rfl

namespace Document

variable {fs : FileSystem} {uri : Text} {content : Bytes} {stamp : Int}

theorem linesOf_encode (text : Text) :
    linesOf (Utf8.encode text) = .ok (Text.lines (Text.unifyLineEnds text)) := by
  rw [linesOf, textOf, Utf8.decode_encode]
  rfl

/-- Lines are read of a file exactly if it holds the octets of a text with these lines. -/
theorem linesOf_eq_ok_iff {lines : List Text} : linesOf content = .ok lines ↔
    ∃ text, content = Utf8.encode text ∧ CutAtEnds '\r' '\n' text lines := by
  constructor
  · intro h
    cases hdecode : Utf8.decode content with
    | error fault =>
      rw [linesOf, textOf, hdecode] at h
      cases h
    | ok text =>
      obtain rfl := Utf8.decode_eq_ok_iff.mp hdecode
      rw [linesOf_encode, Except.ok.injEq] at h
      exact ⟨text, rfl, Text.cutAtEnds_iff.mpr h.symm⟩
  · rintro ⟨text, rfl, hcut⟩
    rw [linesOf_encode, Text.cutAtEnds_iff.mp hcut]

theorem linesOf_eq_error_iff :
    (∃ fault, linesOf content = .error fault) ↔ ¬ ∃ text, content = Utf8.encode text := by
  cases hlines : linesOf content with
  | ok lines =>
    obtain ⟨text, hcontent, -⟩ := linesOf_eq_ok_iff.mp hlines
    exact iff_of_false nofun fun hnone => hnone ⟨text, hcontent⟩
  | error fault =>
    refine iff_of_true ⟨fault, rfl⟩ ?_
    rintro ⟨text, rfl⟩
    cases (linesOf_encode text).symm.trans hlines

/-- The lines of a file are what is read of the pieces of its octets, one by one. -/
theorem exists_pieces_of_linesOf (content : Bytes) :
    ∃ pieces, (∀ other, CutAtEnds (13 : UInt8) 10 content other ↔ other = pieces) ∧
      ∀ lines, linesOf content = .ok lines ↔ pieces.map Utf8.decode = lines.map .ok := by
  obtain ⟨pieces, hpieces⟩ := CutAtEnds.exists_pieces (13 : UInt8) 10 content
  have hunique (other : List Bytes) : CutAtEnds (13 : UInt8) 10 content other ↔ other = pieces :=
    ⟨fun hother => hother.unique (by decide) hpieces, fun heq => heq ▸ hpieces⟩
  refine ⟨pieces, hunique, fun lines => ?_⟩
  calc
    linesOf content = .ok lines ↔ CutAtEnds (13 : UInt8) 10 content (lines.map Utf8.encode) :=
      linesOf_eq_ok_iff.trans Utf8.cutAtEnds_map_encode_iff.symm
    _ ↔ pieces = lines.map Utf8.encode := (hunique _).trans eq_comm
    _ ↔ pieces.map Utf8.decode = lines.map .ok := Utf8.map_decode_eq_iff.symm

theorem readLines_eq_ok_iff {lines : List Text} : readLines fs uri = .ok lines ↔
    ∃ content, fs.read (Uri.documentPath uri).toText = .ok content ∧
      linesOf content = .ok lines := by
  rw [readLines]
  cases fs.read (Uri.documentPath uri).toText with
  | error fault => cases fault <;> simp
  | ok content => cases hlines : linesOf content <;> simp [hlines]

theorem path_of_readLines {document : Unreadable}
    (h : readLines fs uri = .error (.unreadable document)) :
    document.path = (Uri.documentPath uri).toText := by
  simp only [readLines] at h
  split at h
  · cases h
  · cases h
    rfl
  · split at h
    · cases h
      rfl
    · cases h

theorem readLines_of_file (h : fs.entry (Uri.documentPath uri).toText = .ok (.file content stamp)) :
    readLines fs uri = (linesOf content).mapError fun fault =>
      .unreadable ⟨uri, (Uri.documentPath uri).toText, .encoding fault⟩ := by
  simp only [readLines, FileSystem.read_of_file h]
  cases linesOf content <;> rfl

theorem readLines_of_file_eq_ok_iff {lines : List Text}
    (h : fs.entry (Uri.documentPath uri).toText = .ok (.file content stamp)) :
    readLines fs uri = .ok lines ↔ linesOf content = .ok lines := by
  rw [readLines_of_file h]
  cases linesOf content with
  | ok found => exact (Except.ok.injEq ..).to_iff.trans (Except.ok.injEq ..).to_iff.symm
  | error fault => exact iff_of_false nofun nofun

theorem readLines_of_file_eq_error_iff
    (h : fs.entry (Uri.documentPath uri).toText = .ok (.file content stamp)) :
    (∃ document, readLines fs uri = .error (.unreadable document)) ↔
      ∃ fault, linesOf content = .error fault := by
  rw [readLines_of_file h]
  cases linesOf content with
  | ok found => exact iff_of_false nofun nofun
  | error fault => exact iff_of_true ⟨_, rfl⟩ ⟨fault, rfl⟩

/-- The document behind the URI of a file is read exactly if the file holds a text, and then its
lines are the pieces of the text between the ends of its lines, of which there is one more behind an
end at the very end. It makes no difference whether the text is cut or its octets. -/
theorem lines_of_file (h : fs.entry (Uri.documentPath uri).toText = .ok (.file content stamp)) :
    let found := readLines fs uri
    ((∃ document, found = .error (.unreadable document)) ↔ ¬ ∃ text, content = Utf8.encode text) ∧
    (∀ text, content = Utf8.encode text → ∃ lines, found = .ok lines ∧
      (∀ other, CutAtEnds '\r' '\n' text other ↔ other = lines) ∧
      (∀ line ∈ lines, '\r' ∉ line ∧ '\n' ∉ line) ∧
      (text = [] → lines = [[]]) ∧
      (text.getLast? = some '\r' ∨ text.getLast? = some '\n' → lines.getLast? = some [])) ∧
    ∃ pieces, (∀ other, CutAtEnds (13 : UInt8) 10 content other ↔ other = pieces) ∧
      ∀ lines, found = .ok lines ↔ pieces.map Utf8.decode = lines.map .ok := by
  intro found
  refine ⟨(readLines_of_file_eq_error_iff h).trans linesOf_eq_error_iff, ?_, ?_⟩
  · rintro text rfl
    have hcut := Text.cutAtEnds_lines text
    have hfound : found = .ok _ := (readLines_of_file_eq_ok_iff h).mpr (linesOf_encode text)
    refine ⟨_, hfound, fun other => Text.cutAtEnds_iff, ?_, ?_, ?_⟩
    · exact fun line hline => hcut.holdsNoEnd hline
    · rintro rfl
      rfl
    · rintro (hlast | hlast)
      · exact hcut.getLast?_of_endsLine (by decide) (.inl rfl) hlast
      · exact hcut.getLast?_of_endsLine (by decide) (.inr rfl) hlast
  · obtain ⟨pieces, hpieces, hlines⟩ := exists_pieces_of_linesOf content
    exact ⟨pieces, hpieces, fun lines => (readLines_of_file_eq_ok_iff h).trans (hlines lines)⟩

/-- In the file `/a` the text `é`, two carriage returns, a line feed, `b`, a form feed and a
carriage return are four lines, of which the second and the last are empty. -/
theorem lines_of_mixed_file :
    let content : Bytes := [0xC3, 0xA9, 13, 13, 10, 98, 12, 13]
    let fs : FileSystem := .ofListing (.file "a" content 1 .empty)
    let lines : List Text := [['é'], [], ['b', '\x0c'], []]
    readLines fs "file:///a" = .ok lines ∧
      CutAtEnds (13 : UInt8) 10 content [[0xC3, 0xA9], [], [98, 12], []] ∧
      [[0xC3, 0xA9], [], [98, 12], []].map Utf8.decode = lines.map .ok := by
  intro content fs lines
  have hfile : fs.entry (Uri.documentPath "file:///a").toText = .ok (.file content 1) := rfl
  have hcut : CutAtEnds '\r' '\n' "é\r\r\nb\x0c\r".toList lines :=
    Text.cutAtEnds_iff.mpr (by decide)
  obtain ⟨-, hlines, pieces, hpieces, hread⟩ := lines_of_file hfile
  obtain ⟨found, hfound, hunique, -⟩ := hlines "é\r\r\nb\x0c\r".toList (by decide)
  obtain rfl := (hunique _).mp hcut
  have hoctets : CutAtEnds (13 : UInt8) 10 content [[0xC3, 0xA9], [], [98, 12], []] :=
    Utf8.cutAtEnds_encode hcut
  obtain rfl := (hpieces _).mp hoctets
  exact ⟨hfound, hoctets, (hread _).mp hfound⟩

end Document
end StepLocator
