import StepLocator.Proofs.Files.Canonical
import StepLocator.Proofs.Settings.Layers
import StepLocator.Proofs.Text.LineEnds

/-!
What a configuration file counts for, whatever it holds. A file that is not there or that cannot be
read counts as an empty table, and so does a text that is no TOML. What is left are octets that are
no text, and two faults for which the text itself has enough digits in a row, or enough brackets and
braces.
-/
namespace StepLocator

namespace Configuration

open Toml (HoldsRun nestingLimit tableWeight isOpening)

variable {fs : FileSystem} {root file : Option Path} {text : Text}

theorem holdsRun_of_unifyLineEnds {count : Nat} (h : HoldsRun count text.unifyLineEnds) :
    HoldsRun count text := by
  obtain ⟨run, hrun, hdigits, hcount⟩ := h
  refine ⟨run, Text.infix_of_unifyLineEnds hrun fun hmem => ?_, hdigits, hcount⟩
  exact absurd (hdigits _ hmem) (by decide)

/-- What a configuration file that holds a text comes to: the table of the document that the text
is, an empty table if it is none, or one of two faults, for which the text has what it takes. -/
inductive CountsFor (text : Text) : Except Fault Entries → Prop
  | document {entries : Entries} (document : Toml.read text.unifyLineEnds = .ok entries) :
    CountsFor text (.ok entries)
  | noDocument (malformed : Toml.read text.unifyLineEnds = .error .malformed) :
    CountsFor text (.ok [])
  | longInteger {count : Nat} (long : digitLimit < count) (run : HoldsRun count text) :
    CountsFor text (.error (.longInteger count))
  | tooDeep (openings : nestingLimit < tableWeight * text.countP isOpening) :
    CountsFor text (.error .tooDeep)

/-- A text in which no integer has too many digits and not enough is opened to be nested too
deeply. -/
structure Modest (text : Text) : Prop where
  digits : ∀ count, HoldsRun count text → count ≤ digitLimit
  openings : tableWeight * text.countP isOpening ≤ nestingLimit

theorem CountsFor.of_modest {x : Except Fault Entries} (h : CountsFor text x)
    (hmodest : Modest text) : ∃ entries, x = .ok entries := by
  cases h with
  | document => exact ⟨_, rfl⟩
  | noDocument => exact ⟨_, rfl⟩
  | longInteger long run => exact absurd (hmodest.digits _ run) (Nat.not_le.mpr long)
  | tooDeep openings => exact absurd hmodest.openings (Nat.not_le.mpr openings)

theorem countsFor_load (h : fs.read (place fs root file).toText = .ok (Utf8.encode text)) :
    CountsFor text (load fs root file) := by
  rw [load_of_text h]
  cases hread : Toml.read text.unifyLineEnds with
  | ok entries => exact .document hread
  | error fault =>
    cases Toml.blames_of_read hread with
    | malformed => exact .noDocument hread
    | longInteger long run => exact .longInteger long (holdsRun_of_unifyLineEnds run)
    | tooDeep openings =>
      rw [Text.countP_unifyLineEnds rfl rfl] at openings
      exact .tooDeep openings

theorem ofContent_ne_nul (content : Bytes) : ofContent content ≠ .error .nulInPath := by
  unfold ofContent
  split
  · nofun
  · split <;> nofun

theorem load_eq_nul_iff :
    load fs root file = .error .nulInPath ↔ '\x00' ∈ (place fs root file).toText := by
  have hread : fs.read (place fs root file).toText = .error .nulInPath ↔
      '\x00' ∈ (place fs root file).toText := FileSystem.read_eq_nul_iff
  rw [← hread, load]
  cases fs.read (place fs root file).toText with
  | error fault => cases fault <;> simp
  | ok content => simp [ofContent_ne_nul]

theorem load_eq_encoding_iff {content : Bytes}
    (h : fs.read (place fs root file).toText = .ok content) :
    (∃ fault, load fs root file = .error (.encoding fault)) ↔
      ¬ ∃ text, content = Utf8.encode text := by
  cases hdecode : Utf8.decode content with
  | ok text =>
    obtain rfl := Utf8.decode_eq_ok_iff.mp hdecode
    refine iff_of_false ?_ fun hnone => hnone ⟨text, rfl⟩
    rintro ⟨fault, hfault⟩
    have hcounts := countsFor_load h
    rw [hfault] at hcounts
    cases hcounts
  | error fault =>
    refine iff_of_true ⟨fault, ?_⟩ ?_
    · simp only [load, h, ofContent, Document.textOf, hdecode, Except.map]
    · rintro ⟨text, rfl⟩
      cases (Utf8.decode_encode text).symm.trans hdecode

/-- For every place of a configuration file and whatever the file holds, a table is read of it. It
is that of the document in the file, and an empty one where there is no file to read or no document
in it. The exceptions are octets that are no text, and texts with an integer of too many digits or
with values that are nested too deeply; none of them is idle. Neither the settings of the server nor
those of a caller fail for anything else in the file. -/
theorem load_outcome (fs : FileSystem) (root file : Option Path) :
    (load fs root file = .error .nulInPath ↔ '\x00' ∈ (place fs root file).toText) ∧
    (∀ cause path, fs.read (place fs root file).toText = .error (.refused cause path) →
      load fs root file = .ok []) ∧
    (∀ content, fs.read (place fs root file).toText = .ok content →
      ((∃ fault, load fs root file = .error (.encoding fault)) ↔
        ¬ ∃ text, content = Utf8.encode text) ∧
      ∀ text, content = Utf8.encode text →
        CountsFor text (load fs root file) ∧
        (Modest text → ∃ entries, load fs root file = .ok entries)) ∧
    (∀ count, digitLimit < count → fs.read (place fs root file).toText =
      .ok (Utf8.encode ("x = ".toList ++ List.replicate count '1')) →
      load fs root file = .error (.longInteger count)) ∧
    (∀ count, nestingLimit < Toml.listWeight * count → fs.read (place fs root file).toText =
      .ok (Utf8.encode ("x = ".toList ++ List.replicate count '[')) →
      load fs root file = .error .tooDeep) ∧
    (∀ fault, loadServer fs root file = .error fault ↔ load fs root file = .error fault) ∧
    ∀ given fault, Settings.resolve fs file given = .error (.configuration fault) ↔
      load fs none file = .error fault := by
  refine ⟨load_eq_nul_iff, fun _ _ => load_of_refused, fun content hcontent => ⟨?_, ?_⟩,
    fun _ => load_of_ones, fun _ => load_of_openings, fun _ => loadServer_eq_error_iff,
    fun given fault => ?_⟩
  · exact load_eq_encoding_iff hcontent
  · rintro text rfl
    have hcounts := countsFor_load hcontent
    exact ⟨hcounts, hcounts.of_modest⟩
  · rw [Settings.resolve_eq_configuration_iff, loadServer_eq_error_iff]

def withOctet (octet : UInt8) : FileSystem := .ofListing (.file "lsp.toml" [octet] 0 .empty)

/-- An octet that begins no character is in the way of the table, of the settings of the server and
of those of a caller. -/
theorem octet_in_the_way :
    let fs := withOctet 0xFF
    let file := some (Path.ofText "/lsp.toml")
    '\x00' ∉ (place fs none file).toText ∧
    fs.read (place fs none file).toText = .ok [0xFF] ∧
    load fs none file = .error (.encoding ⟨[0xFF], 0, .startByte⟩) ∧
    loadServer fs none file = .error (.encoding ⟨[0xFF], 0, .startByte⟩) ∧
    Settings.resolve fs file .nothing =
      .error (.configuration (.encoding ⟨[0xFF], 0, .startByte⟩)) :=
  ⟨by decide, rfl, rfl, rfl, rfl⟩

end Configuration
end StepLocator
