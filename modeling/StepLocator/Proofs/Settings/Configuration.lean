import StepLocator.Proofs.Text.Utf8
import StepLocator.Proofs.Toml.Faults
import StepLocator.Settings.Configuration

/-!
What a configuration file counts for. A file that cannot be read or holds no TOML is an empty one,
but an integer with too many digits is not forgiven, nor are values that are nested too deeply.
-/
namespace StepLocator

theorem Text.unifyLineEnds_of_notMem {t : Text} (h : '\r' ∉ t) : t.unifyLineEnds = t := by
  induction t with
  | nil => rfl
  | cons c rest ih =>
    rw [List.mem_cons, not_or] at h
    rw [unifyLineEnds, ih h.2]
    · rintro _ rfl
      exact absurd rfl h.1
    · rintro rfl
      exact absurd rfl h.1

namespace Configuration

variable {fs : FileSystem} {root file : Option Path}

theorem load_of_refused {cause : Files.Cause} {path : Text}
    (h : fs.read (place fs root file).toText = .error (.refused cause path)) :
    load fs root file = .ok [] := by
  rw [load, h]

/-- In a file that holds a text the table is that of the document. A text that is no TOML counts as
an empty table, but two faults remain. -/
theorem load_of_text {text : Text}
    (h : fs.read (place fs root file).toText = .ok (Utf8.encode text)) :
    load fs root file =
      match Toml.read (Text.unifyLineEnds text) with
      | .ok entries => .ok entries
      | .error .malformed => .ok []
      | .error (.longInteger digits) => .error (.longInteger digits)
      | .error .tooDeep => .error .tooDeep := by
  have htext : Document.textOf (Utf8.encode text) = .ok (Text.unifyLineEnds text) := by
    rw [Document.textOf, Utf8.decode_encode, Except.map]
  rcases hread : Toml.read (Text.unifyLineEnds text) with (_ | digits | _) | entries
  all_goals simp only [load, h, ofContent, htext, hread]

theorem unifyLineEnds_entry {c : Char} (hc : '\r' ≠ c) (count : Nat) :
    Text.unifyLineEnds ("x = ".toList ++ List.replicate count c) =
      "x = ".toList ++ List.replicate count c :=
  Text.unifyLineEnds_of_notMem (by simp [List.mem_replicate, hc])

theorem load_of_ones {count : Nat} (hcount : digitLimit < count)
    (h : fs.read (place fs root file).toText =
      .ok (Utf8.encode ("x = ".toList ++ List.replicate count '1'))) :
    load fs root file = .error (.longInteger count) := by
  obtain ⟨n, rfl⟩ : ∃ n, count = n + 1 := ⟨count - 1, by omega⟩
  have hones : ∀ c ∈ '1' :: List.replicate n '1', Digits.isAscii c = true :=
    fun c hc => List.eq_of_mem_replicate (List.replicate_succ ▸ hc) ▸ by decide
  rw [load_of_text h, unifyLineEnds_entry (by decide), List.replicate_succ,
    Toml.read_of_longInteger (by decide) hones (by simpa using hcount), List.length_cons,
    List.length_replicate]

theorem load_of_openings {count : Nat} (hcount : Toml.nestingLimit < Toml.listWeight * count)
    (h : fs.read (place fs root file).toText =
      .ok (Utf8.encode ("x = ".toList ++ List.replicate count '['))) :
    load fs root file = .error .tooDeep := by
  have hread := Toml.read_of_openings hcount []
  rw [List.append_nil] at hread
  rw [load_of_text h, unifyLineEnds_entry (by decide), hread]

theorem loadServer_eq_error_iff {fault : Fault} :
    loadServer fs root file = .error fault ↔ load fs root file = .error fault := by
  rw [loadServer]
  cases load fs root file with
  | error other => exact Iff.rfl
  | ok entries => exact iff_of_false nofun nofun

theorem loadServer_of_refused {cause : Files.Cause} {path : Text}
    (h : fs.read (place fs root file).toText = .error (.refused cause path)) :
    loadServer fs root file = .ok [] := by
  rw [loadServer, load_of_refused h]
  rfl

theorem loadServer_of_text {text : Text}
    (h : fs.read (place fs root file).toText = .ok (Utf8.encode text)) :
    loadServer fs root file =
      match Toml.read (Text.unifyLineEnds text) with
      | .ok entries => .ok (serverTable entries)
      | .error .malformed => .ok []
      | .error (.longInteger digits) => .error (.longInteger digits)
      | .error .tooDeep => .error .tooDeep := by
  rw [loadServer, load_of_text h]
  rcases Toml.read (Text.unifyLineEnds text) with (_ | _ | _) | _ <;> rfl

end Configuration
end StepLocator
