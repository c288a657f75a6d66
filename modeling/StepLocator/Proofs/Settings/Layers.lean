import StepLocator.Proofs.Settings.Configuration
import StepLocator.Settings.Layered

/-!
The layers of the settings. Each setting is the one that a caller gives, or else the one in the
table of the configuration file, or else the standard one, and no other entry counts.
-/
namespace StepLocator

namespace Entries

theorem find?_eq_none_of_notMem {key : Text} {entries : Entries}
    (h : key ∉ entries.map Prod.fst) : entries.find? key = none := by
  induction entries with
  | nil => rfl
  | cons e rest ih =>
    obtain ⟨k, v⟩ := e
    simp only [List.map_cons, List.mem_cons, not_or] at h
    rw [find?, if_neg (Ne.symm h.1), ih h.2]

theorem find?_reverse_filter (choose : Value → Bool) {entries : Entries}
    (h : (entries.map Prod.fst).Nodup) (key : Text) :
    Entries.find? key (entries.filter fun (_, v) => choose v).reverse =
      (entries.find? key).filter choose := by
  induction entries with
  | nil => rfl
  | cons e rest ih =>
    obtain ⟨k, v⟩ := e
    rw [List.map_cons, List.nodup_cons] at h
    have hrest := ih h.2
    by_cases hkey : k = key
    · subst hkey
      rw [find?_eq_none_of_notMem h.1] at hrest
      cases hv : choose v <;> simp [hv, find?_append, hrest, find?, Option.filter]
    · cases hv : choose v <;> simp [hv, find?_append, hrest, find?, hkey]

end Entries

namespace Shape

variable {α β : Type}

theorem Checked.under_eq_ok_iff {step : Step} {x : Checked α} {a : α} :
    x.under step = .ok a ↔ x = .ok a := by
  cases x with
  | error findings => exact iff_of_false (by rintro ⟨⟩) (by rintro ⟨⟩)
  | ok b => exact Iff.rfl

theorem Checked.both_eq_ok_iff {x : Checked α} {y : Checked β} {a : α} {b : β} :
    x.both y = .ok (a, b) ↔ x = .ok a ∧ y = .ok b := by
  cases x <;> cases y <;> simp [Checked.both]

/-- What comes of a field by its entry, if there is one. -/
def Reads (read : Value → Checked α) (standard : α) (entry : Option Value) (a : α) : Prop :=
  match entry with
  | some v => read v = .ok a
  | none => a = standard

theorem Reads.of_mem {γ : Type} {read : Value → Checked α} {standard x : α} {front : Option γ}
    {value : γ → Value} {entry : Option Value} {a : γ}
    (h : Reads read standard ((front.map value).or entry) x) (ha : a ∈ front) :
    read (value a) = .ok x := by
  rw [Option.mem_def.mp ha] at h
  exact h

theorem fieldOr_eq_ok_iff {name : Text} {read : Value → Checked α} {standard a : α}
    {entries : Entries} :
    fieldOr name read standard entries = .ok a ↔ Reads read standard (entries.find? name) a := by
  unfold fieldOr Reads
  cases entries.find? name with
  | none => simp [eq_comm]
  | some v => exact Checked.under_eq_ok_iff

theorem fieldOr_congr {name : Text} {read : Value → Checked α} {standard : α}
    {entries others : Entries} (h : entries.find? name = others.find? name) :
    fieldOr name read standard entries = fieldOr name read standard others := by
  rw [fieldOr, fieldOr, h]

theorem eq_of_integerWithin_int {least greatest i j : Int}
    (h : integerWithin least greatest (.int i) = .ok j) : j = i := by
  simp only [integerWithin, integer] at h
  split at h
  · cases h
  · split at h
    · cases h
    · exact (Except.ok.inj h).symm

theorem le_of_integerWithin {least greatest i : Int} {v : Value}
    (h : integerWithin least greatest v = .ok i) : least ≤ i ∧ i ≤ greatest := by
  rw [integerWithin] at h
  split at h
  · cases h
  · split at h
    · cases h
    · split at h
      · cases h
      · cases h
        omega

end Shape

namespace Settings

open Shape StepLocator.Configuration

variable {given : Given} {table other : Entries} {s : Settings}

/-- What a caller gives lies over a table: nothing that is given hides the entry of the table. -/
theorem find?_overlay_given (key : Text) (given : Given) (table : Entries) :
    (overlay given.entries table).find? key =
      ((given.entries.find? key).filter fun v => !v.isNull).or (table.find? key) := by
  have hkeys : (given.entries.map Prod.fst).Nodup := by
    show (["log_level".toList, "log_file".toList, "transport".toList, "host".toList,
      "port".toList] : List Text).Nodup
    decide
  rw [find?_overlay, Entries.find?_reverse_filter (fun v => !v.isNull) hkeys]

theorem find?_overlay_logLevel : (overlay given.entries table).find? "log_level" =
    (given.logLevel.map .text).or (table.find? "log_level") := by
  rw [find?_overlay_given]
  obtain ⟨_ | level, _, _, _, _⟩ := given <;> rfl

theorem find?_overlay_logFile : (overlay given.entries table).find? "log_file" =
    (given.logFile.map fun file => .text file.toText).or (table.find? "log_file") := by
  rw [find?_overlay_given]
  obtain ⟨_, _ | file, _, _, _⟩ := given <;> rfl

theorem find?_overlay_transport : (overlay given.entries table).find? "transport" =
    (given.transport.map fun transport => .text transport.name).or (table.find? "transport") := by
  rw [find?_overlay_given]
  obtain ⟨_, _, _ | transport, _, _⟩ := given <;> rfl

theorem find?_overlay_host : (overlay given.entries table).find? "host" =
    (given.host.map .text).or (table.find? "host") := by
  rw [find?_overlay_given]
  obtain ⟨_, _, _, _ | host, _⟩ := given <;> rfl

theorem find?_overlay_port : (overlay given.entries table).find? "port" =
    (given.port.map .int).or (table.find? "port") := by
  rw [find?_overlay_given]
  obtain ⟨_, _, _, _, _ | port⟩ := given <;> rfl

theorem ofEntries_eq_ok_iff {entries : Entries} : ofEntries entries = .ok s ↔
    Reads text standard.logLevel (entries.find? "log_level") s.logLevel ∧
    Reads textOrNull standard.logFile (entries.find? "log_file") s.logFile ∧
    Reads readTransport standard.transport (entries.find? "transport") s.transport ∧
    Reads text standard.host (entries.find? "host") s.host ∧
    Reads (integerWithin 0 greatestPort) standard.port (entries.find? "port") s.port := by
  simp only [← fieldOr_eq_ok_iff, ← Checked.both_eq_ok_iff, ofEntries]
  generalize (Checked.both _ _ : Checked (Text × Option Text × Transport × Text × Int)) = fields
  cases fields with
  | error findings => simp [Except.map]
  | ok fields =>
    obtain ⟨level, file, transport, host, port⟩ := fields
    obtain ⟨_, _, _, _, _⟩ := s
    simp [Except.map]

/-- Settings whose every part comes from the first of three layers that has it: what a caller gives,
a table, and the standard settings. -/
structure Layered (given : Given) (table : Entries) (s : Settings) : Prop where
  logLevel : Reads text standard.logLevel
    ((given.logLevel.map .text).or (table.find? "log_level")) s.logLevel
  logFile : Reads textOrNull standard.logFile
    ((given.logFile.map fun file => .text file.toText).or (table.find? "log_file")) s.logFile
  transport : Reads readTransport standard.transport
    ((given.transport.map fun transport => .text transport.name).or (table.find? "transport"))
    s.transport
  host : Reads text standard.host ((given.host.map .text).or (table.find? "host")) s.host
  port : Reads (integerWithin 0 greatestPort) standard.port
    ((given.port.map .int).or (table.find? "port")) s.port

structure Given.KeptBy (given : Given) (s : Settings) : Prop where
  logLevel : ∀ level ∈ given.logLevel, s.logLevel = level
  logFile : ∀ file ∈ given.logFile, s.logFile = some file.toText
  transport : ∀ transport ∈ given.transport, s.transport = transport
  host : ∀ host ∈ given.host, s.host = host
  port : ∀ port ∈ given.port, s.port = port

/-- Two tables agree on all that a caller does not give. -/
structure Given.Agree (given : Given) (table other : Entries) : Prop where
  logLevel : given.logLevel = none → table.find? "log_level" = other.find? "log_level"
  logFile : given.logFile = none → table.find? "log_file" = other.find? "log_file"
  transport : given.transport = none → table.find? "transport" = other.find? "transport"
  host : given.host = none → table.find? "host" = other.find? "host"
  port : given.port = none → table.find? "port" = other.find? "port"

theorem ofEntries_overlay_iff :
    ofEntries (overlay given.entries table) = .ok s ↔ Layered given table s := by
  rw [ofEntries_eq_ok_iff, find?_overlay_logLevel, find?_overlay_logFile, find?_overlay_transport,
    find?_overlay_host, find?_overlay_port]
  constructor
  · rintro ⟨level, file, transport, host, port⟩
    exact ⟨level, file, transport, host, port⟩
  · intro h
    exact ⟨h.logLevel, h.logFile, h.transport, h.host, h.port⟩

theorem Layered.keeps (h : Layered given table s) : given.KeptBy s where
  logLevel _ hlevel := (Except.ok.inj (h.logLevel.of_mem hlevel)).symm
  logFile _ hfile := (Except.ok.inj (h.logFile.of_mem hfile)).symm
  transport transport htransport := by
    have hread := h.transport.of_mem htransport
    cases transport <;> exact (Except.ok.inj hread).symm
  host _ hhost := (Except.ok.inj (h.host.of_mem hhost)).symm
  port _ hport := eq_of_integerWithin_int (h.port.of_mem hport)

theorem Layered.port_le (h : Layered given table s) : 0 ≤ s.port ∧ s.port ≤ greatestPort := by
  have hport := h.port
  unfold Reads at hport
  split at hport
  · exact le_of_integerWithin hport
  · rw [hport]
    decide

theorem or_congr_of_none {γ : Type} {front : Option γ} (value : γ → Value)
    {entry entry' : Option Value} (h : front = none → entry = entry') :
    (front.map value).or entry = (front.map value).or entry' := by
  cases front with
  | none => rw [h rfl]
  | some a => rfl

theorem ofEntries_congr (h : given.Agree table other) :
    ofEntries (overlay given.entries table) = ofEntries (overlay given.entries other) := by
  have hlevel := or_congr_of_none .text h.logLevel
  have hfile := or_congr_of_none (fun file => .text file.toText) h.logFile
  have htransport := or_congr_of_none (fun transport => .text transport.name) h.transport
  have hhost := or_congr_of_none .text h.host
  have hport := or_congr_of_none .int h.port
  rw [← find?_overlay_logLevel, ← find?_overlay_logLevel] at hlevel
  rw [← find?_overlay_logFile, ← find?_overlay_logFile] at hfile
  rw [← find?_overlay_transport, ← find?_overlay_transport] at htransport
  rw [← find?_overlay_host, ← find?_overlay_host] at hhost
  rw [← find?_overlay_port, ← find?_overlay_port] at hport
  simp only [ofEntries, fieldOr_congr hlevel, fieldOr_congr hfile, fieldOr_congr htransport,
    fieldOr_congr hhost, fieldOr_congr hport]

theorem accept_eq_ok_iff {entries : Entries} : accept entries = .ok s ↔
    ofEntries entries = .ok s ∧ ∃ level, Log.levelOf s.logLevel = .ok level := by
  cases hread : ofEntries entries with
  | error findings => simp [accept, hread]
  | ok read =>
    cases hlevel : Log.levelOf read.logLevel with
    | error fault =>
      simp only [accept, hread, hlevel, reduceCtorEq, Except.ok.injEq, false_iff, not_and,
        not_exists]
      rintro rfl level h
      cases hlevel.symm.trans h
    | ok level =>
      simp only [accept, hread, hlevel, Except.ok.injEq, iff_self_and]
      rintro rfl
      exact ⟨level, hlevel⟩

theorem accept_ne_configuration (entries : Entries) (fault : Configuration.Fault) :
    accept entries ≠ .error (.configuration fault) := by
  rw [accept]
  split
  · simp
  · split <;> simp

theorem resolve_eq_configuration_iff {fs : FileSystem} {file : Option Path}
    {fault : Configuration.Fault} :
    resolve fs file given = .error (.configuration fault) ↔
      loadServer fs none file = .error fault := by
  rw [resolve]
  cases loadServer fs none file with
  | error other => simp
  | ok table => simp [accept_ne_configuration]

theorem resolve_of_loadServer {fs : FileSystem} {file : Option Path}
    (h : loadServer fs none file = .ok table) :
    resolve fs file given = accept (overlay given.entries table) := by
  rw [resolve, h]

/-- What a caller and a configuration file make up together, in layers. What is wrong in the file
under something that is given never counts. -/
theorem resolve_in_layers (fs : FileSystem) (file : Option Path) (given : Given) :
    (∀ cause path, fs.read (place fs none file).toText = .error (.refused cause path) →
      loadServer fs none file = .ok []) ∧
    (∀ content, fs.read (place fs none file).toText = .ok (Utf8.encode content) →
      (Toml.read (Text.unifyLineEnds content) = .error .malformed →
        loadServer fs none file = .ok []) ∧
      (∀ entries, Toml.read (Text.unifyLineEnds content) = .ok entries →
        loadServer fs none file = .ok (serverTable entries)) ∧
      ∀ fault, loadServer fs none file = .error fault →
        fault = .tooDeep ∨ ∃ digits, fault = .longInteger digits) ∧
    (∀ fault, resolve fs file given = .error (.configuration fault) ↔
      loadServer fs none file = .error fault) ∧
    ∀ table, loadServer fs none file = .ok table →
      (∀ s, resolve fs file given = .ok s ↔
        Layered given table s ∧ ∃ level, Log.levelOf s.logLevel = .ok level) ∧
      (∀ s, resolve fs file given = .ok s →
        given.KeptBy s ∧ 0 ≤ s.port ∧ s.port ≤ greatestPort) ∧
      ∀ (files : FileSystem) (file' : Option Path) (other : Entries),
        loadServer files none file' = .ok other → given.Agree table other →
        resolve fs file given = resolve files file' given := by
  refine ⟨fun _ _ => loadServer_of_refused,
    fun content hcontent => ⟨fun h => ?_, fun _ h => ?_, fun fault => ?_⟩,
    fun _ => resolve_eq_configuration_iff, fun table htable => ?_⟩
  · rw [loadServer_of_text hcontent, h]
  · rw [loadServer_of_text hcontent, h]
  · rw [loadServer_of_text hcontent]
    rcases Toml.read (Text.unifyLineEnds content) with (_ | digits | _) | entries
    all_goals rintro ⟨⟩
    · exact .inr ⟨digits, rfl⟩
    · exact .inl rfl
  have hiff (s : Settings) : resolve fs file given = .ok s ↔
      Layered given table s ∧ ∃ level, Log.levelOf s.logLevel = .ok level := by
    rw [resolve_of_loadServer htable, accept_eq_ok_iff, ofEntries_overlay_iff]
  refine ⟨hiff, fun s hs => ?_, fun files file' other hother hagree => ?_⟩
  · have hlayered := ((hiff s).mp hs).1
    exact ⟨hlayered.keeps, hlayered.port_le⟩
  · rw [resolve_of_loadServer htable, resolve_of_loadServer hother, accept, accept,
      ofEntries_congr hagree]

def withInteger (digits : Nat) : FileSystem :=
  .ofListing (.file "lsp.toml" (Utf8.encode ("x = ".toList ++ List.replicate digits '1')) 0 .empty)

theorem resolve_withInteger {digits : Nat} (h : digitLimit < digits) (given : Given) :
    resolve (withInteger digits) (some (Path.ofText "/lsp.toml")) given =
      .error (.configuration (.longInteger digits)) := by
  have hread : (withInteger digits).read (Path.ofText "/lsp.toml").toText =
    .ok (Utf8.encode ("x = ".toList ++ List.replicate digits '1')) := rfl
  rw [resolve_eq_configuration_iff, loadServer_eq_error_iff]
  exact load_of_ones h hread

theorem configuration_in_the_way :
    resolve (withInteger 4301) (some (Path.ofText "/lsp.toml")) Given.nothing =
      .error (.configuration (.longInteger 4301)) ∧
    accept (overlay Given.nothing.entries []) = .ok standard :=
  ⟨resolve_withInteger (by decide) _, rfl⟩

end Settings
end StepLocator
