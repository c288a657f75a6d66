import StepLocator.Files.Access

/-!
Entries behind path texts. A text that can be looked at leads to a file or to a directory, since
links are followed to their end; and a dot in front of a way from the current directory changes
nothing about it.
-/
namespace StepLocator

namespace Files

variable {fs : FileSystem} {aim : Aim} {directory names : List Text} {spot : Spot}
  {jump : List Text → List Text → Except Cause Spot}

/-- What holds of the directories of a tree, of files, of free names, and of links if they are
sought themselves, holds of whatever a search ends at. -/
theorem follow_ends {P : Spot → Prop}
    (h : follow fs aim jump directory names = .ok spot)
    (directories : ∀ location,
      P (.found location (.directory (((fs.root.at? location).bind Entry.inner?).getD .empty))))
    (files : ∀ location content stamp, P (.found location (.file content stamp)))
    (free : ∀ directory name, P (.free directory name))
    (links : aim = .itself → ∀ location target, P (.found location (.link target)))
    (hjump : ∀ directory names, jump directory names = .ok spot → P spot) : P spot := by
  induction names generalizing directory with
  | nil =>
    cases h
    exact directories directory
  | cons name rest ih =>
    rw [follow] at h
    split at h
    · cases h
    split at h
    · exact ih h
    split at h
    · exact ih h
    split at h
    · cases h
    split at h
    · cases h
    split at h
    · split at h
      · cases h
        exact free _ _
      · cases h
    · split at h
      · cases h
        exact files _ _ _
      · cases h
    · exact ih h
    · split at h
      · rename_i haim
        cases h
        exact links haim.1 _ _
      · exact hjump _ _ h

theorem resolve_ends {P : Spot → Prop} {most : Nat}
    (h : resolve fs aim most directory names = .ok spot)
    (directories : ∀ location,
      P (.found location (.directory (((fs.root.at? location).bind Entry.inner?).getD .empty))))
    (files : ∀ location content stamp, P (.found location (.file content stamp)))
    (free : ∀ directory name, P (.free directory name))
    (links : aim = .itself → ∀ location target, P (.found location (.link target))) : P spot := by
  induction most generalizing directory names with
  | zero => exact follow_ends h directories files free links fun _ _ h => by cases h
  | succ most ih => exact follow_ends h directories files free links fun _ _ h => ih h

/-- A search for what is behind a text ends at nothing only where there is nothing, at a name that
is too long, or in a directory that may not be searched. -/
theorem follow_refuses {cause : Cause} (haim : aim ≠ .place)
    (hjump : ∀ directory names, jump directory names = .error cause →
      FileSystem.meansAbsent cause = true ∨ cause = .nameTooLong ∨ cause = .denied)
    (h : follow fs aim jump directory names = .error cause) :
    FileSystem.meansAbsent cause = true ∨ cause = .nameTooLong ∨ cause = .denied := by
  induction names generalizing directory with
  | nil => cases h
  | cons name rest ih =>
    rw [follow] at h
    split at h
    · cases h
      exact .inr (.inr rfl)
    split at h
    · exact ih h
    split at h
    · exact ih h
    split at h
    · exact absurd ‹aim = .place ∧ _›.1 haim
    split at h
    · cases h
      exact .inr (.inl rfl)
    split at h
    · split at h
      · cases h
      · cases h
        exact .inl rfl
    · split at h
      · cases h
      · cases h
        exact .inl rfl
    · exact ih h
    · split at h
      · cases h
      · exact hjump _ _ h

theorem resolve_refuses {most : Nat} {cause : Cause} (haim : aim ≠ .place)
    (h : resolve fs aim most directory names = .error cause) :
    FileSystem.meansAbsent cause = true ∨ cause = .nameTooLong ∨ cause = .denied := by
  induction most generalizing directory names with
  | zero =>
    refine follow_refuses haim (fun _ _ hloop => ?_) h
    cases hloop
    exact .inl rfl
  | succ most ih => exact follow_refuses haim (fun _ _ h => ih h) h

theorem follow_dot (h : follow fs aim jump directory (['.'] :: names) = .ok spot) :
    follow fs aim jump directory names = .ok spot := by
  rw [follow] at h
  split at h
  · cases h
  · rwa [if_pos (by decide)] at h

theorem resolve_dot {links : Nat} (h : resolve fs aim links directory (['.'] :: names) = .ok spot) :
    resolve fs aim links directory names = .ok spot := by
  cases links <;> exact follow_dot h

theorem segments_dot {text : Text} (h : text ≠ []) :
    segments ("./".toList ++ text) = ['.'] :: segments text := by
  have hsplit : ("./".toList ++ text).splitOn '/' = ['.'] :: text.splitOn '/' := by
    show (['.'] ++ '/' :: text).splitOn '/' = _
    rw [List.splitOn_append_cons_self]
    rfl
  have hlast : ("./".toList ++ text).getLast? = text.getLast? := by
    rw [List.getLast?_append, List.getLast?_eq_some_getLast h, Option.some_or]
  rw [segments, segments, hsplit, hlast]
  simp

end Files

namespace FileSystem

open Files

variable {fs : FileSystem} {aim : Aim} {text : Text} {entry : Entry} {spot : Spot}

theorem entry_eq_ok_iff :
    fs.entry text = .ok entry ↔ ∃ location, fs.spot .behind text = .ok (.found location entry) := by
  rw [FileSystem.entry, find]
  cases fs.spot .behind text with
  | error fault => simp [bind, Except.bind, Except.map]
  | ok spot =>
    cases spot with
    | found location other => simp [bind, Except.bind, Except.map, pure, Except.pure]
    | free directory name =>
      simp [bind, Except.bind, Except.map, throw, throwThe, MonadExceptOf.throw]

theorem spot_ends {P : Spot → Prop}
    (h : fs.spot aim text = .ok spot)
    (directories : ∀ location,
      P (.found location (.directory (((fs.root.at? location).bind Entry.inner?).getD .empty))))
    (files : ∀ location content stamp, P (.found location (.file content stamp)))
    (free : ∀ directory name, P (.free directory name))
    (links : aim = .itself → ∀ location target, P (.found location (.link target))) : P spot := by
  unfold FileSystem.spot at h
  split at h
  · cases h
  split at h
  · cases h
  split at h
  · cases h
  simp only at h
  split at h
  · rename_i found hfound
    cases h
    exact resolve_ends hfound directories files free links
  · cases h

theorem directory_or_file (h : fs.entry text = .ok entry) :
    (∃ inner, entry = .directory inner) ∨ ∃ content stamp, entry = .file content stamp := by
  obtain ⟨location, hspot⟩ := entry_eq_ok_iff.mp h
  have hlink : ∀ target, entry ≠ .link target := by
    have hends : ∀ place target, Spot.found location entry ≠ .found place (.link target) :=
      spot_ends hspot (P := fun spot => ∀ location target, spot ≠ .found location (.link target))
        (fun _ _ _ => by simp) (fun _ _ _ _ _ => by simp) (fun _ _ _ _ => by simp)
        fun haim => by cases haim
    rintro target rfl
    exact hends location target rfl
  cases entry with
  | directory inner => exact .inl ⟨inner, rfl⟩
  | file content stamp => exact .inr ⟨content, stamp, rfl⟩
  | link target => exact absurd rfl (hlink target)

theorem spot_eq_error {fault : Fault} (haim : aim ≠ .place) (h : fs.spot aim text = .error fault) :
    fault = .nulInPath ∨ ∃ cause, fault = .refused cause text ∧
      (meansAbsent cause = true ∨ cause = .nameTooLong ∨ cause = .denied) := by
  unfold FileSystem.spot at h
  split at h
  · cases h
    exact .inl rfl
  split at h
  · cases h
    exact .inr ⟨_, rfl, .inl rfl⟩
  split at h
  · cases h
    exact .inr ⟨_, rfl, .inr (.inl rfl)⟩
  simp only at h
  split at h
  · cases h
  · rename_i cause hcause
    cases h
    exact .inr ⟨cause, rfl, resolve_refuses haim hcause⟩

/-- Whether a text leads to a directory can be told unless it leads over a name that is too long or
over a directory that may not be searched. -/
theorem isDirectory_eq_error {fault : Fault} (h : fs.isDirectory text = .error fault) :
    ∃ cause, fault = .refused cause text ∧ (cause = .nameTooLong ∨ cause = .denied) := by
  unfold FileSystem.isDirectory FileSystem.entry find at h
  cases hspot : fs.spot .behind text with
  | ok spot => cases spot <;> simp [hspot, bind, Except.bind, Except.map, pure, Except.pure, throw,
      throwThe, MonadExceptOf.throw, meansAbsent] at h
  | error other =>
    rcases spot_eq_error (by simp) hspot with rfl | ⟨cause, rfl, habsent | hcause⟩
    · simp [hspot, bind, Except.bind, Except.map] at h
    · simp [hspot, bind, Except.bind, Except.map, habsent] at h
    · have hreported : meansAbsent cause = false := by rcases hcause with rfl | rfl <;> rfl
      simp only [hspot, bind, Except.bind, Except.map, hreported, Bool.false_eq_true, if_false,
        Except.error.injEq] at h
      exact ⟨cause, h.symm, hcause⟩

theorem spot_dot (hne : text ≠ []) (hstart : text.head? ≠ some '/')
    (h : fs.spot aim ("./".toList ++ text) = .ok spot) : fs.spot aim text = .ok spot := by
  have hnul : '\x00' ∈ "./".toList ++ text ↔ '\x00' ∈ text := by simp
  have hlong : (Utf8.encode text).length ≤ (Utf8.encode ("./".toList ++ text)).length := by
    rw [Utf8.encode_append, List.length_append]
    omega
  unfold FileSystem.spot at h ⊢
  split at h
  · cases h
  split at h
  · cases h
  split at h
  · cases h
  rw [if_neg (mt hnul.mpr ‹_›), if_neg hne, if_neg (by omega)]
  simp only [segments_dot hne] at h
  simp only [if_neg hstart]
  have hhere : (if ("./".toList ++ text).head? = some '/' then [] else fs.here) = fs.here := rfl
  split at h
  · rename_i found hfound
    rw [hhere] at hfound
    cases h
    rw [resolve_dot hfound]
  · cases h

end FileSystem

end StepLocator
