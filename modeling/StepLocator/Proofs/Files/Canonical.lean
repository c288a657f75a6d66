import StepLocator.Files.Canonical

/-!
What can be told of a canonical path. It begins at the root, and it can be looked at: the character
that ends a path is not in it.
-/
namespace StepLocator

namespace FileSystem

open Files

variable {fs : FileSystem} {text : Text}

theorem spot_eq_nul_iff {aim : Aim} : fs.spot aim text = .error .nulInPath ↔ '\x00' ∈ text := by
  unfold spot
  split
  · rename_i h
    simp [h]
  · rename_i h
    split
    · simp [h]
    split
    · simp [h]
    · simp only [h, iff_false]
      split <;> simp

theorem entry_eq_nul_iff : fs.entry text = .error .nulInPath ↔ '\x00' ∈ text := by
  have hspot : fs.spot .behind text = .error .nulInPath ↔ '\x00' ∈ text := spot_eq_nul_iff
  rw [← hspot, entry, find]
  cases fs.spot .behind text with
  | error fault => simp [bind, Except.bind, Except.map]
  | ok spot =>
    cases spot with
    | found location entry => simp [bind, Except.bind, Except.map, pure, Except.pure]
    | free directory name =>
      simp [bind, Except.bind, Except.map, throw, throwThe, MonadExceptOf.throw]

theorem read_eq_nul_iff : fs.read text = .error .nulInPath ↔ '\x00' ∈ text := by
  have hentry : fs.entry text = .error .nulInPath ↔ '\x00' ∈ text := entry_eq_nul_iff
  rw [← hentry, read]
  cases fs.entry text with
  | error fault => simp [bind, Except.bind]
  | ok entry =>
    cases entry
    all_goals simp [bind, Except.bind, pure, Except.pure, throw, throwThe, MonadExceptOf.throw]

theorem isAbsolute_absolute (fs : FileSystem) (p : Path) : (fs.absolute p).isAbsolute = true := by
  unfold absolute Path.seenFrom
  split
  · assumption
  · rfl

/-- A canonical path begins at the root and is no path that cannot be tried. -/
theorem canonical_eq_ok {p q : Path} (h : fs.canonical p = .ok q) :
    q.isAbsolute = true ∧ '\x00' ∉ q.toText := by
  unfold canonical at h
  cases hreached : chaseLinks fs nestingLimit (bare p.isAbsolute) p.names [] with
  | error fault => simp [hreached, bind, Except.bind] at h
  | ok reached =>
    simp only [hreached, bind, Except.bind] at h
    split at h
    · cases h
    · cases h
    · rename_i hentry
      obtain rfl : fs.absolute reached.path = q := by simpa [pure, Except.pure] using h
      refine ⟨isAbsolute_absolute fs _, fun hmem => ?_⟩
      exact hentry (entry_eq_nul_iff.mpr hmem)

end FileSystem

end StepLocator
