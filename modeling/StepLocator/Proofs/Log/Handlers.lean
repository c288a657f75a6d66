import StepLocator.Log.Router

/-!
The handlers of a router that is configured again and again while other parts of the program add
handlers. What the router takes away it closes if it has made it, so that never more than one of its
own handlers is open.
-/
namespace StepLocator
namespace Log

namespace Handler

def holdsFile (h : Handler) : Bool := h.isFile && !h.closed

/-- A handler when it is not in use: closed if a router has made it, and only then. -/
def retired (h : Handler) : Handler := { h with closed := h.isOwn }

theorem isOwn_of_isFile {h : Handler} (hfile : h.isFile = true) : h.isOwn = true := by
  obtain ⟨sink, closed⟩ := h
  cases sink with
  | errors => cases hfile
  | file number => rfl
  | foreign => cases hfile

end Handler

namespace Router

/-- Another part of the program adds a handler that it has added before. What is there already is
not added twice. -/
def addBack (r : Router) (place : Nat) : Router :=
  if r.handlers[place]?.any (fun h => !h.isOwn) ∧ place ∉ r.active then
    { r with active := r.active ++ [place] }
  else r

inductive Act
  | configure (fs : FileSystem) (level : Text) (file : Option Path)
  | addForeign
  | addBack (place : Nat)

def perform (r : Router) : Act → Router
  | .configure fs level file => (r.configure fs level file).router
  | .addForeign => r.addForeign
  | .addBack place => r.addBack place

def after (r : Router) (acts : List Act) : Router := acts.foldl perform r

/-- Where a new handler writes: to the error output where no file is asked for, and otherwise to the
file that was opened for it. -/
inductive Opens (fs : FileSystem) : Option Path → Sink → Prop
  | errors : Opens fs none .errors
  | file {file : Path} {number : Nat} (h : (openFile fs file).2 = .ok number) :
      Opens fs (some file) (.file number)

/-- A router that has closed each of its own handlers but the one that it has now, and none of
others. -/
structure Tidy (r : Router) : Prop where
  own : ∀ i h, r.handlers[i]? = some h → h.isOwn = true → h.closed = false → i ∈ r.active
  foreign : ∀ h ∈ r.handlers, h.isOwn = false → h.closed = false
  single : r.handlers.countP (fun h => h.isOwn && !h.closed) ≤ 1

variable {r : Router} {fs : FileSystem} {level : Text} {file : Option Path}

/-- All that configuring a router can do: nothing, or a replacement of all handlers. -/
theorem configure_cases (r : Router) (fs : FileSystem) (level : Text) (file : Option Path) :
    (∃ fault files, r.configure fs level file = ⟨.error fault, r, files⟩ ∧
      ((∃ unknown, levelOf level = .error unknown) ∨
        ∃ path ∈ file, ∃ fault, (openFile fs path).2 = .error fault)) ∨
    ∃ number sink files, r.configure fs level file =
        ⟨.ok r.handlers.length, r.replaceAll number sink, files⟩ ∧
      levelOf level = .ok number ∧ Opens fs file sink := by
  cases hlevel : levelOf level with
  | error unknown => exact .inl ⟨_, _, configure_of_levelOf_eq_error hlevel, .inl ⟨_, rfl⟩⟩
  | ok number =>
    cases file with
    | none => exact .inr ⟨_, _, fs, by rw [configure, hlevel], rfl, .errors⟩
    | some path =>
      cases hopen : openFile fs path with
      | mk files opened =>
        cases opened with
        | error fault =>
          have hfails : (openFile fs path).2 = .error fault := by rw [hopen]
          refine .inl ⟨.files fault, files, by simp only [configure, hlevel, hopen], .inr ?_⟩
          exact ⟨path, rfl, fault, hfails⟩
        | ok place =>
          have hopens : (openFile fs path).2 = .ok place := by rw [hopen]
          refine .inr ⟨number, .file place, files, by simp only [configure, hlevel, hopen], rfl, ?_⟩
          exact .file hopens

theorem not_opens_of_error {sink : Sink}
    (h : ∃ path ∈ file, ∃ fault, (openFile fs path).2 = .error fault) : ¬ Opens fs file sink := by
  obtain ⟨path, hpath, fault, hfault⟩ := h
  rintro (_ | hopen)
  · cases hpath
  · cases hpath
    cases hopen.symm.trans hfault

theorem Tidy.releaseAll (ht : r.Tidy) :
    releaseAll r.active r.handlers = r.handlers.map Handler.retired := by
  rw [Router.releaseAll, List.mapIdx_eq_iff]
  intro i
  rw [List.getElem?_map]
  cases hi : r.handlers[i]? with
  | none => rfl
  | some h =>
    rw [Option.map_some, Option.map_some, Option.some_inj]
    obtain ⟨sink, closed⟩ := h
    cases hown : Handler.isOwn ⟨sink, closed⟩ with
    | false =>
      obtain rfl : closed = false := ht.foreign _ (List.mem_of_getElem? hi) hown
      simp [Handler.release, Handler.retired, hown]
    | true =>
      cases closed with
      | false =>
        -- what is open and its own is still there, so that it is taken away now
        rw [if_pos (ht.own i _ hi hown rfl), Handler.release, Handler.retired, hown, Bool.or_true]
      | true => simp [Handler.release, Handler.retired, hown]

/-- Replacing the handlers of a tidy router retires all others and puts the new one behind them. -/
theorem Tidy.replaceAll_eq (ht : r.Tidy) (number : Int) (sink : Sink) :
    r.replaceAll number sink =
      ⟨number, r.handlers.map Handler.retired ++ [⟨sink, false⟩], [r.handlers.length]⟩ := by
  rw [Router.replaceAll, ht.releaseAll]

theorem tidy_bare (level : Int) : (bare level).Tidy where
  own _ _ h := by simp [bare] at h
  foreign _ h := by simp [bare] at h
  single := by simp [bare]

theorem getElem?_concat_eq_some {handlers : List Handler} {new h : Handler} {i : Nat}
    (hi : (handlers ++ [new])[i]? = some h) :
    handlers[i]? = some h ∨ i = handlers.length ∧ h = new := by
  rcases Nat.lt_or_ge i handlers.length with hlt | hle
  · exact .inl (by rwa [List.getElem?_append_left hlt] at hi)
  · rw [List.getElem?_append_right hle, List.getElem?_singleton] at hi
    split at hi
    · exact .inr ⟨by omega, (Option.some.inj hi).symm⟩
    · cases hi

/-- Replacing the handlers keeps a router tidy: of its own only the new one is open. -/
theorem Tidy.replaceAll (ht : r.Tidy) (number : Int) (sink : Sink) :
    (r.replaceAll number sink).Tidy := by
  have hclosed : ∀ h ∈ r.handlers.map Handler.retired, h.closed = h.isOwn := by
    intro h hmem
    obtain ⟨old, -, rfl⟩ := List.mem_map.mp hmem
    rfl
  rw [ht.replaceAll_eq]
  constructor
  case own =>
    intro i h hi hown hopen
    rcases getElem?_concat_eq_some hi with hi | ⟨rfl, -⟩
    · have hretired := (hclosed h (List.mem_of_getElem? hi)).trans hown
      cases hopen.symm.trans hretired
    · simp
  case foreign =>
    intro h hmem hforeign
    rcases List.mem_append.mp hmem with hmem | hmem
    · exact (hclosed h hmem).trans hforeign
    · rw [List.mem_singleton.mp hmem]
  case single =>
    have hold : (r.handlers.map Handler.retired).countP (fun h => h.isOwn && !h.closed) = 0 :=
      List.countP_eq_zero.mpr fun h hmem => by simp [hclosed h hmem]
    rw [List.countP_append, hold, Nat.zero_add]
    exact List.countP_le_length

theorem Tidy.addForeign (ht : r.Tidy) : r.addForeign.Tidy where
  own i h hi hown hopen := by
    rcases getElem?_concat_eq_some hi with hi | ⟨-, rfl⟩
    · exact List.mem_append_left _ (ht.own i h hi hown hopen)
    · cases hown
  foreign h hmem hforeign := by
    rcases List.mem_append.mp hmem with hmem | hmem
    · exact ht.foreign h hmem hforeign
    · rw [List.mem_singleton.mp hmem]
  single := by
    rw [Router.addForeign, List.countP_append]
    exact ht.single

theorem Tidy.addBack (ht : r.Tidy) (place : Nat) : (r.addBack place).Tidy := by
  rw [Router.addBack]
  split
  · exact ⟨fun i h hi hown hopen => List.mem_append_left _ (ht.own i h hi hown hopen), ht.foreign,
      ht.single⟩
  · exact ht

theorem Tidy.perform (ht : r.Tidy) (act : Act) : (r.perform act).Tidy := by
  cases act with
  | configure fs level file =>
    rcases r.configure_cases fs level file with ⟨_, _, h, _⟩ | ⟨number, sink, _, h, _⟩
    · rw [Router.perform, h]
      exact ht
    · rw [Router.perform, h]
      exact ht.replaceAll number sink
  | addForeign => exact ht.addForeign
  | addBack place => exact ht.addBack place

theorem Tidy.after (ht : r.Tidy) (acts : List Act) : (r.after acts).Tidy := by
  induction acts generalizing r with
  | nil => exact ht
  | cons act rest ih => exact ih (ht.perform act)

theorem Tidy.countP_holdsFile (ht : r.Tidy) : r.handlers.countP Handler.holdsFile ≤ 1 := by
  refine Nat.le_trans (List.countP_mono_left fun h _ hholds => ?_) ht.single
  rw [Handler.holdsFile, Bool.and_eq_true] at hholds
  rw [Handler.isOwn_of_isFile hholds.1, hholds.2, Bool.and_self]

/-- The handlers of a router over a run. Each configuration that succeeds leaves one handler, a new
one, closes all earlier ones that the router has made and leaves those of others open. One that
fails changes nothing of the router. -/
theorem handlers_of_run (first : Int) (acts : List Act) :
    let r := (bare first).after acts
    r.handlers.countP Handler.holdsFile ≤ 1 ∧
    (∀ h ∈ r.handlers, h.isOwn = false → h.closed = false) ∧
    ∀ (fs : FileSystem) (level : Text) (file : Option Path),
      let done := r.configure fs level file
      ((∃ fault, done.outcome = .error fault) ↔
        (∃ unknown, levelOf level = .error unknown) ∨
          ∃ path ∈ file, ∃ fault, (openFile fs path).2 = .error fault) ∧
      (∀ fault, done.outcome = .error fault → done.router = r) ∧
      ∀ place, done.outcome = .ok place →
        ∃ number sink, levelOf level = .ok number ∧ Opens fs file sink ∧
          place = r.handlers.length ∧
          done.router = ⟨number, r.handlers.map Handler.retired ++ [⟨sink, false⟩], [place]⟩ ∧
          done.router.activeHandlers = [⟨sink, false⟩] := by
  intro r
  have ht : r.Tidy := (tidy_bare first).after acts
  refine ⟨ht.countP_holdsFile, ht.foreign, fun fs level file => ?_⟩
  rcases r.configure_cases fs level file with
    ⟨fault, files, h, hfails⟩ | ⟨number, sink, files, h, hlevel, hopens⟩
  · rw [h]
    refine ⟨⟨fun _ => hfails, fun _ => ⟨fault, rfl⟩⟩, fun _ _ => rfl, fun place hplace => ?_⟩
    cases hplace
  · rw [h]
    refine ⟨⟨?_, fun hfails => ?_⟩, fun _ hfault => (by cases hfault), fun place hplace => ?_⟩
    · rintro ⟨_, hfault⟩
      cases hfault
    · rcases hfails with ⟨unknown, hunknown⟩ | herror
      · cases hlevel.symm.trans hunknown
      · exact absurd hopens (not_opens_of_error herror)
    · obtain rfl := Except.ok.inj hplace
      exact ⟨number, sink, hlevel, hopens, rfl, ht.replaceAll_eq number sink,
        r.replaceAll_activeHandlers number sink⟩

end Router
end Log
end StepLocator
