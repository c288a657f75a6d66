import StepLocator.Proofs.Files.Canonical
import StepLocator.Proofs.Files.Growth
import StepLocator.Proofs.Log.Handlers
import StepLocator.Proofs.Path.Uri

/-!
Handlers and what they write. A call that succeeds leaves a handler that writes at the address asked
for: at the error output, or to the file that its path leads to then. Opening that file takes
nothing from any other, and a record that the handler is given ends there and nowhere else.
-/
namespace StepLocator
namespace Log

open FileSystem

/-- Where a call asks for the records: at the error output, or in the file at a location. -/
inductive Address
  | errors
  | file (location : List Text)
  deriving DecidableEq

/-- What stands since the last call that has succeeded: the level and the address that it has asked
for, the place of the handler that it has made, and the places of the handlers that others have
added since. -/
structure Order where
  level : Int
  address : Address
  handler : Nat
  added : List Nat

/-- The address that a call asks for. The file is the one that its path leads to. -/
def Address.ofFile? (fs : FileSystem) : Option Path → Option Address
  | none => some .errors
  | some path => (fs.fileLocation? (fs.absolute path).toText).map .file

namespace Order

/-- What stands after a call that has succeeded. -/
def ofCall? (fs : FileSystem) (level : Text) (file : Option Path) (handler : Nat) :
    Option Order := do
  let level ← (levelOf level).toOption
  let address ← Address.ofFile? fs file
  return ⟨level, address, handler, []⟩

def add (o : Order) (place : Nat) : Order :=
  if place ∈ o.added then o else { o with added := o.added ++ [place] }

def copies (o : Order) (record : Record) : Text :=
  (List.replicate o.added.length record.bareLine).flatten

end Order

/-- A handler writes at an address: at the error output, or to the open file at a location. -/
def Sink.Serves (fs : FileSystem) (sink : Sink) : Address → Prop
  | .errors => sink = .errors
  | .file location => ∃ number, sink = .file number ∧
      fs.opened[number]? = some (some location) ∧ fs.root.kind? location = some .file

/-- What outputs have taken in: a line at one address and copies for others, and nothing else. -/
structure Outputs.Takes (o o' : Outputs) (address : Address) (line copies : Text) : Prop where
  errors : o'.errors = o.errors ++ if address = .errors then line else []
  foreign : o'.foreign = o.foreign ++ copies
  files : ∀ location, o'.files.root.contentAt location =
    o.files.root.contentAt location ++ if address = .file location then Utf8.encode line else []

namespace Router

/-! ### Opening a log file -/

theorem absolute_of_grows {fs fs' : FileSystem} (h : fs.Grows fs') (p : Path) :
    fs'.absolute p = fs.absolute p := by
  rw [absolute, absolute, herePath, herePath, h.here]

theorem head?_absolute (fs : FileSystem) (p : Path) : (fs.absolute p).toText.head? = some '/' := by
  obtain ⟨rest, hrest⟩ := Uri.toText_of_isAbsolute (isAbsolute_absolute fs p)
  rw [hrest]
  rfl

/-- Opening a log file takes nothing away. If it succeeds, the file is kept under its number, and
its path leads to it. -/
theorem openFile_spec (fs : FileSystem) (file : Path) :
    fs.Extends (openFile fs file).1 ∧ ∀ number, (openFile fs file).2 = .ok number →
      ∃ location, (openFile fs file).1.opened[number]? = some (some location) ∧
        (openFile fs file).1.fileLocation? ((openFile fs file).1.absolute file).toText =
          some location := by
  have hmade : fs.Extends (fs.makeDirectories file.parent).files :=
    extends_makeDirectoriesUpTo _ fs file.parent
  simp only [openFile]
  split
  · exact ⟨hmade, nofun⟩
  · split
    · rename_i fs' number hopen
      obtain ⟨hextends, hlocation⟩ := openToAppend_eq_ok (head?_absolute _ file) hopen
      refine ⟨hmade.trans hextends, ?_⟩
      rintro _ ⟨⟩
      rwa [absolute_of_grows hextends.toGrows]
    · exact ⟨hmade, nofun⟩

/-! ### Writing a record -/

theorem foldl_deliver_foreign (record : Record) (handlers : List Handler)
    (h : ∀ handler ∈ handlers, handler.isOwn = false) (o : Outputs) :
    handlers.foldl (deliver record) o =
      { o with
        foreign := o.foreign ++ (List.replicate handlers.length record.bareLine).flatten } := by
  induction handlers generalizing o with
  | nil => simp
  | cons handler rest ih =>
    obtain ⟨sink, closed⟩ := handler
    have hforeign : sink = .foreign := by simpa [Handler.isOwn] using h _ List.mem_cons_self
    subst hforeign
    rw [List.foldl_cons, ih fun other hmem => h other (List.mem_cons_of_mem _ hmem)]
    simp [deliver, List.replicate_succ]

/-! ### Configuring -/

variable {r : Router} {fs fs' : FileSystem} {level : Text} {file : Option Path} {handler : Nat}

theorem extends_configure (r : Router) (fs : FileSystem) (level : Text) (file : Option Path) :
    fs.Extends (r.configure fs level file).files := by
  unfold configure
  split
  · exact Extends.refl fs
  · split
    · exact Extends.refl fs
    · rename_i path
      have hopen := (openFile_spec fs path).1
      split <;> rename_i heq <;> rwa [heq] at hopen

theorem configure_router_of_error {fault : Fault}
    (h : (r.configure fs level file).outcome = .error fault) :
    (r.configure fs level file).router = r := by
  obtain ⟨_, _, hdone, -⟩ | ⟨_, _, _, hdone, -⟩ := configure_cases r fs level file
  · rw [hdone]
  · rw [hdone] at h
    cases h

/-- A call that succeeds leaves a handler that writes at the address that it asks for. -/
theorem configure_of_ok (h : (r.configure fs level file).outcome = .ok handler) :
    let done := r.configure fs level file
    ∃ number sink address, done.router = r.replaceAll number sink ∧
      Order.ofCall? done.files level file handler = some ⟨number, address, handler, []⟩ ∧
      handler = r.handlers.length ∧ sink.Serves done.files address := by
  intro done
  obtain ⟨_, _, hfails, -⟩ | ⟨number, sink, files, hdone, hlevel, hopens⟩ :=
    configure_cases r fs level file
  · rw [hfails] at h
    cases h
  have hhandler : handler = r.handlers.length := by
    rw [hdone] at h
    exact (Except.ok.inj h).symm
  have hcall : ∀ address, Address.ofFile? done.files file = some address →
      Order.ofCall? done.files level file handler = some ⟨number, address, handler, []⟩ := by
    intro address haddress
    rw [Order.ofCall?, hlevel, haddress]
    rfl
  have hrouter : done.router = r.replaceAll number sink := by simp only [done, hdone]
  cases hopens with
  | errors => exact ⟨number, .errors, .errors, hrouter, hcall _ rfl, hhandler, rfl⟩
  | @file path number' hopen =>
    obtain ⟨location, hopened, hlocation⟩ := (openFile_spec fs path).2 number' hopen
    have hfiles : done.files = (openFile fs path).1 := by
      simp only [done, configure, hlevel]
      split <;> rename_i heq <;> rw [heq]
    rw [← hfiles] at hopened hlocation
    exact ⟨number, .file number', .file location, hrouter,
      hcall _ (by rw [Address.ofFile?, hlocation]; rfl), hhandler, number', rfl, hopened,
      kind?_of_fileLocation? hlocation⟩

end Router

theorem Sink.Serves.isOwn {fs : FileSystem} {sink : Sink} {address : Address}
    (h : sink.Serves fs address) (closed : Bool) : (Handler.mk sink closed).isOwn = true := by
  cases address with
  | errors =>
    cases h
    rfl
  | file location =>
    obtain ⟨number, rfl, -⟩ := h
    rfl

theorem Sink.Serves.grow {fs fs' : FileSystem} {sink : Sink} {address : Address}
    (h : sink.Serves fs address) (hgrows : fs.Grows fs') : sink.Serves fs' address := by
  cases address with
  | errors => exact h
  | file location =>
    obtain ⟨number, hsink, hopened, hkind⟩ := h
    exact ⟨number, hsink, hgrows.getElem?_opened hopened, hgrows.kinds _ _ hkind⟩

/-- A handler writes a line at its address and nowhere else. -/
theorem Router.deliver_of_serves {handler : Handler} {o : Outputs} {address : Address}
    (h : handler.sink.Serves o.files address) (record : Record) :
    let o' := deliver record o handler
    o.Takes o' address record.line [] ∧ o.files.Grows o'.files := by
  cases address with
  | errors =>
    have hsink : handler.sink = .errors := h
    simp only [deliver, hsink]
    exact ⟨⟨by simp, by simp, by simp⟩, Grows.refl _⟩
  | file location =>
    obtain ⟨number, hsink, hopened, hkind⟩ := h
    obtain ⟨hgrows, hcontents⟩ := appendTo_of_opened hopened hkind (Utf8.encode record.line)
    simp only [deliver, hsink]
    refine ⟨⟨by simp, by simp, fun other => ?_⟩, hgrows⟩
    rw [hcontents other]
    simp only [Address.file.injEq, eq_comm]

end Log
end StepLocator
