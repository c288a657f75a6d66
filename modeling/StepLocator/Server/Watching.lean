import StepLocator.Server.Answer

/-!
Watching files. A client that announces dynamic registration is asked to report changes below the
two directories of the workspace.
-/
namespace StepLocator
namespace Server
namespace Watching

def patterns : List Text := ["**/ci-operator/config/**/*.yaml", "**/ci-operator/step-registry/**/*"]

def registration : Value :=
  object [("registrations", .list [object [
    ("id", .text "ci-operator-lsp.watched-files"),
    ("method", .text "workspace/didChangeWatchedFiles"),
    ("registerOptions", object [("watchers",
      .list (patterns.map fun pattern => object [("globPattern", .text pattern)]))])]])]

structure Names where
  workspace : Text
  watching : Text
  registration : Text
  deriving DecidableEq, Repr

def messageNames : Names := ⟨"workspace", "didChangeWatchedFiles", "dynamicRegistration"⟩

def decodedNames : Names := ⟨"workspace", "did_change_watched_files", "dynamic_registration"⟩

/-- Whether the capabilities of a client announce dynamic registration. A table, even an empty one,
counts as an announcement. -/
def announced (names : Names) (capabilities : Value) : Bool :=
  let found := do
    let workspace ← capabilities.get? names.workspace
    let watching ← workspace.get? names.watching
    watching.get? names.registration
  match found with
  | none => false
  | some (.table _) => true
  | some v => !v.isVoid

inductive Outcome
  | accepted
  | cancelled
  | rejected (reason : Text)
  deriving DecidableEq, Repr

def Outcome.record : Outcome → Log.Record
  | .accepted =>
    Log.record Log.info "server"
      ("registered file watchers " ++ List.intercalate ", ".toList patterns)
  | .cancelled => Log.record Log.warning "server" "file watcher registration was cancelled"
  | .rejected reason =>
    Log.record Log.warning "server" ("client rejected file watcher registration: " ++ reason)

end Watching
end Server
end StepLocator
