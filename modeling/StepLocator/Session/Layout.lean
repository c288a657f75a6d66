import StepLocator.Path.Basic

/-!
Where a workspace keeps its configuration and its step registry.
-/
namespace StepLocator

structure Layout where
  root : Path
  configRoot : Path
  registryRoot : Path
  deriving DecidableEq, Repr

namespace Layout

def configNames : List Text := ["ci-operator", "config"]

def registryNames : List Text := ["ci-operator", "step-registry"]

def ofRoot (root : Path) : Layout := ⟨root, root.append configNames, root.append registryNames⟩

@[simp] theorem ofRoot_root (root : Path) : (ofRoot root).root = root := rfl

end Layout
end StepLocator
