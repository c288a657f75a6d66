import StepLocator.Files.Access
import StepLocator.Nesting

/-!
Canonical paths: the absolute path without links. The names of a path are followed one by one, and
the path that they spell is what counts: a link is known by the path under which it is met, so that
one link met under two paths is followed twice. Names that lead nowhere are taken as they are, so a
canonical path exists for what does not; only a circle of links has none.
-/
namespace StepLocator
namespace Files

/-- The links met so far, each by the path under which it was met, with the path that it leads to;
none while a link is being followed. -/
abbrev Followed := List (Path × Option Path)

/-- A path reached, whether all links on the way could be followed, and the links met. -/
structure Reached where
  path : Path
  complete : Bool
  followed : Followed

inductive CanonicalFault
  | loop (path : Text)
  | nulInPath
  | tooDeep
  deriving DecidableEq, Repr

def CanonicalFault.message : CanonicalFault → Text
  | .loop path => "Symlink loop from " ++ Text.quoted path
  | .nulInPath => nulMessage
  | .tooDeep => Nesting.message

/-- The most links that are followed one within the other. -/
def nestingLimit : Nat := 985

def bare (absolute : Bool) : Path := ⟨if absolute then .root else .here, []⟩

/-- A path with the segments behind it that are left of another one. A rest that begins with a slash
stands for itself. -/
def withRest (path : Path) (rest : List Text) : Path :=
  (Path.ofText (Path.joinNames rest)).seenFrom path

/-- What the link at a path holds, if there is one. What cannot be looked at is no link. -/
def linkAt? (fs : FileSystem) (path : Path) : Except CanonicalFault (Option Text) :=
  match fs.find .itself path.toText with
  | .ok (_, .link target) => .ok (some target)
  | .error .nulInPath => .error .nulInPath
  | _ => .ok none

/-- Follow segments from a path, double dots by the text alone. `jump` follows what a link holds. A
link that is met again while it is being followed ends the way. -/
def chase (fs : FileSystem) (jump : Path → List Text → Followed → Except CanonicalFault Reached) :
    Path → List Text → Followed → Except CanonicalFault Reached
  | path, [], followed => .ok ⟨path, true, followed⟩
  | path, segment :: rest, followed =>
    let next := path.child segment
    if ¬ Path.isName segment then chase fs jump path rest followed
    else if segment = Path.parentName then chase fs jump next.normalize rest followed
    else do
      match ← linkAt? fs next, followed.lookup next with
      | none, _ => chase fs jump next rest followed
      | some _, some (some known) => chase fs jump known rest followed
      | some _, some none => return ⟨withRest next rest, false, followed⟩
      | some target, none =>
        let start := if target.head? = some '/' then bare true else path
        let reached ← jump start (target.splitOn '/') ((next, none) :: followed)
        if reached.complete then
          chase fs jump reached.path rest ((next, some reached.path) :: reached.followed)
        else return { reached with path := withRest reached.path rest }

def chaseLinks (fs : FileSystem) :
    Nat → Path → List Text → Followed → Except CanonicalFault Reached
  | 0 => chase fs fun _ _ _ => .error .tooDeep
  | depth + 1 => chase fs (chaseLinks fs depth)

end Files

open Files in
def FileSystem.canonical (fs : FileSystem) (p : Path) : Except CanonicalFault Path := do
  let reached ← chaseLinks fs nestingLimit (bare p.isAbsolute) p.names []
  let result := fs.absolute reached.path
  match fs.entry result.toText with
  | .error (.refused .linkLoop path) => throw (.loop path)
  | .error .nulInPath => throw .nulInPath
  | _ => return result

end StepLocator
