import StepLocator.Path.Basic

/-!
Snapshots: the files that an agent knows, each with the time of its last change. A snapshot is kept
in the order of its paths, that is of the names on the way to each file, so equal snapshots are
equal lists.
-/
namespace StepLocator

/-- Files with the times of their last changes, in order. -/
abbrev Snapshot := List (Path × Int)

namespace Snapshot

/-- Whether a path comes before another one or is the same: by where they begin, then by their
names. -/
def le (p q : Path) : Bool :=
  Path.leNames (p.anchor.toText :: p.names) (q.anchor.toText :: q.names)

/-- Enter a file; a file that is known gets the new time. -/
def insert (path : Path) (stamp : Int) : Snapshot → Snapshot
  | [] => [(path, stamp)]
  | (p, s) :: rest =>
    if p = path then (path, stamp) :: rest
    else if le path p then (path, stamp) :: (p, s) :: rest
    else (p, s) :: insert path stamp rest

def files (snapshot : Snapshot) : List Path := snapshot.map Prod.fst

def stamp? (path : Path) : Snapshot → Option Int
  | [] => none
  | (p, s) :: rest => if p = path then some s else stamp? path rest

end Snapshot
end StepLocator
