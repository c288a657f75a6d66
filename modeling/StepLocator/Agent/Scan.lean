import StepLocator.Agent.Snapshot
import StepLocator.Files.Access

/-!
Scanning a directory tree for the files of an agent. The scan meets one thing after the other:
a file that counts with the time of its change, a file that counts but cannot be examined, a
directory that cannot be listed, and a directory that lies too deep to be entered. The files of a
directory come before its subdirectories; links to directories are not followed.
-/
namespace StepLocator

/-- The agents: one over the configuration, one over the step registry. -/
inductive AgentKind
  | config
  | registry
  deriving DecidableEq, Repr

namespace AgentKind

def name : AgentKind → Text
  | .config => "config"
  | .registry => "registry"

def registryEndings : List Text :=
  ["-ref.yaml", "-chain.yaml", "-workflow.yaml", "-commands.sh"]

/-- Whether a file counts for an agent: for the configuration by its extension, for the registry
by the ending of its name. -/
def accepts (kind : AgentKind) (path : Path) : Bool :=
  match kind with
  | .config => path.suffix == ".yaml".toList
  | .registry => registryEndings.any fun ending => Text.endsWith path.name ending

/-- Why no agent goes by a name: the common form of both agents has no rule for its files. -/
inductive Fault
  | noRule
  deriving DecidableEq, Repr

def ofName (name : Text) : Except Fault AgentKind :=
  if name = AgentKind.config.name then .ok .config
  else if name = AgentKind.registry.name then .ok .registry
  else .error .noRule

def Fault.message : Fault → Text
  | .noRule => "Can\x27t instantiate abstract class DirectoryAgent with abstract method accepts"

end AgentKind

namespace Scan

inductive Event
  | file (path : Path) (stamp : Int)
  | unread (path : Path) (fault : Files.Fault)
  | unlisted (fault : Files.Fault)
  | tooDeep (directory : Text)
  deriving DecidableEq, Repr

def Event.fault? : Event → Option Files.Fault
  | .file _ _ | .tooDeep _ => none
  | .unread _ fault => some fault
  | .unlisted fault => some fault

/-- The most directories that a scan is in at once, one within the other. -/
def nestingLimit : Nat := 986

def entryText (directory name : Text) : Text :=
  if directory.getLast? = some '/' then directory ++ name else directory ++ '/' :: name

/-- Whether an entry leads to a directory, links followed; one that leads nowhere does not. -/
def leadsToDirectory (fs : FileSystem) (text : Text) : Bool :=
  match fs.entry text with
  | .ok entry => entry.isDirectory
  | .error _ => false

def examine (fs : FileSystem) (kind : AgentKind) (directory name : Text) : List Event :=
  let path := (Path.ofText directory).child name
  if kind.accepts path then
    match fs.stamp path.toText with
    | .ok stamp => [.file path stamp]
    | .error fault => [.unread path fault]
  else []

def files (fs : FileSystem) (kind : AgentKind) (directory : Text) : Listing → List Event
  | .empty => []
  | .file name _ _ rest => examine fs kind directory name ++ files fs kind directory rest
  | .link name _ rest =>
    (if leadsToDirectory fs (entryText directory name) then []
      else examine fs kind directory name) ++ files fs kind directory rest
  | .directory _ _ rest => files fs kind directory rest

/-- The subdirectories of a directory, each with all that is below it, down to so many levels. -/
def below (fs : FileSystem) (kind : AgentKind) (levels : Nat) (directory : Text) :
    Listing → List Event
  | .empty => []
  | .file _ _ _ rest => below fs kind levels directory rest
  | .link _ _ rest => below fs kind levels directory rest
  | .directory name inner rest =>
    let text := entryText directory name
    (match levels with
      | 0 => [.tooDeep text]
      | levels + 1 =>
        match fs.listingFault? text with
        | some fault => [.unlisted fault]
        | none => files fs kind text inner ++ below fs kind levels text inner) ++
      below fs kind levels directory rest

/-- A directory with all that is below it, or the directory alone, down to so many levels. -/
def tree (fs : FileSystem) (kind : AgentKind) (recursive : Bool) (levels : Nat)
    (directory : Text) (listing : Listing) : List Event :=
  match levels with
  | 0 => [.tooDeep directory]
  | levels + 1 =>
    match fs.listingFault? directory with
    | some fault => [.unlisted fault]
    | none =>
      files fs kind directory listing ++
        if recursive then below fs kind levels directory listing else []

/-- All that a scan from a root meets; nothing if the root is not a directory. That the root
cannot be examined at all is a failure of the scan; a directory that lies too deep is one of those
things, and the scan fails when it comes to it. -/
def events (fs : FileSystem) (kind : AgentKind) (recursive : Bool) (root : Path) :
    Except Files.Fault (List Event) := do
  if ← fs.isDirectory root.toText then
    match ← fs.entry root.toText with
    | .directory listing => return tree fs kind recursive nestingLimit root.toText listing
    | _ => return []
  else return []

def snapshotOf (events : List Event) : Snapshot :=
  events.foldl (fun snapshot event =>
    match event with
    | .file path stamp => snapshot.insert path stamp
    | _ => snapshot) []

variable {fs : FileSystem} {kind : AgentKind} {recursive : Bool} {levels : Nat}
  {directory name : Text} {listing inner rest : Listing}

theorem tree_of_refused {fault : Files.Fault} (h : fs.listingFault? directory = some fault) :
    tree fs kind recursive (levels + 1) directory listing = [.unlisted fault] := by
  rw [tree, h]

theorem tree_of_listed (h : fs.listingFault? directory = none) :
    tree fs kind recursive (levels + 1) directory listing = files fs kind directory listing ++
      if recursive then below fs kind levels directory listing else [] := by
  rw [tree, h]

theorem below_directory : below fs kind levels directory (.directory name inner rest) =
    tree fs kind true levels (entryText directory name) inner ++
      below fs kind levels directory rest := by
  cases levels <;> rfl

end Scan
end StepLocator
