import StepLocator.Files.Fault
import StepLocator.Files.Tree
import StepLocator.Path.Basic

/-!
Finding entries by path text. Links are followed, at most forty of them on one way; a link's own
text takes the place of its name, and the names after it come behind. The text of a path counts as
it is: a slash at its end asks for a directory, so no file can be made under such a text.
-/
namespace StepLocator

/-- A file tree with a current directory, the texts of the directories whose listing is refused, for
each file that was opened to add to it where it is now (nowhere once it is taken away), and where
the directories are that may not be searched: no name leads on from them. -/
structure FileSystem where
  root : Listing
  here : List Text
  denied : List Text
  opened : List (Option (List Text))
  locked : List (List Text)

/-- Where a path leads: to an entry, or to a free name in a directory. -/
inductive Spot
  | found (location : List Text) (entry : Entry)
  | free (directory : List Text) (name : Text)

def Spot.location : Spot → List Text
  | .found location _ => location
  | .free directory name => directory ++ [name]

namespace Files

def nameLimit : Nat := 255

/-- The most octets of the text of a path, with the one that ends it. -/
def pathLimit : Nat := 4096

def linkLimit : Nat := 40

/-- What is sought under the last name of a path: the entry itself, what it leads to if it is a
link, or that as the place of a file, which is made if it is missing. -/
inductive Aim
  | itself
  | behind
  | place
  deriving DecidableEq, Repr

/-- The segments of a path text; a slash at its end leaves an empty one behind it. -/
def segments (text : Text) : List Text :=
  (text.splitOn '/').filter (· ≠ []) ++ if text.getLast? = some '/' then [[]] else []

/-- Follow names from a directory. `jump` goes on where a link is met, from the given directory by
the given names. A last name with a slash after it is no place of a file, whatever it stands for;
behind that slash nothing is searched for. -/
def follow (fs : FileSystem) (aim : Aim)
    (jump : List Text → List Text → Except Cause Spot) (directory : List Text) :
    List Text → Except Cause Spot
  | [] =>
    .ok (.found directory (.directory (((fs.root.at? directory).bind Entry.inner?).getD .empty)))
  | name :: rest =>
    if directory ∈ fs.locked ∧ name ≠ [] then .error .denied
    else if ¬ Path.isName name then follow fs aim jump directory rest
    else if name = Path.parentName then follow fs aim jump directory.dropLast rest
    else if aim = .place ∧ rest = [[]] then .error .isDirectory
    else if nameLimit < (Utf8.encode name).length then .error .nameTooLong
    else
      match fs.root.at? (directory ++ [name]) with
      | none => if rest = [] then .ok (.free directory name) else .error .missing
      | some (.file content stamp) =>
        if rest = [] then .ok (.found (directory ++ [name]) (.file content stamp))
        else .error .notDirectory
      | some (.directory _) => follow fs aim jump (directory ++ [name]) rest
      | some (.link target) =>
        if aim = .itself ∧ rest = [] then .ok (.found (directory ++ [name]) (.link target))
        else jump (if target.head? = some '/' then [] else directory) (segments target ++ rest)

def resolve (fs : FileSystem) (aim : Aim) : Nat → List Text → List Text → Except Cause Spot
  | 0, directory, names => follow fs aim (fun _ _ => .error .linkLoop) directory names
  | links + 1, directory, names => follow fs aim (resolve fs aim links) directory names

end Files

namespace FileSystem

open Files

def ofListing (root : Listing) : FileSystem := ⟨root, [], [], [], []⟩

def herePath (fs : FileSystem) : Path := ⟨.root, fs.here⟩

/-- A path seen from the current directory, without double dots. -/
def absolute (fs : FileSystem) (p : Path) : Path := (p.seenFrom fs.herePath).normalize

def spot (fs : FileSystem) (aim : Aim) (text : Text) : Except Fault Spot :=
  if '\x00' ∈ text then .error .nulInPath
  else if text = [] then .error (.refused .missing text)
  else if pathLimit ≤ (Utf8.encode text).length then .error (.refused .nameTooLong text)
  else
    let start := if text.head? = some '/' then [] else fs.here
    match resolve fs aim linkLimit start (segments text) with
    | .ok spot => .ok spot
    | .error cause => .error (.refused cause text)

def find (fs : FileSystem) (aim : Aim) (text : Text) :
    Except Fault (List Text × Entry) := do
  match ← fs.spot aim text with
  | .found location entry => return (location, entry)
  | .free _ _ => throw (.refused .missing text)

def entry (fs : FileSystem) (text : Text) : Except Fault Entry :=
  (fs.find .behind text).map Prod.snd

/-- The causes for which a path simply is no directory. -/
def meansAbsent : Cause → Bool
  | .missing | .notDirectory | .linkLoop => true
  | _ => false

/-- Whether a path leads to a directory. A path that leads nowhere does not; other failures are
reported. -/
def isDirectory (fs : FileSystem) (text : Text) : Except Fault Bool :=
  match fs.entry text with
  | .ok entry => .ok entry.isDirectory
  | .error .nulInPath => .ok false
  | .error (.refused cause path) =>
    if meansAbsent cause then .ok false else .error (.refused cause path)

def read (fs : FileSystem) (text : Text) : Except Fault Bytes := do
  match ← fs.entry text with
  | .file content _ => return content
  | _ => throw (.refused .isDirectory text)

/-- The time of the last change of the file behind a path; directories and links have none here. -/
def stamp (fs : FileSystem) (text : Text) : Except Fault Int := do
  match ← fs.entry text with
  | .file _ stamp => return stamp
  | _ => return 0

/-- Whether a path text leads over a directory that may not be searched. -/
def isBarred (fs : FileSystem) (text : Text) : Bool :=
  match fs.spot .behind text with
  | .error (.refused .denied _) => true
  | _ => false

def listingFault? (fs : FileSystem) (text : Text) : Option Fault :=
  if fs.denied.contains text then some (.refused .denied text)
  else if pathLimit ≤ (Utf8.encode text).length then some (.refused .nameTooLong text)
  else if fs.isBarred text then some (.refused .denied text)
  else none

end FileSystem
end StepLocator
