import StepLocator.Files.Access

/-!
Changes of a file tree, each by the text of a path.
-/
namespace StepLocator
namespace FileSystem

open Files

def modify (fs : FileSystem) (directory : List Text) (change : Listing → Listing) : FileSystem :=
  { fs with root := fs.root.modify change directory }

def putAt (fs : FileSystem) (location : List Text) (entry : Entry) : FileSystem :=
  fs.modify location.dropLast fun l => l.put (location.getLastD []) entry

def makeDirectory (fs : FileSystem) (text : Text) : Except Fault FileSystem := do
  match ← fs.spot .itself text with
  | .found _ _ => throw (.refused .alreadyExists text)
  | .free directory name => return fs.putAt (directory ++ [name]) (.directory .empty)

/-- A change that may end early: the files afterwards, whether it has ended well or not. -/
structure Attempt where
  files : FileSystem
  fault : Option Fault

def ensureDirectory (fs : FileSystem) (text : Text) : Attempt :=
  match fs.makeDirectory text with
  | .ok changed => ⟨changed, none⟩
  | .error fault =>
    match fault, fs.isDirectory text with
    | .refused _ _, .ok true => ⟨fs, none⟩
    | .refused _ _, .error other => ⟨fs, some other⟩
    | _, _ => ⟨fs, some fault⟩

/-- Make a directory and those above it that are missing. The count bounds how far to go up; what
has been made stays, also where the rest fails. -/
def makeDirectoriesUpTo : Nat → FileSystem → Path → Attempt
  | 0, fs, p => fs.ensureDirectory p.toText
  | count + 1, fs, p =>
    match fs.makeDirectory p.toText with
    | .error (.refused .missing path) =>
      if p.parent = p then ⟨fs, some (.refused .missing path)⟩
      else
        let above := makeDirectoriesUpTo count fs p.parent
        if above.fault.isSome then above else above.files.ensureDirectory p.toText
    | _ => fs.ensureDirectory p.toText

def makeDirectories (fs : FileSystem) (p : Path) : Attempt :=
  makeDirectoriesUpTo (p.names.length + 1) fs p

def write (fs : FileSystem) (text : Text) (content : Bytes) (stamp : Int) :
    Except Fault FileSystem := do
  match ← fs.spot .place text with
  | .found location (.file _ _) => return fs.putAt location (.file content stamp)
  | .found _ _ => throw (.refused .isDirectory text)
  | .free directory name => return fs.putAt (directory ++ [name]) (.file content stamp)

def openAt (fs : FileSystem) (location : List Text) : FileSystem × Nat :=
  ({ fs with opened := fs.opened ++ [some location] }, fs.opened.length)

/-- Open a file to add to it: it is made if it is missing. Gives the number of the open file. -/
def openToAppend (fs : FileSystem) (text : Text) (stamp : Int) :
    Except Fault (FileSystem × Nat) := do
  match ← fs.spot .place text with
  | .found location (.file _ _) => return fs.openAt location
  | .found _ _ => throw (.refused .isDirectory text)
  | .free directory name =>
    return (fs.putAt (directory ++ [name]) (.file [] stamp)).openAt (directory ++ [name])

def appendAt (fs : FileSystem) (location : List Text) (content : Bytes) : FileSystem :=
  match fs.root.at? location with
  | some (.file before stamp) => fs.putAt location (.file (before ++ content) stamp)
  | _ => fs

/-- Add to the end of an open file, wherever it is now. What is added to a file that has been taken
away is not seen again. -/
def appendTo (fs : FileSystem) (number : Nat) (content : Bytes) : FileSystem :=
  match fs.opened[number]? with
  | some (some location) => fs.appendAt location content
  | _ => fs

def checkTarget (target : Text) : Except Fault Unit :=
  if '\x00' ∈ target then .error .nulInPath
  else if target = [] then .error (.refused .missing target)
  else if pathLimit ≤ (Utf8.encode target).length then .error (.refused .nameTooLong target)
  else .ok ()

def makeLink (fs : FileSystem) (text target : Text) : Except PairFault FileSystem :=
  Except.mapError (⟨·, target, text⟩) do
    checkTarget target
    match ← fs.spot .itself text with
    | .found _ _ => throw (.refused .alreadyExists text)
    | .free directory name => return fs.putAt (directory ++ [name]) (.link target)

def setStamp (fs : FileSystem) (text : Text) (stamp : Int) : Except Fault FileSystem := do
  match ← fs.find .behind text with
  | (location, .file content _) => return fs.putAt location (.file content stamp)
  | _ => return fs

/-- Where an open file or a directory is after the entry at a location is taken away. -/
def placeWithout (location place : List Text) : Option (List Text) :=
  if location <+: place then none else some place

/-- Where an open file or a directory is after the entry at a location gets another one. -/
def placeMoved (source destination place : List Text) : List Text :=
  match source.isPrefixOf? place with
  | some rest => destination ++ rest
  | none => place

/-- Open files and locked directories at or below a location are taken away. -/
def loseAt (fs : FileSystem) (location : List Text) : FileSystem :=
  { fs with
    opened := fs.opened.map (·.bind (placeWithout location))
    locked := fs.locked.filterMap (placeWithout location) }

def detachAt (fs : FileSystem) (location : List Text) : FileSystem :=
  fs.modify location.dropLast fun l => l.erase (location.getLastD [])

def eraseAt (fs : FileSystem) (location : List Text) : FileSystem :=
  (fs.detachAt location).loseAt location

/-- Move an entry from one location to another. Open files and locked directories move with it. -/
def moveAt (fs : FileSystem) (source destination : List Text) (entry : Entry) : FileSystem :=
  let moved := ((fs.loseAt destination).detachAt source).putAt destination entry
  { moved with
    opened := moved.opened.map (·.map (placeMoved source destination))
    locked := moved.locked.map (placeMoved source destination) }

def remove (fs : FileSystem) (text : Text) : Except Fault FileSystem := do
  match ← fs.find .itself text with
  | (_, .directory _) => throw (.refused .isDirectory text)
  | (location, _) => return fs.eraseAt location

def removeDirectory (fs : FileSystem) (text : Text) : Except Fault FileSystem := do
  match ← fs.find .itself text with
  | (location, .directory _) => return fs.eraseAt location
  | _ => throw (.refused .notDirectory text)

def replaceFault? (entry old : Entry) : Option Cause :=
  if old.isDirectory ∧ ¬ entry.isDirectory then some .isDirectory
  else if ¬ old.isDirectory ∧ entry.isDirectory then some .notDirectory
  else if (old.inner?.map Listing.isEmpty) = some false then some .notEmpty
  else none

/-- Move the entry at a location to a spot. A directory cannot go below itself, nor can an entry
replace a directory above it. -/
def moveTo (fs : FileSystem) (location : List Text) (entry : Entry) (spot : Spot) :
    Except Cause FileSystem :=
  if location <+: spot.location.dropLast then .error .withinItself
  else if spot.location <+: location.dropLast then .error .notEmpty
  else if spot.location = location then .ok fs
  else
    match spot with
    | .free _ _ => .ok (fs.moveAt location spot.location entry)
    | .found _ old =>
      match replaceFault? entry old with
      | some cause => .error cause
      | none => .ok (fs.moveAt location spot.location entry)

/-- Give an entry a new path. What the new path led to is replaced. -/
def rename (fs : FileSystem) (source destination : Text) : Except PairFault FileSystem :=
  Except.mapError (⟨·, source, destination⟩) do
    let old ← fs.spot .itself source
    let new ← fs.spot .itself destination
    match old with
    | .free _ _ => throw (.refused .missing source)
    | .found location entry => (fs.moveTo location entry new).mapError (.refused · source)

def deny (fs : FileSystem) (text : Text) : FileSystem :=
  { fs with denied := text :: fs.denied }

def allow (fs : FileSystem) (text : Text) : FileSystem :=
  { fs with denied := fs.denied.filter (· != text) }

end FileSystem
end StepLocator
