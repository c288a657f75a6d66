import StepLocator.Text.Basic

/-!
Paths as an anchor and a list of names. Reading a path drops empty names and single dots and keeps
double dots; normalising resolves the double dots by the names alone, without regard to any file
tree. A path that begins with exactly two slashes keeps both.
-/
namespace StepLocator

/-- Where a path begins: at the current directory, at the root, or at the root written as two
slashes. -/
inductive Anchor
  | here
  | root
  | doubleRoot
  deriving DecidableEq, Repr

/-- A path: where it begins and the names on the way. -/
structure Path where
  anchor : Anchor
  names : List Text
  deriving DecidableEq, Repr

namespace Anchor

def ofText : Text → Anchor
  | '/' :: '/' :: '/' :: _ => .root
  | '/' :: '/' :: _ => .doubleRoot
  | '/' :: _ => .root
  | _ => .here

def toText : Anchor → Text
  | .here => ""
  | .root => "/"
  | .doubleRoot => "//"

end Anchor

namespace Path

/-- Whether a segment of a text is a name: neither empty nor a single dot. -/
def isName (segment : Text) : Bool := !segment.isEmpty && segment != ['.']

def parentName : Text := ['.', '.']

def namesOf (text : Text) : List Text := (text.splitOn '/').filter isName

def ofText (text : Text) : Path := ⟨Anchor.ofText text, namesOf text⟩

def joinNames (names : List Text) : Text := List.intercalate ['/'] names

/-- The text of a path; the path without names that begins at the current directory is a dot. -/
def toText (p : Path) : Text :=
  if p.anchor = .here ∧ p.names = [] then ['.'] else p.anchor.toText ++ joinNames p.names

def isAbsolute (p : Path) : Bool := p.anchor != .here

def append (p : Path) (names : List Text) : Path := { p with names := p.names ++ names }

def child (p : Path) (name : Text) : Path := p.append [name]

/-- The path of the directory that holds an entry. A path without names is its own parent. -/
def parent (p : Path) : Path := { p with names := p.names.dropLast }

def name (p : Path) : Text := p.names.getLastD []

/-- The end of the last name from its last dot on; empty if the dot is its first or its last
character. -/
def suffix (p : Path) : Text :=
  let tail := p.name.reverse.takeWhile (· != '.')
  if tail.isEmpty ∨ tail.length + 1 ≥ p.name.length then [] else '.' :: tail.reverse

/-- One step of normalising: a double dot takes back the name before it. At the root there is
nothing to take back; before any name of a path that begins at the current directory the double
dot stays. `stack` holds the names so far, the latest first. -/
def pushName (atRoot : Bool) (stack : List Text) (name : Text) : List Text :=
  if name = parentName then
    match stack with
    | [] => if atRoot then [] else [name]
    | top :: below => if top = parentName then name :: stack else below
  else name :: stack

def normalizeNames (atRoot : Bool) (names : List Text) : List Text :=
  (names.foldl (pushName atRoot) []).reverse

/-- The path without double dots, except for those that lead out of the current directory. -/
def normalize (p : Path) : Path := { p with names := normalizeNames p.isAbsolute p.names }

def isUnder (p base : Path) : Bool := p.anchor == base.anchor && base.names.isPrefixOf p.names

/-- A path as it is seen from a directory: itself if it begins at the root. -/
def seenFrom (p directory : Path) : Path :=
  if p.isAbsolute then p else directory.append p.names

def leNames : List Text → List Text → Bool
  | [], _ => true
  | _ :: _, [] => false
  | a :: as, b :: bs => if a = b then leNames as bs else Text.le a b

@[simp] theorem append_anchor (p : Path) (names : List Text) :
    (p.append names).anchor = p.anchor := rfl

@[simp] theorem append_names (p : Path) (names : List Text) :
    (p.append names).names = p.names ++ names := rfl

theorem child_append (p : Path) (names : List Text) (name : Text) :
    (p.append names).child name = p.append (names ++ [name]) := by
  simp [child, append]

@[simp] theorem normalize_anchor (p : Path) : p.normalize.anchor = p.anchor := rfl

theorem isUnder_iff {p base : Path} :
    p.isUnder base = true ↔ p.anchor = base.anchor ∧ base.names <+: p.names := by
  simp [isUnder]

end Path
end StepLocator
