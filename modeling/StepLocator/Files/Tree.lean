import StepLocator.Text.Utf8

/-!
File trees. A listing holds the entries of one directory in order; an entry is a file with its
content and the time of its last change, a link with the text that it holds, or a directory with
its own listing. A location is the list of names that leads from the root through directories.
-/
namespace StepLocator

inductive Listing
  | empty
  | file (name : Text) (content : Bytes) (stamp : Int) (rest : Listing)
  | link (name target : Text) (rest : Listing)
  | directory (name : Text) (inner rest : Listing)
  deriving Repr

inductive Entry
  | file (content : Bytes) (stamp : Int)
  | link (target : Text)
  | directory (inner : Listing)
  deriving Repr

namespace Entry

def inner? : Entry → Option Listing
  | .directory inner => some inner
  | _ => none

def isDirectory (e : Entry) : Bool := e.inner?.isSome

end Entry

namespace Listing

def cons (name : Text) : Entry → Listing → Listing
  | .file content stamp, rest => .file name content stamp rest
  | .link target, rest => .link name target rest
  | .directory inner, rest => .directory name inner rest

def entries : Listing → List (Text × Entry)
  | .empty => []
  | .file name content stamp rest => (name, .file content stamp) :: rest.entries
  | .link name target rest => (name, .link target) :: rest.entries
  | .directory name inner rest => (name, .directory inner) :: rest.entries

def ofEntries (entries : List (Text × Entry)) : Listing :=
  entries.foldr (fun (name, entry) rest => cons name entry rest) .empty

def find? (wanted : Text) : Listing → Option Entry
  | .empty => none
  | .file name content stamp rest =>
    if name = wanted then some (.file content stamp) else rest.find? wanted
  | .link name target rest => if name = wanted then some (.link target) else rest.find? wanted
  | .directory name inner rest =>
    if name = wanted then some (.directory inner) else rest.find? wanted

def isEmpty : Listing → Bool
  | .empty => true
  | _ => false

/-- Put an entry under a name: in the place of the one that had the name, or at the end. -/
def put (name : Text) (entry : Entry) (l : Listing) : Listing :=
  ofEntries <|
    if (l.find? name).isSome then
      l.entries.map fun (n, e) => if n = name then (n, entry) else (n, e)
    else l.entries ++ [(name, entry)]

def erase (name : Text) (l : Listing) : Listing :=
  ofEntries (l.entries.filter fun (n, _) => n != name)

/-- The entry at a location; no link is followed. -/
def at? (l : Listing) : List Text → Option Entry
  | [] => some (.directory l)
  | name :: rest =>
    match l.find? name with
    | some (.directory inner) => inner.at? rest
    | some entry => if rest = [] then some entry else none
    | none => none

def modify (change : Listing → Listing) (l : Listing) : List Text → Listing
  | [] => change l
  | name :: rest =>
    match l.find? name with
    | some (.directory inner) => l.put name (.directory (inner.modify change rest))
    | _ => l

theorem find?_eq_find?_entries (wanted : Text) (l : Listing) :
    l.find? wanted = (l.entries.find? fun e => e.1 = wanted).map Prod.snd := by
  induction l with
  | empty => rfl
  | file name content stamp rest ih =>
    by_cases h : name = wanted <;> simp [find?, entries, h, ih]
  | link name target rest ih => by_cases h : name = wanted <;> simp [find?, entries, h, ih]
  | directory name inner rest _ ih => by_cases h : name = wanted <;> simp [find?, entries, h, ih]

theorem entries_cons (name : Text) (entry : Entry) (rest : Listing) :
    (cons name entry rest).entries = (name, entry) :: rest.entries := by
  cases entry <;> rfl

theorem entries_ofEntries (es : List (Text × Entry)) : (ofEntries es).entries = es := by
  induction es with
  | nil => rfl
  | cons e rest ih =>
    obtain ⟨name, entry⟩ := e
    have h : ofEntries ((name, entry) :: rest) = cons name entry (ofEntries rest) := rfl
    rw [h, entries_cons, ih]

theorem find?_ofEntries (wanted : Text) (es : List (Text × Entry)) :
    (ofEntries es).find? wanted = (es.find? fun e => e.1 = wanted).map Prod.snd := by
  rw [find?_eq_find?_entries, entries_ofEntries]

end Listing
end StepLocator
