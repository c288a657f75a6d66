import StepLocator.Document
import StepLocator.Nesting
import StepLocator.Toml.Reader

/-!
Configuration files. A file that is not there, cannot be read or holds no TOML document counts as
an empty one; four faults are not forgiven: a path with the character number zero, content that is
not UTF-8, an integer with too many digits, and values that are nested too deeply.
-/
namespace StepLocator
namespace Configuration

def standardName : Text := "ci-operator-lsp.toml"

def serverKey : Text := "server"

/-- A fault that is not forgiven. -/
inductive Fault
  | nulInPath
  | encoding (fault : Utf8.Fault)
  | longInteger (digits : Nat)
  | tooDeep
  deriving DecidableEq, Repr

def Fault.message : Fault → Text
  | .nulInPath => Files.nulMessage
  | .encoding fault => fault.message
  | .longInteger digits => tooLongMessage digits
  | .tooDeep => Nesting.message

def ofContent (content : Bytes) : Except Fault Entries :=
  match Document.textOf content with
  | .error fault => .error (.encoding fault)
  | .ok text =>
    match Toml.read text with
    | .ok entries => .ok entries
    | .error .malformed => .ok []
    | .error (.longInteger digits) => .error (.longInteger digits)
    | .error .tooDeep => .error .tooDeep

/-- The file to read: the one that is given, or else the one with the standard name in a root, or
else in the current directory. -/
def place (fs : FileSystem) (root file : Option Path) : Path :=
  file.getD ((root.getD fs.herePath).child standardName)

def load (fs : FileSystem) (root file : Option Path) : Except Fault Entries :=
  match fs.read (place fs root file).toText with
  | .error .nulInPath => .error .nulInPath
  | .error (.refused _ _) => .ok []
  | .ok content => ofContent content

/-- The settings of the server in a configuration; what is no table counts as an empty one. -/
def serverTable (entries : Entries) : Entries :=
  match entries.find? serverKey with
  | some (.table server) => server
  | _ => []

def loadServer (fs : FileSystem) (root file : Option Path) : Except Fault Entries :=
  (load fs root file).map serverTable

end Configuration
end StepLocator
