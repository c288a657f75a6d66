import StepLocator.Files.Canonical
import StepLocator.Path.Uri
import StepLocator.Server.Answer

/-!
What a client asks: where the reference in a line of a document leads.
-/
namespace StepLocator

structure Query where
  document : Path
  line : Int
  character : Int
  deriving DecidableEq, Repr

namespace Query

/-- The URI of the document, by its canonical path. -/
def documentUri (q : Query) (fs : FileSystem) : Except Files.CanonicalFault Text :=
  (fs.canonical q.document).map Uri.ofPath

def params (q : Query) (fs : FileSystem) : Except Files.CanonicalFault Value := do
  let uri ← q.documentUri fs
  return .table [("textDocument", .table [("uri", .text uri)]),
    ("position", .table [("line", .int q.line), ("character", .int q.character)])]

/-- The workspace of a question: the given root or the current directory, by its canonical path. -/
def workspace (fs : FileSystem) (root : Option Path) : Except Files.CanonicalFault Path :=
  fs.canonical (root.getD fs.herePath)

/-- The workspace folders that a client offers: the one folder of its workspace. -/
def folders (workspace : Path) : Value :=
  .list [.table [("uri", .text (Uri.ofPath workspace)), ("name", .text workspace.name)]]

end Query
end StepLocator
