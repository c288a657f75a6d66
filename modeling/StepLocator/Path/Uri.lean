import StepLocator.Path.Basic
import StepLocator.Text.Percent

/-!
File URIs: the scheme in front of a percent-encoded path.
-/
namespace StepLocator
namespace Uri

def scheme : Text := "file://"

def ofPath (p : Path) : Text := scheme ++ Percent.encode p.toText

/-- The path of a document: the escapes are decoded first, then the scheme is cut off. -/
def documentPath (uri : Text) : Path := Path.ofText (Text.withoutStart scheme (Percent.decode uri))

/-- The path of a workspace folder: the scheme is cut off first, then the escapes are decoded. -/
def folderPath (uri : Text) : Path := Path.ofText (Percent.decode (Text.withoutStart scheme uri))

/-- The URI that leads to a target: of an absolute path its own one, of any other path the scheme
and the text as it is. -/
def ofTarget (target : Text) : Text :=
  let p := Path.ofText target
  if p.isAbsolute then ofPath p else scheme ++ target

end Uri
end StepLocator
