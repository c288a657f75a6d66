import StepLocator.Path.Host
import StepLocator.Path.Uri

/-!
The authority of a URI: what stands after two slashes behind the scheme, up to the path. It names a
host, after a user and before a port, if there are any. A host that is a number stands in brackets
there, and the brackets hold all of the host. A character that may be taken for several ones must
not turn into one that ends a part of a URI.
-/
namespace StepLocator
namespace Uri

def isLeftOut (c : Char) : Bool := c == '\t' || c == '\n' || c == '\r'

/-- A URI as it is read: without blanks and control characters in front, on a single line. -/
def cleaned (uri : Text) : Text :=
  (uri.dropWhile fun c => c.toNat ≤ 0x20).filter fun c => !isLeftOut c

def isSchemeChar (c : Char) : Bool := c.isAlphanum || c == '+' || c == '-' || c == '.'

/-- What stands behind the scheme of a URI; all of it where there is no scheme. -/
def behindScheme (uri : Text) : Text :=
  match Text.cutAt ':' uri with
  | some (c :: name, rest) => if c.isAlpha && name.all isSchemeChar then rest else uri
  | _ => uri

def endsAuthority (c : Char) : Bool := c == '/' || c == '?' || c == '#'

def authority (uri : Text) : Text :=
  match behindScheme (cleaned uri) with
  | '/' :: '/' :: rest => rest.takeWhile fun c => !endsAuthority c
  | _ => []

/-- The host in an authority with its port: what stands behind the user. -/
def hostAndPort (authority : Text) : Text := (authority.reverse.takeWhile (· ≠ '@')).reverse

/-- The host that a port may follow. Where it stands in brackets, nothing is before them, and only a
port is after them. -/
def host? (place : Text) : Option Text :=
  match Text.cutAt '[' place with
  | none => some (place.takeWhile (· ≠ ':'))
  | some ([], rest) =>
    match (rest.dropWhile (· ≠ ']')).drop 1 with
    | [] | ':' :: _ => some (rest.takeWhile (· ≠ ']'))
    | _ => none
  | some _ => none

/-- The characters whose compatible forms hold a mark that ends a part of a URI, one of `/?#@:`. -/
def spreading : Text := [
  '\u2047', '\u2048', '\u2049', '\u2100', '\u2101', '\u2105', '\u2106', '\u2a74', '\ufe13',
  '\ufe16', '\ufe55', '\ufe56', '\ufe5f', '\ufe6b', '\uff03', '\uff0f', '\uff1a', '\uff1f',
  '\uff20']

/-- Why an address leads nowhere: the brackets do not stand around the host, what should stand in
them is none, a character of the authority can be taken for a mark, or nothing follows the name of a
host. -/
inductive AddressFault
  | brackets
  | host (fault : Host.Fault)
  | spread (authority : Text)
  | hostAlone
  deriving DecidableEq, Repr

def AddressFault.message : AddressFault → Text
  | .brackets => "Invalid IPv6 URL"
  | .host fault => fault.message
  | .spread authority =>
    "netloc '" ++ authority ++ "' contains invalid characters under NFKC normalization"
  | .hostAlone => "substring not found"

def checkBrackets (authority : Text) : Except AddressFault Unit :=
  match authority.contains '[', authority.contains ']' with
  | false, false => .ok ()
  | true, true =>
    match host? (hostAndPort authority) with
    | some host => (Host.check host).mapError .host
    | none => .error .brackets
  | _, _ => .error .brackets

def check (uri : Text) : Except AddressFault Unit := do
  let found := authority uri
  checkBrackets found
  if found.any spreading.contains then throw (.spread found)

/-- Check the path of a directory: after two slashes comes the name of a host, and then a path. -/
def checkDirectory : Text → Except AddressFault Unit
  | '/' :: '/' :: rest => if rest.contains '/' then .ok () else .error .hostAlone
  | _ => .ok ()

end Uri
end StepLocator
