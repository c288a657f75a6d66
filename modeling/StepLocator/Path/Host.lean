import StepLocator.Number.Digits
import StepLocator.Text.Percent
import StepLocator.Text.Quoted

/-!
Hosts in brackets. Such a host is a number of eight groups, written in hexadecimal digits with
colons between them, where two colons stand for a run of groups that are zero, or it is an address
of a kind still to come, which begins with a `v`.
-/
namespace StepLocator
namespace Host

/-- Whether a text is a number from 0 to 255 in decimal digits, without a zero in front. -/
def isOctet (part : Text) : Bool :=
  match part with
  | [] => false
  | '0' :: rest => rest.isEmpty
  | _ => part.length ≤ 3 && part.all Digits.isAscii && Digits.toNat part ≤ 255

def isFourPart (host : Text) : Bool :=
  let parts := host.splitOn '.'
  parts.length == 4 && parts.all isOctet

def isHexDigit (c : Char) : Bool := (Percent.hexValue? c).isSome

def isGroup (part : Text) : Bool := !part.isEmpty && part.length ≤ 4 && part.all isHexDigit

/-- How many groups the parts stand for. The last one may be an address of four octets, which is
two groups. -/
def groupCount? : List Text → Option Nat
  | [] => some 0
  | [last] => if isGroup last then some 1 else if isFourPart last then some 2 else none
  | part :: rest => if isGroup part then (groupCount? rest).map (· + 1) else none

def partsOf (text : Text) : List Text := if text.isEmpty then [] else text.splitOn ':'

def cutAtGap : Text → Option (Text × Text)
  | ':' :: ':' :: rest => some ([], rest)
  | c :: rest => (cutAtGap rest).map fun (before, after) => (c :: before, after)
  | [] => none

/-- Whether a text is a number of eight groups; a gap stands for at least one of them. -/
def isEightGroup (address : Text) : Bool :=
  match cutAtGap address with
  | none => groupCount? (partsOf address) == some 8
  | some (before, after) =>
    (partsOf before).all isGroup &&
      (groupCount? (partsOf after)).any ((partsOf before).length + · ≤ 7)

/-- Whether a text is a number of eight groups, with the name of a zone after a percent sign or
without. -/
def isZoned (host : Text) : Bool :=
  match Text.cutAt '%' host with
  | none => isEightGroup host
  | some (address, zone) => isEightGroup address && !zone.isEmpty && !zone.contains '%'

/-- Whether a text is a version in hexadecimal digits, with a dot and something more after it. -/
def isVersioned (text : Text) : Bool :=
  let (version, rest) := text.span isHexDigit
  !version.isEmpty && rest.head? == some '.' && 2 ≤ rest.length

/-- Why a text is no host in brackets: it begins as an address of a kind still to come and does not
go on as one, it is an address of four octets, which stands without brackets, or it is none. -/
inductive Fault
  | future
  | fourPart
  | noAddress (host : Text)
  deriving DecidableEq, Repr

def Fault.message : Fault → Text
  | .future => "IPvFuture address is invalid"
  | .fourPart => "An IPv4 address cannot be in brackets"
  | .noAddress host => Text.quoted host ++ " does not appear to be an IPv4 or IPv6 address"

def check : Text → Except Fault Unit
  | 'v' :: rest => if isVersioned rest then .ok () else .error .future
  | host =>
    if isFourPart host then .error .fourPart
    else if isZoned host then .ok ()
    else .error (.noAddress host)

end Host
end StepLocator
