import StepLocator.Json.Reader

/-!
Reading messages from a stream. A frame is a header up to the first empty line, with the length of
the body among its fields, and the body, which is a JSON table. The stream hands out a body in
pieces: each read gives some of the octets asked for, at least one, until the stream is used up.
-/
namespace StepLocator

/-- A stream that a client reads from: the octets still to come, how many of them the next reads
of a body give at most, how many one read may ask for (if there is a limit), whether the stream
stays open when it is used up, and whether the time for reading is over. -/
structure Incoming where
  bytes : Bytes
  cuts : List Nat
  limit : Option Nat
  heldOpen : Bool
  expired : Bool
  deriving DecidableEq, Repr

namespace Incoming

inductive Fault
  | timedOut
  | closed
  | badLength (value : Bytes)
  | longLength (digits : Nat)
  | invalidLength
  | hugeLength
  | encoding (fault : Utf8.Fault)
  | json (fault : Json.Fault)
  | notTable
  deriving DecidableEq, Repr

def badLengthMessage (value : Bytes) : Text :=
  "invalid literal for int() with base 10: " ++ (Bytes.quoted value).take 200

def Fault.message : Fault → Text
  | .timedOut => "LSP response timed out"
  | .closed => "LSP stream closed"
  | .badLength value => badLengthMessage value
  | .longLength digits => tooLongMessage digits
  | .invalidLength => "Invalid LSP Content-Length"
  | .hugeLength => "cannot fit \x27int\x27 into an index-sized integer"
  | .encoding fault => fault.message
  | .json fault => fault.message
  | .notTable => "Invalid LSP message payload"

/-- Whether a failed reading counts as a failure of the client; the others come from what a message
is made of. -/
def Fault.isReported : Fault → Bool
  | .timedOut | .closed | .invalidLength | .notTable => true
  | .badLength _ | .longLength _ | .hugeLength | .encoding _ | .json _ => false

/-- The last four octets of a header, the latest first. -/
def reversedEnd : Bytes := [10, 13, 10, 13]

/-- The octets up to and including the first empty line, and those after it. `seen` holds the
octets read so far, the latest first. -/
def splitHeaderFrom (seen : Bytes) : Bytes → Option (Bytes × Bytes)
  | [] => none
  | b :: rest =>
    if (b :: seen).take 4 = reversedEnd then some ((b :: seen).reverse, rest)
    else splitHeaderFrom (b :: seen) rest

def splitHeader (bytes : Bytes) : Option (Bytes × Bytes) := splitHeaderFrom [] bytes

def consLine (b : UInt8) : List Bytes → List Bytes
  | [] => [[b]]
  | line :: rest => (b :: line) :: rest

def headerLines : Bytes → List Bytes
  | [] => [[]]
  | 13 :: 10 :: rest => [] :: headerLines rest
  | b :: rest => consLine b (headerLines rest)

def isBlankByte (b : UInt8) : Bool := (9 ≤ b && b ≤ 13) || b == 32

def stripBytes (bytes : Bytes) : Bytes :=
  ((bytes.dropWhile isBlankByte).reverse.dropWhile isBlankByte).reverse

/-- Octets as characters; those outside ASCII are no digits of any script. -/
def asciiText (bytes : Bytes) : Text :=
  bytes.map fun b => if b < 0x80 then Char.ofNat b.toNat else Utf8.replacement

/-- The name and the value of a header line; without a colon all of it is the name. -/
def splitField (line : Bytes) : Bytes × Bytes :=
  (line.takeWhile (· != 58), (line.dropWhile (· != 58)).drop 1)

def lengthName : Text := "content-length"

def givesLength (name : Bytes) : Bool := Text.lower (asciiText (stripBytes name)) == lengthName

/-- The length that the fields of a header give; the last one counts, but all of them must be
numbers. -/
def lengthOf : (soFar : Int) → List Bytes → Except Fault Int
  | soFar, [] => .ok soFar
  | soFar, line :: rest =>
    let (name, value) := splitField line
    if givesLength name then
      match Integer.read (asciiText (stripBytes value)) with
      | .ok length => lengthOf length rest
      | .error .malformed => .error (.badLength (stripBytes value))
      | .error (.tooLong digits) => .error (.longLength digits)
    else lengthOf soFar rest

/-- What is left after reading: the octets and the cuts. -/
structure Rest where
  bytes : Bytes
  cuts : List Nat

/-- Read a body of `need` octets, piece by piece; nothing if the octets run out. -/
def readBody : (cuts : List Nat) → (need : Nat) → Bytes → Option (Bytes × Rest)
  | cuts, 0, bytes => some ([], ⟨bytes, cuts⟩)
  | [], need + 1, bytes =>
    if bytes.length < need + 1 then none
    else some (bytes.take (need + 1), ⟨bytes.drop (need + 1), []⟩)
  | cut :: cuts, need + 1, bytes =>
    if bytes.isEmpty then none
    else
      let size := min (need + 1) (max cut 1)
      let piece := bytes.take size
      (readBody cuts (need + 1 - piece.length) (bytes.drop size)).map fun (body, rest) =>
        (piece ++ body, rest)

def messageOf (body : Bytes) : Except Fault Entries :=
  match Utf8.decode body with
  | .error fault => .error (.encoding fault)
  | .ok text =>
    match Json.read text with
    | .error fault => .error (.json fault)
    | .ok (.table entries) => .ok entries
    | .ok _ => .error .notTable

/-- What a stream that is used up means. -/
def dry (s : Incoming) : Fault := if s.heldOpen then .timedOut else .closed

/-- The most octets that a read from memory or from a pipe may ask for. -/
def wordLimit : Nat := 9223372036854775807

/-- Whether a read of so many octets is refused. A stream that stays open is waited for first. -/
def refuses (s : Incoming) (length : Nat) (rest : Bytes) : Bool :=
  s.limit.any (· < length) && !(s.heldOpen && rest.isEmpty)

/-- Read one message; the stream is left behind the last octet that was read. -/
def readMessage (s : Incoming) : Except Fault Entries × Incoming :=
  if s.expired then (.error .timedOut, s)
  else
    match splitHeader s.bytes with
    | none => (.error s.dry, { s with bytes := [] })
    | some (header, rest) =>
      match lengthOf 0 (headerLines header) with
      | .error fault => (.error fault, { s with bytes := rest })
      | .ok length =>
        if length ≤ 0 then (.error .invalidLength, { s with bytes := rest })
        else if s.refuses length.toNat rest then (.error .hugeLength, { s with bytes := rest })
        else
          match readBody s.cuts length.toNat rest with
          | none => (.error s.dry, { s with bytes := [] })
          | some (body, left) => (messageOf body, { s with bytes := left.bytes, cuts := left.cuts })

end Incoming
end StepLocator
