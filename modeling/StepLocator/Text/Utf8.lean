import StepLocator.Text.Basic

/-!
UTF-8: the octets of a text, the strict reading that names the first octets it cannot read, and
the lenient reading that puts one replacement character for each run of octets that it gives up.
-/
namespace StepLocator

abbrev Bytes := List UInt8

namespace Utf8

def encodeChar (c : Char) : Bytes :=
  let n := c.toNat
  if n < 0x80 then [UInt8.ofNat n]
  else if n < 0x800 then [UInt8.ofNat (0xC0 + n / 64), UInt8.ofNat (0x80 + n % 64)]
  else if n < 0x10000 then
    [UInt8.ofNat (0xE0 + n / 4096), UInt8.ofNat (0x80 + n / 64 % 64), UInt8.ofNat (0x80 + n % 64)]
  else
    [UInt8.ofNat (0xF0 + n / 262144), UInt8.ofNat (0x80 + n / 4096 % 64),
      UInt8.ofNat (0x80 + n / 64 % 64), UInt8.ofNat (0x80 + n % 64)]

def encode (text : Text) : Bytes := text.flatMap encodeChar

inductive Reason
  | startByte
  | continuationByte
  | unexpectedEnd
  deriving DecidableEq, Repr

/-- A failed reading: the unreadable octets, where they begin, and the reason. -/
structure Fault where
  bytes : Bytes
  position : Nat
  reason : Reason
  deriving DecidableEq, Repr

/-- What stands at the front of some octets: a character that takes `extra` octets after the first,
or a run that cannot be read and ends `extra` octets after the first. -/
inductive Front
  | char (c : Char) (extra : Nat)
  | broken (reason : Reason) (extra : Nat)
  deriving DecidableEq, Repr

/-- Read the continuation octets of a character. The next one lies between `lo` and `hi`, all later
ones between 80 and BF (hexadecimal); `value` holds the bits read so far, `extra` counts the
continuation octets read so far. -/
def continueWith : (needed value lo hi extra : Nat) → Bytes → Front
  | 0, value, _, _, extra, _ => .char (Char.ofNat value) extra
  | _ + 1, _, _, _, extra, [] => .broken .unexpectedEnd extra
  | needed + 1, value, lo, hi, extra, b :: rest =>
    if lo ≤ b.toNat ∧ b.toNat ≤ hi then
      continueWith needed (value * 64 + (b.toNat - 0x80)) 0x80 0xBF (extra + 1) rest
    else .broken .continuationByte extra

/-- What the octet `b` and those after it begin with. The bounds on the second octet shut out
overlong forms, surrogates and numbers past the last character. -/
def front (b : UInt8) (rest : Bytes) : Front :=
  let n := b.toNat
  if n < 0x80 then .char (Char.ofNat n) 0
  else if n < 0xC2 then .broken .startByte 0
  else if n < 0xE0 then continueWith 1 (n - 0xC0) 0x80 0xBF 0 rest
  else if n < 0xF0 then
    continueWith 2 (n - 0xE0) (if n = 0xE0 then 0xA0 else 0x80) (if n = 0xED then 0x9F else 0xBF)
      0 rest
  else if n < 0xF5 then
    continueWith 3 (n - 0xF0) (if n = 0xF0 then 0x90 else 0x80) (if n = 0xF4 then 0x8F else 0xBF)
      0 rest
  else .broken .startByte 0

/-- Read octets strictly; `skip` octets belong to a character already read. -/
def decodeFrom (position : Nat) : (skip : Nat) → Bytes → Except Fault Text
  | _, [] => .ok []
  | skip + 1, _ :: rest => decodeFrom (position + 1) skip rest
  | 0, b :: rest =>
    match front b rest with
    | .char c extra => (decodeFrom (position + 1) extra rest).map (c :: ·)
    | .broken reason extra => .error ⟨(b :: rest).take (extra + 1), position, reason⟩

def decode (bytes : Bytes) : Except Fault Text := decodeFrom 0 0 bytes

def replacement : Char := Char.ofNat 0xFFFD

/-- Read octets leniently; `skip` octets belong to a run already dealt with. -/
def decodeLenientFrom : (skip : Nat) → Bytes → Text
  | _, [] => []
  | skip + 1, _ :: rest => decodeLenientFrom skip rest
  | 0, b :: rest =>
    match front b rest with
    | .char c extra => c :: decodeLenientFrom extra rest
    | .broken _ extra => replacement :: decodeLenientFrom extra rest

/-- Read octets leniently: every run that cannot be read becomes one replacement character. -/
def decodeLenient (bytes : Bytes) : Text := decodeLenientFrom 0 bytes

def hexDigits (b : UInt8) : Text :=
  [Nat.digitChar (b.toNat / 16), Nat.digitChar (b.toNat % 16)]

def Reason.message : Reason → Text
  | .startByte => "invalid start byte"
  | .continuationByte => "invalid continuation byte"
  | .unexpectedEnd => "unexpected end of data"

def Fault.message (fault : Fault) : Text :=
  let place : Text :=
    match fault.bytes with
    | [b] => "byte 0x" ++ hexDigits b ++ " in position " ++ Nat.toDigits 10 fault.position
    | bytes =>
      "bytes in position " ++ Nat.toDigits 10 fault.position ++ "-" ++
        Nat.toDigits 10 (fault.position + bytes.length - 1)
  "\x27utf-8\x27 codec can\x27t decode " ++ place ++ ": " ++ fault.reason.message

@[simp] theorem encode_nil : encode [] = [] := rfl

@[simp] theorem encode_cons (c : Char) (text : Text) :
    encode (c :: text) = encodeChar c ++ encode text := rfl

@[simp] theorem encode_append (s t : Text) : encode (s ++ t) = encode s ++ encode t := by
  simp [encode]

end Utf8
end StepLocator
