import SchemaDecl.Text.Lines

/-!
# UTF-8

A character takes one to four bytes. The first byte settles how many follow it and between which bounds
each of them lies. `fault` says where bytes stop being UTF-8: at a byte that begins no character, within
a character that goes on wrongly, or at the end of the bytes within a character.
-/

namespace SchemaDecl.Utf8

inductive Cause
  | wrongStart | wrongContinuation | endOfBytes
  deriving DecidableEq, Repr

def Cause.describe : Cause → String
  | wrongStart => "invalid start byte"
  | wrongContinuation => "invalid continuation byte"
  | endOfBytes => "unexpected end of data"

/-- The bytes that are at fault, the first of them at `offset`. -/
structure Fault where
  cause : Cause
  offset : Nat
  bytes : List UInt8
  deriving DecidableEq, Repr

def hexByte (b : UInt8) : String :=
  let digits := Nat.toDigits 16 b.toNat
  String.ofList (List.replicate (2 - digits.length) '0' ++ digits)

def Fault.message (f : Fault) : String :=
  let place := match f.bytes with
    | [b] => "byte 0x" ++ hexByte b ++ " in position " ++ toString f.offset
    | bytes =>
      "bytes in position " ++ toString f.offset ++ "-" ++ toString (f.offset + bytes.length - 1)
  "'utf-8' codec can't decode " ++ place ++ ": " ++ f.cause.describe

/-- The bounds of a byte that follows another. -/
def continuation : UInt8 × UInt8 := (0x80, 0xBF)

/-- The bounds of the bytes that follow a first byte; `none` if no character begins with it. -/
def followers? (b : UInt8) : Option (List (UInt8 × UInt8)) :=
  if b < 0x80 then some []
  else if b < 0xC2 then none
  else if b < 0xE0 then some [continuation]
  else if b = 0xE0 then some [(0xA0, 0xBF), continuation]
  else if b = 0xED then some [(0x80, 0x9F), continuation]
  else if b < 0xF0 then some [continuation, continuation]
  else if b = 0xF0 then some [(0x90, 0xBF), continuation, continuation]
  else if b < 0xF4 then some [continuation, continuation, continuation]
  else if b = 0xF4 then some [(0x80, 0x8F), continuation, continuation]
  else none

/-- What is wrong with the bytes after `taken` bytes of a character, and how many bytes are at fault. -/
def followed (taken : Nat) : List (UInt8 × UInt8) → List UInt8 → Option (Cause × Nat)
  | [], _ => none
  | _ :: _, [] => some (.endOfBytes, taken)
  | (lo, hi) :: bounds, b :: rest =>
    if lo ≤ b && b ≤ hi then followed (taken + 1) bounds rest else some (.wrongContinuation, taken)

/-- The first fault of bytes of which the first `skipped` belong to a character already looked at. -/
def faultFrom (offset : Nat) : Nat → List UInt8 → Option Fault
  | _, [] => none
  | skipped + 1, _ :: rest => faultFrom (offset + 1) skipped rest
  | 0, b :: rest =>
    match followers? b with
    | none => some ⟨.wrongStart, offset, [b]⟩
    | some bounds =>
      match followed 1 bounds rest with
      | some (cause, length) => some ⟨cause, offset, (b :: rest).take length⟩
      | none => faultFrom (offset + 1) bounds.length rest

def fault? (bytes : List UInt8) : Option Fault := faultFrom 0 0 bytes

def decode (bytes : ByteArray) : Except Fault String :=
  match String.fromUTF8? bytes with
  | some s => .ok s
  | none => .error ((fault? bytes.toList).getD ⟨.endOfBytes, bytes.size, []⟩)

/-- The text of bytes with its line endings made uniform. -/
def decodeLines (bytes : ByteArray) : Except Fault String :=
  (decode bytes).map fun s => String.ofList (Text.unifyNewlines s.toList)

end SchemaDecl.Utf8
