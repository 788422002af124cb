/-!
# Decoding UTF-8

`Utf8.decode` turns bytes into characters and refuses ill-formed input. A fault names the first
sequence that is not well formed: its longest part that could begin a character, or its first byte
if no character begins with that byte.
-/

namespace Sentential.Text.Utf8

/-- Why a byte sequence is ill formed. -/
inductive Why where
  /-- No character begins with the byte. -/
  | invalidStart
  /-- A further byte is not one that may follow. -/
  | invalidContinuation
  /-- The bytes end inside a character. -/
  | truncated
  deriving DecidableEq

/-- The wording of a reason. -/
def Why.message : Why → String
  | .invalidStart => "invalid start byte"
  | .invalidContinuation => "invalid continuation byte"
  | .truncated => "unexpected end of data"

/-- An ill-formed sequence: its positions, its first byte, and the reason. -/
structure Fault where
  first : Nat
  last : Nat
  byte : UInt8
  why : Why
  deriving DecidableEq

/-- A byte in lower-case hexadecimal with two digits. -/
def hexByte (b : UInt8) : String :=
  String.ofList [Nat.digitChar (b.toNat / 16), Nat.digitChar (b.toNat % 16)]

/-- The wording of a fault. -/
def Fault.message (fault : Fault) : String :=
  if fault.first = fault.last then
    s!"'utf-8' codec can't decode byte 0x{hexByte fault.byte} in position {fault.first}: "
      ++ fault.why.message
  else
    s!"'utf-8' codec can't decode bytes in position {fault.first}-{fault.last}: " ++
      fault.why.message

/-- The bounds of a byte that continues a character. -/
abbrev Bounds := Nat × Nat

/-- The bounds of most continuation bytes. -/
def continuation : Bounds := (0x80, 0xBF)

/-- What a first byte announces: the high bits of the code point, and the bounds of the bytes that
follow. The bounds of the second byte exclude overlong forms, surrogates, and code points that are
too large. -/
def lead? (b : Nat) : Option (Nat × List Bounds) :=
  if b < 0x80 then some (b, [])
  else if b < 0xC2 then none
  else if b < 0xE0 then some (b - 0xC0, [continuation])
  else if b = 0xE0 then some (0, [(0xA0, 0xBF), continuation])
  else if b = 0xED then some (0xD, [(0x80, 0x9F), continuation])
  else if b < 0xF0 then some (b - 0xE0, [continuation, continuation])
  else if b = 0xF0 then some (0, [(0x90, 0xBF), continuation, continuation])
  else if b < 0xF4 then some (b - 0xF0, [continuation, continuation, continuation])
  else if b = 0xF4 then some (4, [(0x80, 0x8F), continuation, continuation])
  else none

/-- Reads continuation bytes with the given bounds after the high bits `value`: the code point and
the bytes that remain, or the reason of the failure and the number of bytes read before it. -/
def follow (value read : Nat) : List Bounds → List UInt8 → Except (Why × Nat) (Nat × List UInt8)
  | [], bytes => .ok (value, bytes)
  | _ :: _, [] => .error (.truncated, read)
  | (low, high) :: bounds, b :: bytes =>
      if low ≤ b.toNat ∧ b.toNat ≤ high then
        follow (value * 64 + (b.toNat - 0x80)) (read + 1) bounds bytes
      else .error (.invalidContinuation, read)

theorem follow_length_le {value read : Nat} {bounds : List Bounds} {bytes rest : List UInt8}
    {code : Nat} (h : follow value read bounds bytes = .ok (code, rest)) :
    rest.length ≤ bytes.length := by
  induction bounds generalizing value read bytes with
  | nil =>
      simp only [follow, Except.ok.injEq, Prod.mk.injEq] at h
      exact Nat.le_of_eq (congrArg List.length h.2.symm)
  | cons b bounds ih =>
      cases bytes with
      | nil => simp [follow] at h
      | cons byte bytes =>
          simp only [follow] at h
          split at h
          · exact Nat.le_succ_of_le (ih h)
          · simp at h

/-- Decodes bytes of which the first stands at `position`. -/
def decodeFrom (position : Nat) : List UInt8 → Except Fault (List Char)
  | [] => .ok []
  | b :: bytes =>
      match lead? b.toNat with
      | none => .error ⟨position, position, b, .invalidStart⟩
      | some (value, bounds) =>
          match _h : follow value 0 bounds bytes with
          | .error (why, read) => .error ⟨position, position + read, b, why⟩
          | .ok (code, rest) =>
              match decodeFrom (position + 1 + bounds.length) rest with
              | .ok cs => .ok (Char.ofNat code :: cs)
              | .error fault => .error fault
termination_by bytes => bytes.length
decreasing_by
  have := follow_length_le _h
  simp only [List.length_cons]
  omega

/-- Decodes a whole byte sequence. -/
def decode (bytes : List UInt8) : Except Fault String := (decodeFrom 0 bytes).map String.ofList

end Sentential.Text.Utf8
