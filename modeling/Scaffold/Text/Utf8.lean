import Scaffold.Text.Integer

/-!
# UTF-8

Where bytes stop being the encoding of a text, and why. A first byte announces how many bytes follow
it and which ones may come next, so that one walk over the bytes finds the first character that is
wrong or cut off.
-/

namespace Scaffold

/-- Why bytes are no character. -/
inductive EncodingReason
  | noStart
  | noContinuation
  | cutOff
  deriving DecidableEq

/-- Bytes that are no character: where they start, the first of them, and their number. -/
structure EncodingFault where
  position : Nat
  first : UInt8
  count : Nat
  reason : EncodingReason
  deriving DecidableEq

/-- The bytes that a character still needs: how many, and the range of the next one. -/
structure OwedBytes where
  count : Nat
  least : UInt8 := 0x80
  greatest : UInt8 := 0xbf

namespace OwedBytes

/-- What a first byte announces, none if no character starts with it. -/
def after? (first : UInt8) : Option OwedBytes :=
  if first ≤ 0x7f then some { count := 0 }
  else if first < 0xc2 then none
  else if first ≤ 0xdf then some { count := 1 }
  else if first = 0xe0 then some { count := 2, least := 0xa0 }
  else if first = 0xed then some { count := 2, greatest := 0x9f }
  else if first ≤ 0xef then some { count := 2 }
  else if first = 0xf0 then some { count := 3, least := 0x90 }
  else if first ≤ 0xf3 then some { count := 3 }
  else if first = 0xf4 then some { count := 3, greatest := 0x8f }
  else none

/-- Whether a byte may come next. -/
def allows (owed : OwedBytes) (byte : UInt8) : Bool := owed.least ≤ byte && byte ≤ owed.greatest

end OwedBytes

namespace EncodingFault

/-- The first fault in bytes, `taken` bytes into the character at `position`. -/
def findFrom (position : Nat) (first : UInt8) (taken : Nat) (owed : OwedBytes) :
    List UInt8 → Option EncodingFault
  | [] => if owed.count = 0 then none else some ⟨position, first, taken, .cutOff⟩
  | byte :: rest =>
    if owed.count = 0 then
      match OwedBytes.after? byte with
      | none => some ⟨position + taken, byte, 1, .noStart⟩
      | some owed => findFrom (position + taken) byte 1 owed rest
    else if owed.allows byte then
      findFrom position first (taken + 1) { count := owed.count - 1 } rest
    else some ⟨position, first, taken, .noContinuation⟩

/-- The first fault in bytes, none if they are the encoding of a text. -/
def find? (bytes : List UInt8) : Option EncodingFault := findFrom 0 0 0 { count := 0 } bytes

/-- The words for a reason. -/
def reasonText : EncodingReason → Text
  | .noStart => "invalid start byte"
  | .noContinuation => "invalid continuation byte"
  | .cutOff => "unexpected end of data"

/-- A byte in hexadecimal. -/
def byteText (byte : UInt8) : Text :=
  ['0', 'x', Nat.digitChar (byte.toNat / 16), Nat.digitChar (byte.toNat % 16)]

/-- The bytes of a fault and their place. -/
def place (fault : EncodingFault) : Text :=
  if fault.count = 1 then
    "byte " ++ byteText fault.first ++ " in position " ++ Text.ofNat fault.position
  else
    "bytes in position " ++ Text.ofNat fault.position ++ "-" ++
      Text.ofNat (fault.position + fault.count - 1)

/-- The message for a fault. -/
def message (fault : EncodingFault) : Text :=
  "'utf-8' codec can't decode " ++ fault.place ++ ": " ++ reasonText fault.reason

end EncodingFault

end Scaffold
