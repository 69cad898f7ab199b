import Scaffold.Document.Json

/-!
# Encodings of JSON texts

The text that bytes stand for in one of the encodings of Unicode. A mark at the start tells which
one it is, or else the zeros among the first four bytes, since a JSON text starts with ASCII
characters.
-/

namespace Scaffold

/-- The encodings of Unicode, with the more significant bytes first or last in each unit. -/
inductive Encoding
  | utf8
  | utf16 (bigEnd : Bool)
  | utf32 (bigEnd : Bool)
  deriving DecidableEq

namespace Encoding

/-- The encoding of bytes without a mark. -/
def ofZeros : List UInt8 → Encoding
  | a :: b :: c :: d :: _ =>
    if a = 0 then (if b = 0 then utf32 true else utf16 true)
    else if b = 0 then (if c = 0 && d = 0 then utf32 false else utf16 false)
    else utf8
  | [a, b] => if a = 0 then utf16 true else if b = 0 then utf16 false else utf8
  | _ => utf8

/-- The encoding of bytes, and the bytes behind its mark. -/
def detect : List UInt8 → Encoding × List UInt8
  | 0x00 :: 0x00 :: 0xfe :: 0xff :: rest => (utf32 true, rest)
  | 0xff :: 0xfe :: 0x00 :: 0x00 :: rest => (utf32 false, rest)
  | 0xfe :: 0xff :: rest => (utf16 true, rest)
  | 0xff :: 0xfe :: rest => (utf16 false, rest)
  | 0xef :: 0xbb :: 0xbf :: rest => (utf8, rest)
  | bytes => (ofZeros bytes, bytes)

/-- The number that bytes stand for. -/
def unitOf (bigEnd : Bool) (bytes : List UInt8) : Nat :=
  (if bigEnd then bytes else bytes.reverse).foldl (fun value byte => value * 0x100 + byte.toNat) 0

/-- The units of two bytes each. -/
def units16? (bigEnd : Bool) : List UInt8 → Option (List Nat)
  | [] => some []
  | a :: b :: rest => (units16? bigEnd rest).map (unitOf bigEnd [a, b] :: ·)
  | _ => none

/-- The units of four bytes each. -/
def units32? (bigEnd : Bool) : List UInt8 → Option (List Nat)
  | [] => some []
  | a :: b :: c :: d :: rest => (units32? bigEnd rest).map (unitOf bigEnd [a, b, c, d] :: ·)
  | _ => none

/-- The text of units of two bytes: a pair of halves is one character. -/
def textOf16 : List Nat → Text
  | [] => []
  | [unit] => [Json.unitChar unit]
  | high :: low :: rest =>
    if Json.isHighSurrogate high && Json.isLowSurrogate low then
      Json.pairChar high low :: textOf16 rest
    else Json.unitChar high :: textOf16 (low :: rest)

/-- The text of code points. -/
def textOf32? (units : List Nat) : Option Text :=
  units.mapM fun unit => if 0x10ffff < unit then none else some (Json.unitChar unit)

/-- The text that bytes stand for in an encoding. -/
def decode? (bytes : List UInt8) : Encoding → Option Text
  | utf8 => (String.fromUTF8? (ByteArray.mk bytes.toArray)).map String.toList
  | utf16 bigEnd => (units16? bigEnd bytes).map textOf16
  | utf32 bigEnd => (units32? bigEnd bytes).bind textOf32?

end Encoding

/-- The text that bytes in any encoding of Unicode stand for. -/
def textOfBytes? (bytes : List UInt8) : Option Text :=
  let (encoding, rest) := Encoding.detect bytes
  encoding.decode? rest

end Scaffold
