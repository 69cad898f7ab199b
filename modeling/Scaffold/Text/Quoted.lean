import Scaffold.Text.Printable

/-!
# Quoted texts

A text between quotes as it is shown inside a sequence or mapping: in single quotes unless it holds
single quotes and no double ones, characters that are not printable by their code points.
-/

namespace Scaffold

namespace Text

/-- `n` in hexadecimal, padded with zeros to `width` digits. -/
def ofHex (width n : Nat) : Text :=
  let digits := Nat.toDigits 16 n
  List.replicate (width - digits.length) '0' ++ digits

/-- The quote that goes around a text. -/
def quoteMark (text : Text) : Char :=
  if text.contains '\'' && !text.contains '"' then '"' else '\''

/-- One character between quotes. -/
def quotedChar (mark c : Char) : Text :=
  if c == mark || c == '\\' then ['\\', c]
  else if c == '\n' then "\\n"
  else if c == '\r' then "\\r"
  else if c == '\t' then "\\t"
  else if isPrintable c then [c]
  else if c.toNat < 0x100 then "\\x" ++ ofHex 2 c.toNat
  else if c.toNat < 0x10000 then "\\u" ++ ofHex 4 c.toNat
  else "\\U" ++ ofHex 8 c.toNat

/-- A text between quotes. -/
def quoted (text : Text) : Text :=
  let mark := quoteMark text
  mark :: text.flatMap (quotedChar mark) ++ [mark]

end Text

end Scaffold
