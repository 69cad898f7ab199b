import Scaffold.Document.Fault

/-!
# JSON

Reading and writing JSON texts. The reader takes the usual grammar and also the words `NaN`,
`Infinity` and `-Infinity`; of two equal keys the later value counts. A refusal says how many
characters were left, from which the position is computed that is reported. `Json.readWithin`
follows sequences and mappings only so far into each other, `Json.read` to any depth.

Texts are sequences of Unicode scalar values. Half of a surrogate pair is none of them, so an escape
of one half that stands alone is read as the replacement character U+FFFD (`Json.unitChar`). A reader
that keeps the half fails later, when the text is written.
-/

namespace Scaffold

namespace Json

/-- Why a text is refused. -/
inductive Fault
  | malformed (position : Nat)
  | value (fault : ValueFault)
  deriving DecidableEq

/-- The characters that may stand between tokens. -/
def isSpace (c : Char) : Bool := c == ' ' || c == '\t' || c == '\n' || c == '\r'

def skipSpace (text : Text) : Text := text.dropWhile isSpace

def isDigit (c : Char) : Bool := '0' ≤ c && c ≤ '9'

/-- The value of a hexadecimal digit. -/
def hexValue? (c : Char) : Option Nat :=
  if '0' ≤ c && c ≤ '9' then some (c.toNat - 0x30)
  else if 'a' ≤ c && c ≤ 'f' then some (c.toNat - 0x61 + 10)
  else if 'A' ≤ c && c ≤ 'F' then some (c.toNat - 0x41 + 10)
  else none

/-- The code unit that four hexadecimal digits at the start of a text stand for. -/
def hexUnit? : Text → Option Nat
  | a :: b :: c :: d :: _ => do
    some ((((← hexValue? a) * 16 + (← hexValue? b)) * 16 + (← hexValue? c)) * 16 + (← hexValue? d))
  | _ => none

/-- The number that ASCII digits stand for. -/
def digitsValue (digits : Text) : Nat :=
  digits.foldl (fun value c => value * 10 + (c.toNat - 0x30)) 0

/-- A refusal inside a text: the part of the text that it points at, or a fault of a value. -/
inductive Refusal
  | here (rest : Text)
  | value (fault : ValueFault)

/-- Refuses a text, pointing at its rest. -/
def refuse {α : Type} (rest : Text) : Except Refusal α := .error (.here rest)

/-- The character after a backslash, other than `u`. -/
def escape? : Char → Option Char
  | '"' => some '"'
  | '\\' => some '\\'
  | '/' => some '/'
  | 'b' => some (Char.ofNat 0x8)
  | 'f' => some (Char.ofNat 0xc)
  | 'n' => some '\n'
  | 'r' => some '\r'
  | 't' => some '\t'
  | _ => none

/-- The code unit of a `\u` escape at the start of `text` and the text behind it. -/
def unitEscape? : Text → Option (Nat × Text)
  | '\\' :: 'u' :: digits => (hexUnit? digits).map fun unit => (unit, digits.drop 4)
  | _ => none

def isHighSurrogate (unit : Nat) : Bool := 0xd800 ≤ unit && unit < 0xdc00

def isLowSurrogate (unit : Nat) : Bool := 0xdc00 ≤ unit && unit < 0xe000

/-- The character of a code unit on its own; half a pair becomes the replacement character. -/
def unitChar (unit : Nat) : Char :=
  if isHighSurrogate unit || isLowSurrogate unit then Char.ofNat 0xfffd else Char.ofNat unit

/-- The character of a pair of halves. -/
def pairChar (high low : Nat) : Char :=
  Char.ofNat (0x10000 + (high - 0xd800) * 0x400 + (low - 0xdc00))

/-- The rest of a string, `opening` being the text from its first quote on and `reversed` what has
been read of it. `fuel` bounds the length of the text. -/
def readString (opening : Text) : (fuel : Nat) → (reversed : Text) → Text →
    Except Refusal (Text × Text)
  | 0, _, _ => refuse opening
  | _ + 1, _, [] => refuse opening
  | _ + 1, reversed, '"' :: rest => .ok (reversed.reverse, rest)
  | _ + 1, _, ['\\'] => refuse opening
  | fuel + 1, reversed, '\\' :: 'u' :: rest =>
    match hexUnit? rest, rest.drop 4 with
    | some unit, after@(_ :: _) =>
      let pair := if isHighSurrogate unit && 6 < after.length && after.take 2 == "\\u" then
          some (unitEscape? after) else none
      match pair with
      | some none => refuse (after.drop 1)
      | some (some (low, behind)) =>
        if isLowSurrogate low then readString opening fuel (pairChar unit low :: reversed) behind
        else readString opening fuel (unitChar unit :: reversed) after
      | none => readString opening fuel (unitChar unit :: reversed) after
    | _, _ => refuse ('u' :: rest)
  | fuel + 1, reversed, '\\' :: c :: rest =>
    match escape? c with
    | some escaped => readString opening fuel (escaped :: reversed) rest
    | none => refuse ('\\' :: c :: rest)
  | fuel + 1, reversed, c :: rest =>
    if c.toNat < 0x20 then refuse (c :: rest) else readString opening fuel (c :: reversed) rest

/-- The integer part at the start of a text: a zero, or digits that start with another one. -/
def integerPart : Text → Text
  | '0' :: _ => ['0']
  | text => text.takeWhile isDigit

/-- The digits after a point at the start of a text. -/
def fractionPart : Text → Text
  | '.' :: rest => rest.takeWhile isDigit
  | _ => []

/-- The sign and digits of an exponent at the start of a text. -/
def exponentPart? : Text → Option (Bool × Text × Text)
  | e :: rest =>
    if e == 'e' || e == 'E' then
      let (negative, rest) := match rest with
        | '-' :: rest => (true, rest)
        | '+' :: rest => (false, rest)
        | rest => (false, rest)
      let digits := rest.takeWhile isDigit
      if digits.isEmpty then none else some (negative, digits, rest.drop digits.length)
    else none
  | [] => none

/-- A number at the start of a text. -/
def readNumber (text : Text) : Except Refusal (Scalar × Text) :=
  let (negative, unsigned) := match text with
    | '-' :: rest => (true, rest)
    | _ => (false, text)
  let whole := integerPart unsigned
  if whole.isEmpty then refuse text
  else
    let afterWhole := unsigned.drop whole.length
    let fraction := fractionPart afterWhole
    let afterFraction :=
      if fraction.isEmpty then afterWhole else afterWhole.drop (fraction.length + 1)
    match exponentPart? afterFraction with
    | some (negativeExponent, digits, rest) =>
      let size : Int := if negativeExponent then -(digitsValue digits : Int) else digitsValue digits
      .ok (.float (.ofDecimal negative (digitsValue (whole ++ fraction)) (size - fraction.length)),
        rest)
    | none =>
      if fraction.isEmpty then
        if Text.digitLimit < whole.length then .error (.value (.longNumber whole.length))
        else
          let size := digitsValue whole
          .ok (.int (if negative then -(size : Int) else size), afterWhole)
      else .ok (.float (.ofDecimal negative (digitsValue (whole ++ fraction)) (-fraction.length)),
        afterFraction)

/-- The words that stand for scalars. -/
def words : List (Text × Scalar) :=
  [("null", .null), ("true", .bool true), ("false", .bool false), ("NaN", .float .nan),
    ("Infinity", .float (.infinite false)), ("-Infinity", .float (.infinite true))]

/-- A word or a number at the start of a text. -/
def readPlain (text : Text) : Except Refusal (Scalar × Text) :=
  match words.find? fun word => word.1.isPrefixOf text with
  | some word => .ok (word.2, text.drop word.1.length)
  | none => readNumber text

mutual

/-- A value at the start of a text, with at most `levels` sequences and mappings around each other.
`fuel` bounds twice the length of the text. -/
def readValue : (fuel levels : Nat) → Text → Except Refusal (Value × Text)
  | 0, _, text => refuse text
  | fuel + 1, levels, text => match text with
    | '"' :: rest => do
      let (chars, last) ← readString text (rest.length + 1) [] rest
      .ok (.text chars, last)
    | '[' :: rest =>
      match levels with
      | 0 => .error (.value (.nested false))
      | levels + 1 =>
        match skipSpace rest with
        | ']' :: last => .ok (.list [], last)
        | first => do
          let (items, last) ← readItems fuel levels first
          .ok (.list items, last)
    | '\x7b' :: rest =>
      match levels with
      | 0 => .error (.value (.nested true))
      | levels + 1 =>
        match skipSpace rest with
        | '\x7d' :: last => .ok (.map [], last)
        | first => do
          let (fields, last) ← readFields fuel levels first
          .ok (.map (Fields.ofEntries fields), last)
    | _ => do
      let (value, last) ← readPlain text
      .ok (.scalar value, last)

/-- The items of a sequence up to its closing bracket, at least one. -/
def readItems : (fuel levels : Nat) → Text → Except Refusal (List Value × Text)
  | 0, _, text => refuse text
  | fuel + 1, levels, text => do
    let (item, rest) ← readValue fuel levels text
    match skipSpace rest with
    | ']' :: last => .ok ([item], last)
    | ',' :: rest =>
      let (items, last) ← readItems fuel levels (skipSpace rest)
      .ok (item :: items, last)
    | rest => refuse rest

/-- The entries of a mapping up to its closing brace, at least one. -/
def readFields : (fuel levels : Nat) → Text → Except Refusal (List (Scalar × Value) × Text)
  | 0, _, text => refuse text
  | fuel + 1, levels, text => match text with
    | '"' :: rest => do
      let (key, rest) ← readString text (rest.length + 1) [] rest
      match skipSpace rest with
      | ':' :: rest =>
        let (value, rest) ← readValue fuel levels (skipSpace rest)
        match skipSpace rest with
        | '\x7d' :: last => .ok ([(.text key, value)], last)
        | ',' :: rest =>
          let (fields, last) ← readFields fuel levels (skipSpace rest)
          .ok ((.text key, value) :: fields, last)
        | rest => refuse rest
      | rest => refuse rest
    | _ => refuse text

end

/-- The value of a whole text with at most `levels` sequences and mappings around each other. -/
def readWithin (levels : Nat) (text : Text) : Except Fault Value :=
  let refusal := fun (rest : Text) => Fault.malformed (text.length - rest.length)
  match readValue (2 * text.length + 2) levels (skipSpace text) with
  | .error (.value fault) => .error (.value fault)
  | .error (.here rest) => .error (refusal rest)
  | .ok (value, rest) =>
    match skipSpace rest with
    | [] => .ok value
    | rest => .error (refusal rest)

/-- The value of a whole text. -/
def read (text : Text) : Except Fault Value := readWithin text.length text

/-- One character inside a string. -/
def quoteChar (c : Char) : Text :=
  if c == '"' then "\\\""
  else if c == '\\' then "\\\\"
  else if c.toNat < 0x20 then
    "\\u00" ++ [Nat.digitChar (c.toNat / 16), Nat.digitChar (c.toNat % 16)]
  else [c]

/-- A text as a JSON string. -/
def quote (text : Text) : Text := '"' :: text.flatMap quoteChar ++ ['"']

/-- A scalar as a JSON value. -/
def writeScalar : Scalar → Text
  | .null => "null"
  | .bool value => if value then "true" else "false"
  | .int value => Text.ofInt value
  | .float .nan => "NaN"
  | .float (.infinite negative) => Binary64.signText negative ++ "Infinity"
  | .float value => value.text
  | .text value => quote value
  | .date value => quote value.text
  | .moment value => quote value.text

/-- A scalar as a key: a text as it is, all else as it is written. -/
def writeKey : Scalar → Text
  | .text value => quote value
  | .date value => quote value.text
  | .moment value => quote value.text
  | key => quote (writeScalar key)

mutual

/-- A value as a JSON text without spaces. -/
def write : Value → Text
  | .scalar value => writeScalar value
  | .list items => '[' :: writeItems items ++ [']']
  | .map fields => '\x7b' :: writeFields fields ++ ['\x7d']

def writeItems : List Value → Text
  | [] => []
  | [item] => write item
  | item :: rest => write item ++ "," ++ writeItems rest

def writeFields : List (Scalar × Value) → Text
  | [] => []
  | [(key, value)] => writeKey key ++ ":" ++ write value
  | (key, value) :: rest => writeKey key ++ ":" ++ write value ++ "," ++ writeFields rest

end

end Json

end Scaffold
