/-!
# Texts

A text is the list of its code points. String literals stand for texts where a text is expected.
The operations cut, join and search texts; `splitLast?_eq_some_append` says that cutting a text at
the last place of a mark loses nothing.
-/

namespace Scaffold

/-- A text is the list of its code points. -/
abbrev Text := List Char

instance : Coe String Text := ⟨String.toList⟩

/-- Whether the code point of `c` lies in one of the closed ranges. -/
def inRanges (ranges : List (Nat × Nat)) (c : Char) : Bool :=
  ranges.any fun range => range.1 ≤ c.toNat && c.toNat ≤ range.2

/-- White space of any kind, line breaks and the information separators included. -/
def isBlank (c : Char) : Bool :=
  let n := c.toNat
  (0x9 ≤ n && n ≤ 0xd) || (0x1c ≤ n && n ≤ 0x20) || n == 0x85 || n == 0xa0 || n == 0x1680 ||
    (0x2000 ≤ n && n ≤ 0x200a) || n == 0x2028 || n == 0x2029 || n == 0x202f || n == 0x205f ||
    n == 0x3000

namespace Text

/-- The parts one after the other, with `separator` between neighbours. -/
def join (separator : Text) : List Text → Text
  | [] => []
  | [part] => part
  | part :: next :: rest => part ++ separator ++ join separator (next :: rest)

/-- The given lines, each with its end. -/
def lines (parts : List Text) : Text := parts.flatMap (· ++ ['\n'])

/-- The pieces of a text between the places of one character; never empty. -/
def splitOn (mark : Char) : Text → List Text
  | [] => [[]]
  | c :: rest =>
    if c = mark then [] :: splitOn mark rest
    else match splitOn mark rest with
      | [] => [[c]]
      | piece :: pieces => (c :: piece) :: pieces

/-- The text without the blanks at its two ends. -/
def trim (text : Text) : Text :=
  ((text.dropWhile isBlank).reverse.dropWhile isBlank).reverse

/-- Whether the text starts with `part`. -/
def startsWith (text part : Text) : Bool := part.isPrefixOf text

/-- What follows `part` if the text starts with it. -/
def after? : (part text : Text) → Option Text
  | [], text => some text
  | _ :: _, [] => none
  | p :: part, c :: text => if p = c then after? part text else none

/-- Whether `part` occurs in the text as a contiguous part. -/
def occursIn (part : Text) : Text → Bool
  | [] => part.isEmpty
  | c :: rest => part.isPrefixOf (c :: rest) || occursIn part rest

/-- The text before the last place of `mark`, and the text from that place on. -/
def splitLast? (mark : Text) : Text → Option (Text × Text)
  | [] => none
  | c :: rest =>
    match splitLast? mark rest with
    | some (before, fromMark) => some (c :: before, fromMark)
    | none => if mark.isPrefixOf (c :: rest) then some ([], c :: rest) else none

/-- The decimal digits of a number. -/
def ofNat (n : Nat) : Text := Nat.toDigits 10 n

/-- The decimal digits of a number, after a minus sign if it is negative. -/
def ofInt : Int → Text
  | .ofNat n => ofNat n
  | .negSucc n => '-' :: ofNat (n + 1)

theorem splitLast?_eq_some_append {mark text before fromMark : Text}
    (h : splitLast? mark text = some (before, fromMark)) : text = before ++ fromMark := by
  induction text generalizing before with
  | nil => simp [splitLast?] at h
  | cons c rest ih =>
    simp only [splitLast?] at h
    split at h
    · next b f hrest =>
      obtain ⟨rfl, rfl⟩ := Prod.mk.injEq .. ▸ Option.some.inj h
      simp [ih hrest]
    · split at h
      · obtain ⟨rfl, rfl⟩ := Prod.mk.injEq .. ▸ Option.some.inj h
        rfl
      · simp at h

end Text

end Scaffold
