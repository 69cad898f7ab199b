import Scaffold.Text.LetterCase

/-!
# Words and letter case

Names are made of words that dashes, underscores and blanks separate. The three conversions
`Text.pascal`, `Text.camel` and `Text.title` see nothing of a text but its words; `Text.snake` goes
the other way on names whose words start with capitals.
-/

namespace Scaffold

/-- Dashes, underscores and blanks separate words. -/
def isSeparator (c : Char) : Bool := c == '-' || c == '_' || isBlank c

namespace Text

/-- The words of a text: its longest parts without separators. -/
def words : Text → List Text
  | [] => []
  | [c] => if isSeparator c then [] else [[c]]
  | c :: next :: rest =>
    if isSeparator c then words (next :: rest)
    else if isSeparator next then [c] :: words (next :: rest)
    else match words (next :: rest) with
      | [] => [[c]]
      | word :: others => (c :: word) :: others

/-- The word with its first character in upper case and the rest as it is. -/
def capitalize : Text → Text
  | [] => []
  | c :: rest => upperChar c ++ rest

/-- The words run together, each one capitalised. -/
def pascal (text : Text) : Text := text.words.flatMap capitalize

/-- The words run together, each one but the first capitalised. -/
def camel (text : Text) : Text :=
  match text.pascal with
  | [] => []
  | c :: rest => lowerChar c ++ rest

/-- The words capitalised, with spaces between them. -/
def title (text : Text) : Text := join " " (text.words.map capitalize)

/-- An ASCII capital as an underscore and the small letter. -/
def snakeChar (c : Char) : Text := if 'A' ≤ c && c ≤ 'Z' then '_' :: lowerChar c else [c]

/-- The name in small letters, an underscore before each former capital but the first. -/
def snake (text : Text) : Text := (text.flatMap snakeChar).dropWhile (· == '_')

end Text

end Scaffold
