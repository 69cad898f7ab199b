import Scaffold.Text.Alphanumeric

/-!
# Whole words in source text

Where a name stands as a whole word, and whether it stands there as a member: followed by an opening
parenthesis, a colon or a comma.
-/

namespace Scaffold

/-- Whether exactly one of two neighbours is a word character; an end of the text is none. -/
def isWordEdge (before after : Option Char) : Bool :=
  before.any isWordChar != after.any isWordChar

namespace Text

/-- What follows `word` if the text starts with it and a word edge is on either side; `before` is
the character in front of the text. -/
def afterWord? (word : Text) (before : Option Char) (text : Text) : Option Text := do
  let rest ← after? word text
  if isWordEdge before text.head? && isWordEdge (word.getLast?.or before) rest.head? then
    some rest
  else none

end Text

/-- Whether a text goes on, after blanks, as it does behind the name of a member. -/
def opensMember (text : Text) : Bool :=
  match text.dropWhile isBlank with
  | [] => false
  | c :: _ => c == '(' || c == ':' || c == ','

/-- Whether the text starts with the name as a whole word that goes on as a member. -/
def startsMember (name : Text) (before : Option Char) (text : Text) : Bool :=
  (Text.afterWord? name before text).any opensMember

/-- Whether the name stands as a member anywhere from here on. -/
def hasMemberFrom (name : Text) : Option Char → Text → Bool
  | before, [] => startsMember name before []
  | before, c :: rest => startsMember name before (c :: rest) || hasMemberFrom name (some c) rest

/-- Whether the content declares or calls a member of the given name. -/
def hasMember (content name : Text) : Bool := hasMemberFrom name none content

end Scaffold
