import Scaffold.Text.Basic

/-!
# Paths

A path is the row of names from the root of the file system. The name `..` stays in a path until it
is followed or resolved. An empty name in front stands for the second slash of a path that was
written with two; it leads nowhere else.
-/

namespace Scaffold

/-- The names on the way from the root. -/
abbrev Path := List Text

/-- The name that goes up. -/
def upName : Text := ".."

namespace Path

/-- The names between slashes; empty ones and single dots do not count. -/
def names (text : Text) : Path :=
  (text.splitOn '/').filter fun name => !(name.isEmpty || name == ['.'])

/-- The path of a text that starts with a slash. Exactly two slashes at its start are kept. -/
def ofAbsolute (text : Text) : Path :=
  if text.startsWith "//" && !text.startsWith "///" then [] :: names text else names text

/-- The path that a text stands for as seen from `base`. -/
def join (base : Path) (text : Text) : Path :=
  if text.startsWith "/" then ofAbsolute text else base ++ names text

/-- The path as a text. -/
def text (path : Path) : Text :=
  match path with
  | [] => "/"
  | [[]] => "//"
  | names => names.flatMap ('/' :: ·)

/-- The last name. -/
def name (path : Path) : Text := path.getLast?.getD []

/-- The path without its last name. -/
def parent (path : Path) : Path := path.dropLast

/-- The place that a name leads to from the place `here`. -/
def enter (here : Path) (name : Text) : Path :=
  if name = upName then here.dropLast
  else if name.isEmpty then here
  else here ++ [name]

/-- The path with every `..` cancelling the name in front of it. -/
def resolve (path : Path) : Path := path.foldl enter []

/-- The ending of the last name from its last dot on, nothing for a dot at either end. -/
def suffix (path : Path) : Text :=
  let stem := (path.name.reverse.dropWhile (· != '.')).drop 1
  let ending := path.name.reverse.takeWhile (· != '.')
  if stem.isEmpty || ending.isEmpty then [] else '.' :: ending.reverse

/-- Whether a text can only stand for a folder: nothing but dots and slashes follows its last
name. -/
def demandsFolder (text : Text) : Bool :=
  match (text.splitOn '/').getLast? with
  | some name => name.isEmpty || name == ['.']
  | none => false

end Path

end Scaffold
