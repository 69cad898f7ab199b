import Scaffold.Document.Fault
import Scaffold.Text.Terminal
import Scaffold.Text.Utf8
import Scaffold.Tree.Basic

/-!
# Work on files

Steps that read and change a file tree, show texts to the user, and may fail. A step that fails
keeps what it has already changed and shown. What is shown is free of marks for a terminal, except
for what the user has typed.
-/

namespace Scaffold

/-- A text that is shown to the user, as output or as a warning. -/
structure Shown where
  isWarning : Bool
  text : Text

/-- The tree and what has been shown so far. -/
structure Desk where
  tree : Tree
  shown : List Shown := []

namespace Desk

/-- Puts one more text on the output as it is. -/
def echo (desk : Desk) (text : Text) : Desk :=
  { desk with shown := desk.shown ++ [⟨false, text⟩] }

/-- Shows one more text, without marks for a terminal. -/
def tell (desk : Desk) (text : Text) : Desk := desk.echo text.plain

/-- Shows one more warning, without marks for a terminal. -/
def warn (desk : Desk) (text : Text) : Desk :=
  { desk with shown := desk.shown ++ [⟨true, text.plain⟩] }

/-- All output, one text after the other. -/
def output (desk : Desk) : Text :=
  (desk.shown.filter fun shown => !shown.isWarning).flatMap (·.text)

/-- All warnings, one text after the other. -/
def warnings (desk : Desk) : Text := (desk.shown.filter (·.isWarning)).flatMap (·.text)

end Desk

/-- Why a step fails. Bytes are kept where a text was expected. -/
inductive WorkError
  | file (error : FileError)
  | encoding (bytes : List UInt8)
  | value (fault : ValueFault)

/-- The message for a failed step. -/
def WorkError.message : WorkError → Text
  | file error => error.message
  | encoding bytes => ((EncodingFault.find? bytes).map (·.message)).getD []
  | value fault => fault.message

/-- A step that may fail with an `ε`. -/
abbrev Work (ε : Type) := ExceptT ε (StateM Desk)

namespace Work

variable {ε : Type}

/-- The present tree. -/
def tree : Work ε Tree := do return (← get).tree

/-- Shows a line. -/
def say (text : Text) : Work ε Unit := modify (·.tell (text ++ ['\n']))

/-- Shows a warning on a line of its own. -/
def warn (text : Text) : Work ε Unit := modify (·.warn (text ++ ['\n']))

/-- Puts an entry into the tree. -/
def put (path : Path) (entry : Entry) : Work ε Unit :=
  modify fun desk => { desk with tree := desk.tree.put path entry }

end Work

/-- Every line end of a text as a line feed. -/
def universalNewlines : Text → Text
  | [] => []
  | ['\r'] => ['\n']
  | '\r' :: '\n' :: rest => '\n' :: universalNewlines rest
  | '\r' :: c :: rest => '\n' :: universalNewlines (c :: rest)
  | c :: rest => c :: universalNewlines rest

/-- The text of the file at a path. -/
def Tree.readText (tree : Tree) (path : Path) : Except WorkError Text :=
  match tree.find path with
  | .error obstacle => .error (.file (obstacle.error path))
  | .ok place =>
    match tree.get? place with
    | none => .error (.file (.notFound path))
    | some .folder => .error (.file (.isFolder path))
    | some (.file (.bytes bytes)) => .error (.encoding bytes)
    | some (.file (.text text)) => .ok (universalNewlines text)

/-- An answer about the tree that may fail. -/
def ask {α : Type} (question : Tree → Except FileError α) : Work WorkError α := do
  match question (← Work.tree) with
  | .ok answer => return answer
  | .error error => throw (.file error)

/-- How making one folder can end. -/
inductive FolderMade
  | made (tree : Tree)
  | exists
  | failed (obstacle : Tree.Obstacle)

/-- Makes the folder at a path whose parent is there. -/
def Tree.makeFolder (tree : Tree) (path : Path) : FolderMade :=
  match tree.find path with
  | .error obstacle => .failed obstacle
  | .ok place => if (tree.get? place).isSome then .exists else .made (tree.put place .folder)

/-- Makes the folder at a path, whose parent has been made. -/
def makeLast (path : Path) : Work WorkError Unit := do
  match (← Work.tree).makeFolder path with
  | .made tree => modify fun desk => { desk with tree := tree }
  | .exists => if !(← Work.tree).isFolder path then throw (.file (.exists path))
  | .failed obstacle => throw (.file (obstacle.error path))

/-- Makes the folder at a path given in reverse, with all folders above it. -/
def makeReversed : (reversed : Path) → Work WorkError Unit
  | [] => makeLast []
  | name :: above => do
    let path := (name :: above).reverse
    match (← Work.tree).makeFolder path with
    | .failed .missing => do
      makeReversed above
      makeLast path
    | _ => makeLast path

/-- Makes the folder at a path with all folders above it. A folder that is there is left alone. -/
def makeFolders (path : Path) : Work WorkError Unit := makeReversed path.reverse

/-- Writes a text into the file at a path, whose folder has to be there. -/
def writeText (path : Path) (text : Text) : Work WorkError Unit := do
  let tree ← Work.tree
  match tree.find path with
  | .error obstacle => throw (.file (obstacle.error path))
  | .ok place =>
    match tree.get? place with
    | some .folder => throw (.file (.isFolder path))
    | _ => Work.put place (.file (.text text))

/-- Reads the text of the file at a path. -/
def readText (path : Path) : Work WorkError Text := do
  match (← Work.tree).readText path with
  | .ok text => return text
  | .error error => throw error

end Scaffold
