import Scaffold.Text.Quoted
import Scaffold.Tree.Path

/-!
# The file tree

The files and folders that a run reads and changes, each under its path from the root. The laws
`get?_put_self` and `get?_put_of_ne` say what putting an entry changes and what it leaves alone.
Names and paths may have only so many bytes, and none of them a zero.
-/

namespace Scaffold

/-- What a file holds: a text, or bytes that are none. -/
inductive Content
  | text (text : Text)
  | bytes (bytes : List UInt8)
  deriving DecidableEq

/-- The content that bytes stand for: a text if they are the encoding of one. -/
def Content.ofBytes (bytes : ByteArray) : Content :=
  match String.fromUTF8? bytes with
  | some string => .text string.toList
  | none => .bytes bytes.toList

/-- What stands at a path. -/
inductive Entry
  | folder
  | file (content : Content)
  deriving DecidableEq

/-- Files and folders under their paths. The root is a folder and is not listed. -/
structure Tree where
  entries : List (Path × Entry) := []

/-- Why an operation on files fails. -/
inductive FileError
  | notFound (path : Path)
  | exists (path : Path)
  | notFolder (path : Path)
  | isFolder (path : Path)
  | tooLong (path : Path)
  | zeroByte

/-- The message for a failed operation on files. -/
def FileError.message : FileError → Text
  | notFound path => "[Errno 2] No such file or directory: " ++ path.text.quoted
  | .exists path => "[Errno 17] File exists: " ++ path.text.quoted
  | notFolder path => "[Errno 20] Not a directory: " ++ path.text.quoted
  | isFolder path => "[Errno 21] Is a directory: " ++ path.text.quoted
  | tooLong path => "[Errno 36] File name too long: " ++ path.text.quoted
  | zeroByte => "embedded null byte"

namespace Tree

/-- What stands at a path without `..`. -/
def get? (tree : Tree) (path : Path) : Option Entry :=
  match path with
  | [] => some .folder
  | path => tree.entries.lookup path

/-- Puts an entry into a row of entries: a path that is there keeps its place. -/
def putEntry (path : Path) (entry : Entry) : List (Path × Entry) → List (Path × Entry)
  | [] => [(path, entry)]
  | other :: rest =>
    if other.1 = path then (path, entry) :: rest else other :: putEntry path entry rest

/-- Puts an entry at a path without `..`. -/
def put (tree : Tree) (path : Path) (entry : Entry) : Tree :=
  ⟨putEntry path entry tree.entries⟩

/-- Removes what stands at a path and below it. -/
def remove (tree : Tree) (path : Path) : Tree :=
  ⟨tree.entries.filter fun entry => !path.isPrefixOf entry.1⟩

/-- The entries that are new or different in a later tree. -/
def changesTo (before after : Tree) : List (Path × Entry) :=
  after.entries.filter fun entry => before.get? entry.1 != some entry.2

theorem lookup_putEntry_self {path : Path} {entry : Entry} {entries : List (Path × Entry)} :
    (putEntry path entry entries).lookup path = some entry := by
  induction entries with
  | nil => simp [putEntry]
  | cons other rest ih =>
    simp only [putEntry]
    split
    · simp
    · next hne =>
      have hbeq : (path == other.1) = false := by
        simpa using fun h => hne h.symm
      rw [List.lookup_cons, hbeq]
      exact ih

theorem lookup_putEntry_of_ne {path other : Path} {entry : Entry}
    {entries : List (Path × Entry)} (h : other ≠ path) :
    (putEntry path entry entries).lookup other = entries.lookup other := by
  have hne : (other == path) = false := by simpa using h
  induction entries with
  | nil => simp [putEntry, List.lookup_cons, hne]
  | cons first rest ih =>
    obtain ⟨place, old⟩ := first
    simp only [putEntry]
    split
    · next heq =>
      subst heq
      rw [List.lookup_cons, List.lookup_cons, hne]
    · rw [List.lookup_cons, List.lookup_cons, ih]

/-- What is put at a path stands there. -/
theorem get?_put_self {tree : Tree} {path : Path} {entry : Entry} (h : path ≠ []) :
    (tree.put path entry).get? path = some entry := by
  cases path with
  | nil => exact absurd rfl h
  | cons name names => exact lookup_putEntry_self

/-- Putting an entry changes no other path. -/
theorem get?_put_of_ne {tree : Tree} {path other : Path} {entry : Entry} (h : other ≠ path) :
    (tree.put path entry).get? other = tree.get? other := by
  cases other with
  | nil => rfl
  | cons name names => exact lookup_putEntry_of_ne h

/-- Why a path leads nowhere. -/
inductive Obstacle
  | missing
  | notFolder
  | tooLong
  | zeroByte
  deriving DecidableEq

/-- The failure of an operation on a path that leads nowhere. -/
def Obstacle.error (path : Path) : Obstacle → FileError
  | missing => .notFound path
  | notFolder => .notFolder path
  | tooLong => .tooLong path
  | zeroByte => .zeroByte

/-- The bytes that a text takes in a name. -/
def byteCount (text : Text) : Nat := text.foldl (fun count c => count + c.utf8Size) 0

/-- The most bytes that a name may have. -/
def nameLimit : Nat := 255

/-- The most bytes that a path may have. -/
def pathLimit : Nat := 4095

/-- Follows names from a folder, `..` going up. All but the last name have to be folders. -/
def follow (tree : Tree) : (here names : Path) → Except Obstacle Path
  | here, [] => .ok here
  | here, name :: rest =>
    match tree.get? here with
    | none => .error .missing
    | some (.file _) => .error .notFolder
    | some .folder =>
      if nameLimit < byteCount name then .error .tooLong else follow tree (here.enter name) rest

/-- The place that a path leads to. -/
def find (tree : Tree) (path : Path) : Except Obstacle Path :=
  if path.any (·.contains '\x00') then .error .zeroByte
  else if pathLimit < byteCount path.text then .error .tooLong
  else tree.follow [] path

/-- What stands at a path, nothing if it leads nowhere. Asking for too long a name is an error. -/
def look (tree : Tree) (path : Path) : Except FileError (Option Entry) :=
  match tree.find path with
  | .ok place => .ok (tree.get? place)
  | .error .tooLong => .error (.tooLong path)
  | .error _ => .ok none

/-- Whether anything stands at a path. -/
def has (tree : Tree) (path : Path) : Except FileError Bool := (tree.look path).map (·.isSome)

/-- Whether a folder stands at a path. -/
def hasFolder (tree : Tree) (path : Path) : Except FileError Bool :=
  (tree.look path).map (· == some .folder)

/-- Whether a file stands at a path. -/
def isFile (tree : Tree) (path : Path) : Bool :=
  match tree.look path with
  | .ok (some (.file _)) => true
  | _ => false

/-- Whether a folder stands at a path that can be asked for. -/
def isFolder (tree : Tree) (path : Path) : Bool :=
  match tree.look path with
  | .ok (some .folder) => true
  | _ => false

end Tree

end Scaffold
