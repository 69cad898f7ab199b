import Scaffold.Document.Display
import Scaffold.Endpoint.Basic

/-!
# The catalog of endpoints

Endpoints without repetition, listed under tags. Each place in the lists has a number, counted from
one through all tags; an endpoint with several tags has several numbers. A selection names endpoints
by their numbers.
-/

namespace Scaffold

/-- Why a selection of names or endpoints is refused. -/
inductive SelectionError
  | nameMissing
  | nameRestricted (name : Text)
  | nameInvalid (name : Text)
  | indicesInvalid (text : Text)
  | indexInvalid (shown : Text) (count : Nat)
  | nothingSelected
  | layerMissing
  | layerMissingInForm

/-- Endpoints in the order of their first adding, and the keys listed under each tag. -/
structure Catalog where
  endpoints : List Endpoint := []
  tags : List (Text × List EndpointKey) := []

/-- An endpoint with its number and the tag it is listed under. -/
structure Numbered where
  index : Nat
  tag : Text
  endpoint : Endpoint

/-- Which endpoints of a catalog are meant. -/
inductive Selection
  | all
  | these (indices : List Scalar)

namespace Catalog

/-- The endpoint that is stored under a key. -/
def find? (catalog : Catalog) (key : EndpointKey) : Option Endpoint :=
  catalog.endpoints.find? fun endpoint => endpoint.key == key

/-- Lists a key under a tag, unless it stands there. -/
def tagKey (key : EndpointKey) : List (Text × List EndpointKey) → Text →
    List (Text × List EndpointKey)
  | [], tag => [(tag, [key])]
  | (name, keys) :: rest, tag =>
    if name = tag then (name, if keys.contains key then keys else keys ++ [key]) :: rest
    else (name, keys) :: tagKey key rest tag

/-- Adds an endpoint under tags. An endpoint with a key that is there is not stored again. -/
def add (catalog : Catalog) (endpoint : Endpoint) (tags : List Text) : Catalog where
  endpoints :=
    if (catalog.find? endpoint.key).isSome then catalog.endpoints
    else catalog.endpoints ++ [endpoint]
  tags := tags.foldl (tagKey endpoint.key) catalog.tags

/-- The endpoints under each tag. -/
def byTag (catalog : Catalog) : List (Text × List Endpoint) :=
  catalog.tags.map fun entry => (entry.1, entry.2.filterMap catalog.find?)

/-- All places in the lists, tag by tag. -/
def places (catalog : Catalog) : List (Text × EndpointKey) :=
  catalog.tags.flatMap fun entry => entry.2.map fun key => (entry.1, key)

/-- The endpoints in the order of the lists, numbered from one. -/
def numbered (catalog : Catalog) : List Numbered :=
  (catalog.places.zipIdx 1).filterMap fun place =>
    (catalog.find? place.1.2).map fun endpoint => ⟨place.2, place.1.1, endpoint⟩

/-- The endpoint with the number that a scalar stands for. -/
def atIndex? (catalog : Catalog) (index : Scalar) : Option Endpoint :=
  (catalog.numbered.find? fun entry => (Scalar.int entry.index).sameKey index).map (·.endpoint)

/-- Adds an endpoint to a selection unless one of the same key is there. -/
def select1 (selected : List Endpoint) (endpoint : Endpoint) : List Endpoint :=
  if selected.any fun other => other.key == endpoint.key then selected else selected ++ [endpoint]

/-- The endpoints with the given numbers, each key at its first place. -/
def resolve (catalog : Catalog) (indices : List Scalar) :
    Except SelectionError (List Endpoint) :=
  indices.foldlM (fun selected index =>
    match catalog.atIndex? index with
    | none => .error (.indexInvalid index.display catalog.numbered.length)
    | some endpoint => .ok (select1 selected endpoint)) []

/-- The endpoints of a selection; there has to be one. -/
def select (catalog : Catalog) (selection : Selection) : Except SelectionError (List Endpoint) := do
  let indices := match selection with
    | .all => catalog.numbered.map fun entry => Scalar.int entry.index
    | .these indices => indices
  match ← catalog.resolve indices with
  | [] => .error .nothingSelected
  | selected => .ok selected

end Catalog

end Scaffold
