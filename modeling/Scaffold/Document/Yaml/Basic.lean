import Scaffold.Document.Yaml.Node

/-!
# YAML

The value of a YAML text with one document. Scalars without quotes are read as `plainScalar` says,
tags of the common schema decide otherwise, and of two equal keys the later value counts. A document
is read level by level: of several faults the one that lies least deep is reported.

This is not the whole language. A full reader also takes the tags `!!binary`, `!!set`, `!!omap` and
`!!pairs`, handles that `%TAG` declares, and an anchor that is referred to inside its own node; here
such documents are refused. The results about commands and forms use no property of the reader, so
they hold for any other one as well.
-/

namespace Scaffold

namespace Yaml

/-- The scalar that a text stands for under a tag of the common schema. -/
def taggedScalar (name text : Text) : Except Fault Scalar :=
  if name = commonTag ++ "str" then .ok (.text text)
  else if name = commonTag ++ "null" then .ok .null
  else if name = commonTag ++ "bool" then
    match truth? text with
    | some value => .ok (.bool value)
    | none => .error .malformed
  else if name = commonTag ++ "int" then
    match integer? text with
    | some value => value.map .int
    | none => .error .malformed
  else if name = commonTag ++ "float" then
    match float? text, integer? text with
    | some value, _ => value.map .float
    | none, some value => value.map fun n => .float (.ofInt n)
    | none, none => .error .malformed
  else if name = commonTag ++ "timestamp" then
    match timestamp? text with
    | some value => value
    | none => .error .malformed
  else .error .malformed

/-- The scalar that a text stands for under a tag. -/
def scalarOf (tag : Tag) (text : Text) (plain : Bool) : Except Fault Scalar :=
  match tag with
  | none => if plain then plainScalar text else .ok (.text text)
  | some none => plainScalar text
  | some (some name) => taggedScalar name text

/-- Whether a node is the key that merges another mapping into its own. -/
def isMergeKey : Node → Bool
  | .scalar none text true => text = mergeKey
  | _ => false

/-- The key that a node stands for. -/
def keyOf (node : Node) : Except Fault Scalar :=
  match node with
  | .scalar none text true => if text = defaultKey then .ok (.text text) else plainScalar text
  | .scalar tag text plain => scalarOf tag text plain
  | _ => .error .malformed

/-! ## Faults by their depth -/

/-- A fault, and how deep the part that has it lies in a node. -/
structure DeepFault where
  depth : Nat
  fault : Fault

/-- What a node stands for, or its first fault. -/
abbrev Building := Except DeepFault

namespace Building

variable {α β : Type}

/-- A reading of the node itself. -/
def here (reading : Except Fault α) : Building α := reading.mapError (⟨0, ·⟩)

/-- A reading of a part of the node. -/
def inside (building : Building α) : Building α :=
  building.mapError fun fault => { fault with depth := fault.depth + 1 }

/-- Two parts in order. Of two faults the one less deep counts, and of equals the first. -/
def both (first : Building α) (second : Building β) : Building (α × β) :=
  match first, second with
  | .ok a, .ok b => .ok (a, b)
  | .error fault, .ok _ => .error fault
  | .ok _, .error fault => .error fault
  | .error first, .error second => .error (if second.depth < first.depth then second else first)

end Building

/-- Checks that a collection has no tag, or the one of its kind. -/
def checkTag (tag : Tag) (kind : Text) : Building Unit :=
  match tag with
  | some (some name) => if name = commonTag ++ kind then .ok () else .error ⟨0, .malformed⟩
  | _ => .ok ()

namespace Node

/-! ## Merging -/

mutual

/-- Whether a node can be merged into a mapping: it is a mapping, and so is all that it merges. -/
def isMergeable : Node → Bool
  | .mapping _ entries => mergesWell entries
  | _ => false

/-- Whether a merge key can have a node: a mapping, or a sequence of mappings. -/
def isMerge : Node → Bool
  | .mapping _ entries => mergesWell entries
  | .sequence _ items => allMergeable items
  | _ => false

def allMergeable : List Node → Bool
  | [] => true
  | item :: rest => isMergeable item && allMergeable rest

/-- Whether the merge keys of a mapping have what can be merged. -/
def mergesWell : List (Node × Node) → Bool
  | [] => true
  | (key, node) :: rest => (!isMergeKey key || isMerge node) && mergesWell rest

end

/-- Checks the merge keys of a mapping. -/
def checkMerges (entries : List (Node × Node)) : Building Unit :=
  if mergesWell entries then .ok () else .error ⟨0, .malformed⟩

/-! ## Values -/

mutual

/-- The value of a node. -/
def value : Node → Building Value
  | .scalar tag text plain => (Building.here (scalarOf tag text plain)).map .scalar
  | .sequence tag items => do
    checkTag tag "seq"
    (itemValues items).inside.map .list
  | .mapping tag entries => do
    checkTag tag "map"
    let (_, fields) ← ((checkMerges entries).both (entryFields entries)).inside
    return .map (Fields.ofEntries fields)

def itemValues : List Node → Building (List Value)
  | [] => .ok []
  | item :: rest => ((value item).both (itemValues rest)).map fun parts => parts.1 :: parts.2

/-- The fields that the entries of a mapping stand for, those that are merged in first. -/
def entryFields (entries : List (Node × Node)) : Building Fields :=
  ((mergedFields entries).both (ownFields entries)).map fun parts => parts.1 ++ parts.2

/-- The fields that merge keys bring. -/
def mergedFields : List (Node × Node) → Building Fields
  | [] => .ok []
  | (key, node) :: rest =>
    if isMergeKey key then
      ((fieldsToMerge node).both (mergedFields rest)).map fun parts => parts.1 ++ parts.2
    else mergedFields rest

/-- The fields under all other keys. -/
def ownFields : List (Node × Node) → Building Fields
  | [] => .ok []
  | (key, node) :: rest =>
    if isMergeKey key then ownFields rest
    else
      (((Building.here (keyOf key)).both (value node)).both (ownFields rest)).map fun parts =>
        parts.1 :: parts.2

/-- The fields that a node brings to the mapping that merges it. Of several mappings the last one
comes first, so that an earlier one wins. -/
def fieldsToMerge : Node → Building Fields
  | .mapping _ entries => entryFields entries
  | .sequence _ items => itemFields items
  | _ => .ok []

def itemFields : List Node → Building Fields
  | [] => .ok []
  | item :: rest =>
    ((itemFields rest).both (fieldsToMerge item)).map fun parts => parts.1 ++ parts.2

end

end Node

/-- The value of a text with one document, null for a text without any. -/
def read (text : Text) : Except Fault Value := do
  match ← Node.ofTokens (← tokens text) with
  | some node => node.value.mapError (·.fault)
  | none => .ok .null

end Yaml

end Scaffold
