import Scaffold.Document.Yaml.Token

/-!
# Nodes

The tree that a row of tokens stands for. Scalars keep their text and whether they were quoted; what
they mean is decided later. Aliases are replaced by the nodes that they name. Tokens are taken one
after the other: where the row is broken off, its fault counts unless a token in front does not fit.
-/

namespace Scaffold

namespace Yaml

/-- The tag of a node: none, the mark without a name, or a name. -/
abbrev Tag := Option (Option Text)

/-- A scalar, a sequence or a mapping as it is written. -/
inductive Node
  | scalar (tag : Tag) (text : Text) (plain : Bool)
  | sequence (tag : Tag) (items : List Node)
  | mapping (tag : Tag) (entries : List (Node × Node))

/-- The tokens that are left, the names that are taken, and the nodes that have names. -/
structure Reading where
  tokens : List Token
  names : List Text := []
  anchors : List (Text × Node) := []

/-- Refuses the first of some tokens, or says why there is none. -/
def unexpected {α : Type} : List Token → Lexing α
  | .broken fault :: _ => .error (.value fault)
  | _ => malformed

namespace Node

/-- The node where nothing stands. -/
def empty : Node := scalar none [] true

/-- The anchor and tag in front of a node, in either order. -/
def properties : List Token → Option Text × Tag × List Token
  | .anchor name :: .tag tag :: rest => (some name, some tag, rest)
  | .anchor name :: rest => (some name, none, rest)
  | .tag tag :: .anchor name :: rest => (some name, some tag, rest)
  | .tag tag :: rest => (none, some tag, rest)
  | tokens => (none, none, tokens)

/-- Takes a name for a node that begins here. The name must be new. -/
def begin (anchor : Option Text) (reading : Reading) : Lexing Reading :=
  match anchor, reading.tokens with
  | _, .broken fault :: _ => .error (.value fault)
  | none, _ => .ok reading
  | some name, _ =>
    if reading.names.contains name then malformed
    else .ok { reading with names := name :: reading.names }

/-- Gives a node the name that has been taken for it. -/
def name (anchor : Option Text) (node : Node) (reading : Reading) : Node × Reading :=
  match anchor with
  | none => (node, reading)
  | some name => (node, { reading with anchors := (name, node) :: reading.anchors })

/-- The empty scalar where nothing stands behind an anchor or tag; without these there has to be
something. -/
def nothing (anchor : Option Text) (tag : Tag) (reading : Reading) : Lexing (Node × Reading) :=
  if anchor.isSome || tag.isSome then .ok (name anchor (scalar tag [] (tag == none)) reading)
  else unexpected reading.tokens

/-- Whether the next token is one of the given ones. -/
def atToken (reading : Reading) (tokens : List Token) : Bool :=
  reading.tokens.head?.any tokens.contains

mutual

/-- A node. Block collections count only if `block`, sequences at the column of their key only if
`indentless`. -/
def read : (fuel : Nat) → (block indentless : Bool) → Reading → Lexing (Node × Reading)
  | 0, _, _, _ => malformed
  | fuel + 1, block, indentless, reading =>
    match reading.tokens with
    | .alias name :: rest =>
      match reading.anchors.lookup name with
      | some node => .ok (node, { reading with tokens := rest })
      | none => malformed
    | tokens => do
      let (anchor, tag, tokens) := properties tokens
      let reading ← begin anchor { reading with tokens := tokens }
      let inside : List Token → Reading := fun rest => { reading with tokens := rest }
      match tokens with
      | .scalar text plain :: rest => .ok (name anchor (scalar tag text plain) (inside rest))
      | .flowSequence :: rest => do
        let (items, reading) ← flowItems fuel true (inside rest)
        .ok (name anchor (sequence tag items) reading)
      | .flowMapping :: rest => do
        let (entries, reading) ← flowEntries fuel true (inside rest)
        .ok (name anchor (mapping tag entries) reading)
      | .entry :: _ =>
        if indentless then do
          let (items, reading) ← blockItems fuel true reading
          .ok (name anchor (sequence tag items) reading)
        else nothing anchor tag reading
      | .blockSequence :: rest =>
        if block then do
          let (items, reading) ← blockItems fuel false (inside rest)
          .ok (name anchor (sequence tag items) reading)
        else nothing anchor tag reading
      | .blockMapping :: rest =>
        if block then do
          let (entries, reading) ← blockEntries fuel (inside rest)
          .ok (name anchor (mapping tag entries) reading)
        else nothing anchor tag reading
      | _ => nothing anchor tag reading

/-- A node unless one of the given tokens comes next. -/
def readUnless : (fuel : Nat) → (block indentless : Bool) → (closing : List Token) → Reading →
    Lexing (Node × Reading)
  | 0, _, _, _, _ => malformed
  | fuel + 1, block, indentless, closing, reading =>
    if atToken reading closing then .ok (empty, reading) else read fuel block indentless reading

/-- The items of a block sequence. One at the column of its key has no closing token. -/
def blockItems : (fuel : Nat) → (indentless : Bool) → Reading → Lexing (List Node × Reading)
  | 0, _, _ => malformed
  | fuel + 1, indentless, reading =>
    match reading.tokens with
    | .entry :: rest => do
      let closing : List Token :=
        if indentless then [.entry, .key, .value, .blockEnd] else [.entry, .blockEnd]
      let (item, reading) ← readUnless fuel true false closing { reading with tokens := rest }
      let (items, reading) ← blockItems fuel indentless reading
      .ok (item :: items, reading)
    | .blockEnd :: rest =>
      .ok ([], if indentless then reading else { reading with tokens := rest })
    | tokens => if indentless then .ok ([], reading) else unexpected tokens

/-- The entries of a block mapping. -/
def blockEntries : (fuel : Nat) → Reading → Lexing (List (Node × Node) × Reading)
  | 0, _ => malformed
  | fuel + 1, reading =>
    match reading.tokens with
    | .blockEnd :: rest => .ok ([], { reading with tokens := rest })
    | .key :: rest => do
      let (key, reading) ←
        readUnless fuel true true [.key, .value, .blockEnd] { reading with tokens := rest }
      let (value, reading) ← blockValue fuel reading
      let (entries, reading) ← blockEntries fuel reading
      .ok ((key, value) :: entries, reading)
    | tokens => unexpected tokens

/-- The value of an entry of a block mapping. -/
def blockValue : (fuel : Nat) → Reading → Lexing (Node × Reading)
  | 0, _ => malformed
  | fuel + 1, reading =>
    match reading.tokens with
    | .value :: rest =>
      readUnless fuel true true [.key, .value, .blockEnd] { reading with tokens := rest }
    | _ => .ok (empty, reading)

/-- The items of a flow sequence. An item may be a mapping of one entry. -/
def flowItems : (fuel : Nat) → (first : Bool) → Reading → Lexing (List Node × Reading)
  | 0, _, _ => malformed
  | fuel + 1, first, reading =>
    match reading.tokens, first with
    | .flowSequenceEnd :: rest, _ => .ok ([], { reading with tokens := rest })
    | .comma :: rest, false =>
      if atToken { reading with tokens := rest } [.flowSequenceEnd] then
        flowItems fuel false { reading with tokens := rest }
      else flowItem fuel { reading with tokens := rest }
    | _, true => flowItem fuel reading
    | tokens, false => unexpected tokens

/-- An item of a flow sequence with the items behind it. -/
def flowItem : (fuel : Nat) → Reading → Lexing (List Node × Reading)
  | 0, _ => malformed
  | fuel + 1, reading =>
    match reading.tokens with
    | .key :: rest => do
      let (key, reading) ← readUnless fuel false false [.value, .comma, .flowSequenceEnd]
        { reading with tokens := rest }
      let (value, reading) ← flowValue fuel [.comma, .flowSequenceEnd] reading
      let (items, reading) ← flowItems fuel false reading
      .ok (mapping none [(key, value)] :: items, reading)
    | _ => do
      let (item, reading) ← read fuel false false reading
      let (items, reading) ← flowItems fuel false reading
      .ok (item :: items, reading)

/-- The value of an entry in a flow collection. -/
def flowValue : (fuel : Nat) → (closing : List Token) → Reading → Lexing (Node × Reading)
  | 0, _, _ => malformed
  | fuel + 1, closing, reading =>
    match reading.tokens with
    | .value :: rest => readUnless fuel false false closing { reading with tokens := rest }
    | _ => .ok (empty, reading)

/-- The entries of a flow mapping. -/
def flowEntries : (fuel : Nat) → (first : Bool) → Reading → Lexing (List (Node × Node) × Reading)
  | 0, _, _ => malformed
  | fuel + 1, first, reading =>
    match reading.tokens, first with
    | .flowMappingEnd :: rest, _ => .ok ([], { reading with tokens := rest })
    | .comma :: rest, false =>
      if atToken { reading with tokens := rest } [.flowMappingEnd] then
        flowEntries fuel false { reading with tokens := rest }
      else flowEntry fuel { reading with tokens := rest }
    | _, true => flowEntry fuel reading
    | tokens, false => unexpected tokens

/-- An entry of a flow mapping with the entries behind it. -/
def flowEntry : (fuel : Nat) → Reading → Lexing (List (Node × Node) × Reading)
  | 0, _ => malformed
  | fuel + 1, reading =>
    match reading.tokens with
    | .key :: rest => do
      let (key, reading) ← readUnless fuel false false [.value, .comma, .flowMappingEnd]
        { reading with tokens := rest }
      let (value, reading) ← flowValue fuel [.comma, .flowMappingEnd] reading
      let (entries, reading) ← flowEntries fuel false reading
      .ok ((key, value) :: entries, reading)
    | _ => do
      let (key, reading) ← read fuel false false reading
      let (entries, reading) ← flowEntries fuel false reading
      .ok ((key, empty) :: entries, reading)

end

/-- The tokens behind the directives in front of a document. Its version may be given once. -/
def skipDirectives : (seen : Bool) → List Token → Lexing (List Token)
  | seen, .directive none :: rest => skipDirectives seen rest
  | seen, .directive (some supported) :: rest =>
    if seen || !supported then malformed else skipDirectives true rest
  | _, tokens => .ok tokens

/-- Whether a document starts with a mark of its own. -/
def isExplicit : List Token → Bool
  | .directive _ :: _ => true
  | .documentStart :: _ => true
  | _ => false

/-- Whether nothing stands between the mark of a document's start and what comes next. -/
def isBlank : List Token → Bool
  | [] => true
  | .directive _ :: _ => true
  | .documentStart :: _ => true
  | .documentEnd :: _ => true
  | _ => false

/-- Checks that there is no other document. -/
def checkEnd (tokens : List Token) : Lexing Unit := do
  match tokens.dropWhile (· == .documentEnd) with
  | [] => .ok ()
  | rest => unexpected (← skipDirectives false rest)

/-- The node of a text with one document, nothing for a text without any. -/
def ofTokens (tokens : List Token) : Lexing (Option Node) := do
  let fuel := 3 * tokens.length + 8
  if tokens.isEmpty then return none
  let (node, reading) ←
    if isExplicit tokens then do
      match ← skipDirectives false tokens with
      | .documentStart :: rest =>
        let reading : Reading := { tokens := rest }
        if isBlank rest then .ok (empty, reading) else read fuel true false reading
      | rest => unexpected rest
    else read fuel true false { tokens := tokens }
  checkEnd reading.tokens
  return some node

end Node

end Yaml

end Scaffold
