import Scaffold.Document.Yaml.Plain

/-!
# Tokens

A YAML text as a row of tokens. Indentation becomes tokens that open and close block collections,
and a scalar turns out to be a key when a colon follows it on its line: then the tokens of the key
go in front of it, where `Lexer.keys` remembers its place. Where a character has no code point, the
row ends with a token that says so, behind the tokens that nothing can go in front of any more.
-/

namespace Scaffold

namespace Yaml

/-- The pieces that a YAML text is made of. A directive may say whether its version is supported,
and `broken` is where the row of tokens ends too early. -/
inductive Token
  | directive (supported : Option Bool)
  | documentStart
  | documentEnd
  | blockSequence
  | blockMapping
  | blockEnd
  | flowSequence
  | flowSequenceEnd
  | flowMapping
  | flowMappingEnd
  | entry
  | comma
  | key
  | value
  | alias (name : Text)
  | anchor (name : Text)
  | tag (name : Option Text)
  | scalar (text : Text) (plain : Bool)
  | broken (fault : ValueFault)
  deriving DecidableEq

/-- The characters that end a line. -/
def isBreak (c : Char) : Bool :=
  c == '\n' || c.toNat == 0x85 || c.toNat == 0x2028 || c.toNat == 0x2029

/-- The mark that may stand at the start of a text. -/
def isByteOrderMark (c : Char) : Bool := c.toNat == 0xfeff

/-- The characters that a YAML text may hold. -/
def isAllowed (c : Char) : Bool :=
  let n := c.toNat
  n == 0x9 || n == 0xa || n == 0xd || (0x20 ≤ n && n ≤ 0x7e) || n == 0x85 ||
    (0xa0 ≤ n && n != 0xfffe && n != 0xffff)

/-- The rest of a text and where it starts. -/
structure Cursor where
  rest : Text
  index : Nat := 0
  line : Nat := 0
  column : Nat := 0

namespace Cursor

/-- Behind the next character. -/
def step (cursor : Cursor) : Cursor :=
  match cursor.rest with
  | [] => cursor
  | c :: rest =>
    if isBreak c then ⟨rest, cursor.index + 1, cursor.line + 1, 0⟩
    else
      ⟨rest, cursor.index + 1, cursor.line,
        if isByteOrderMark c then cursor.column else cursor.column + 1⟩

/-- Behind the next `count` characters. -/
def advance : Nat → Cursor → Cursor
  | 0, cursor => cursor
  | count + 1, cursor => advance count cursor.step

/-- Behind the characters of a class. -/
def skip (accepts : Char → Bool) (cursor : Cursor) : Cursor :=
  cursor.advance (cursor.rest.takeWhile accepts).length

def peek? (cursor : Cursor) : Option Char := cursor.rest.head?

/-- Whether the next character is `c`. -/
def startsWith (cursor : Cursor) (c : Char) : Bool := cursor.peek? == some c

/-- Whether the next character ends a line. -/
def atBreak (cursor : Cursor) : Bool := cursor.peek?.any isBreak

end Cursor

/-- Whether a text is at its end, at white space, or at the end of a line. -/
def atGap (text : Text) : Bool :=
  match text with
  | [] => true
  | c :: _ => c == ' ' || c == '\t' || isBreak c

/-- Whether a text is at its end, at a space, or at the end of a line. -/
def atSpaceOrEnd (text : Text) : Bool :=
  match text with
  | [] => true
  | c :: _ => c == ' ' || isBreak c

/-- Whether a line marks the start or the end of a document. -/
def atDocumentMark (text : Text) : Bool :=
  (text.startsWith "---" || text.startsWith "...") && atGap (text.drop 3)

/-- The line end at the start of a text as it counts in a scalar: the usual one is a line feed. -/
def breakText (cursor : Cursor) : Text :=
  match cursor.peek? with
  | some c => if c.toNat == 0x85 then ['\n'] else [c]
  | none => []

/-- A place where a key may turn out to start. -/
structure PossibleKey where
  tokenIndex : Nat
  required : Bool
  index : Nat
  line : Nat
  column : Nat

/-- The state of reading tokens. `indent` is the column of the innermost block collection, `indents`
those around it, and `keys` the possible keys with their depth of flow collections. -/
structure Lexer where
  cursor : Cursor
  tokens : Array Token := #[]
  flowDepth : Int := 0
  indent : Int := -1
  indents : List Int := []
  keyAllowed : Bool := true
  keys : List (Int × PossibleKey) := []

/-- The step of reading that may refuse the text. -/
abbrev Lexing := Except Fault

def malformed {α : Type} : Lexing α := .error .malformed

/-! ## Blanks and comments -/

/-- Behind spaces, comments and line ends; the flag says whether a line end was passed. -/
def toNextToken : (fuel : Nat) → Cursor → Bool → Cursor × Bool
  | 0, cursor, passed => (cursor, passed)
  | fuel + 1, cursor, passed =>
    let cursor := cursor.skip (· == ' ')
    let cursor := if cursor.startsWith '#' then cursor.skip (!isBreak ·) else cursor
    if cursor.atBreak then toNextToken fuel cursor.step true else (cursor, passed)

/-! ## Scalars -/

/-- The characters of a plain scalar up to the next space or mark. -/
def plainChunk (flow : Bool) : Text → Text
  | [] => []
  | c :: rest =>
    if c == ' ' || c == '\t' || isBreak c then []
    else if c == ':' && (atGap rest ||
        (flow && rest.head?.any fun d => d ∈ [',', '[', ']', '\x7b', '\x7d'])) then []
    else if flow && c ∈ [',', '?', '[', ']', '\x7b', '\x7d'] then []
    else c :: plainChunk flow rest

/-- The line ends behind the first one, with the spaces around them skipped. `none` stands for the
mark of a document. -/
def plainBreaks : (fuel : Nat) → Cursor → Text → Cursor × Option Text
  | 0, cursor, breaks => (cursor, some breaks)
  | fuel + 1, cursor, breaks =>
    if cursor.startsWith ' ' then plainBreaks fuel cursor.step breaks
    else if cursor.atBreak then
      let next := cursor.step
      if atDocumentMark next.rest then (next, none)
      else plainBreaks fuel next (breaks ++ breakText cursor)
    else (cursor, some breaks)

/-- A line end and those behind it as they count in a scalar: one line end is a space, of more the
first is dropped. -/
def foldBreaks (first breaks : Text) : Text :=
  if first != ['\n'] then first ++ breaks
  else if breaks.isEmpty then [' ']
  else breaks

/-- What stands between two parts of a plain scalar: spaces, or line ends. The last flag says
whether a line end was passed. -/
def plainSpaces (fuel : Nat) (cursor : Cursor) : Cursor × Text × Bool :=
  let spaces := cursor.rest.takeWhile (· == ' ')
  let behind := cursor.advance spaces.length
  if behind.atBreak then
    let next := behind.step
    if atDocumentMark next.rest then (next, [], true)
    else
      match plainBreaks fuel next [] with
      | (last, none) => (last, [], true)
      | (last, some breaks) => (last, foldBreaks (breakText behind) breaks, true)
  else (behind, spaces, false)

/-- A plain scalar: its text, what comes behind, and whether a key may start there. `reversed` is
what has been read of it. -/
def plainText (flow : Bool) (indent : Int) : (fuel : Nat) → Cursor → (reversed spaces : Text) →
    Bool → Text × Cursor × Bool
  | 0, cursor, reversed, _, keyAllowed => (reversed.reverse, cursor, keyAllowed)
  | fuel + 1, cursor, reversed, spaces, keyAllowed =>
    let chunk := plainChunk flow cursor.rest
    if cursor.startsWith '#' || chunk.isEmpty then (reversed.reverse, cursor, keyAllowed)
    else
      let reversed := chunk.reverse ++ (spaces.reverse ++ reversed)
      let (next, spaces, passed) := plainSpaces fuel (cursor.advance chunk.length)
      if spaces.isEmpty || next.startsWith '#' || (!flow && (next.column : Int) < indent) then
        (reversed.reverse, next, passed)
      else plainText flow indent fuel next reversed spaces passed

/-- The characters that stand for themselves or others behind a backslash. -/
def escapes : List (Char × Nat) :=
  [('0', 0x0), ('a', 0x7), ('b', 0x8), ('t', 0x9), ('\t', 0x9), ('n', 0xa), ('v', 0xb), ('f', 0xc),
    ('r', 0xd), ('e', 0x1b), (' ', 0x20), ('"', 0x22), ('\\', 0x5c), ('/', 0x2f), ('N', 0x85),
    ('_', 0xa0), ('L', 0x2028), ('P', 0x2029)]

/-- The number of hexadecimal digits behind a letter that starts a code point. -/
def codeLength? (c : Char) : Option Nat :=
  if c == 'x' then some 2 else if c == 'u' then some 4 else if c == 'U' then some 8 else none

/-- The greatest code point that an escape may have without being too wide for a character. -/
def widestCode : Nat := Nat.pow 2 31 - 1

/-- The character of an escaped code point. -/
def codeChar (code : Nat) : Lexing Char :=
  if widestCode < code then .error (.value .wideCharacter)
  else if 0x10ffff < code then .error (.value .characterRange)
  else .ok (Json.unitChar code)

/-- The line ends inside a quoted scalar, with the blanks around them skipped. -/
def quotedBreaks : (fuel : Nat) → Cursor → Text → Lexing (Text × Cursor)
  | 0, _, _ => malformed
  | fuel + 1, cursor, breaks =>
    if atDocumentMark cursor.rest then malformed
    else
      let cursor := cursor.skip fun c => c == ' ' || c == '\t'
      if cursor.atBreak then quotedBreaks fuel cursor.step (breaks ++ breakText cursor)
      else .ok (breaks, cursor)

/-- The rest of a quoted scalar, `reversed` being what has been read of it. -/
def quotedText (double : Bool) : (fuel : Nat) → Cursor → (reversed : Text) →
    Lexing (Text × Cursor)
  | 0, _, _ => malformed
  | fuel + 1, cursor, reversed =>
    match cursor.rest with
    | [] => malformed
    | c :: rest =>
      if c == ' ' || c == '\t' || isBreak c then do
        let blanks := cursor.rest.takeWhile fun c => c == ' ' || c == '\t'
        let behind := cursor.advance blanks.length
        if behind.atBreak then
          let (breaks, next) ← quotedBreaks fuel behind.step []
          quotedText double fuel next ((foldBreaks (breakText behind) breaks).reverse ++ reversed)
        else if behind.rest.isEmpty then malformed
        else quotedText double fuel behind (blanks.reverse ++ reversed)
      else if !double && c == '\'' then
        if rest.head? == some '\'' then quotedText double fuel (cursor.advance 2) (c :: reversed)
        else .ok (reversed.reverse, cursor.step)
      else if double && c == '"' then .ok (reversed.reverse, cursor.step)
      else if double && c == '\\' then
        match rest with
        | [] => malformed
        | e :: digits =>
          match escapes.lookup e, codeLength? e with
          | some code, _ => quotedText double fuel (cursor.advance 2) (Char.ofNat code :: reversed)
          | none, some count =>
            let hex := digits.take count
            if hex.length = count && hex.all fun c => (Json.hexValue? c).isSome then do
              let c ← codeChar (valueIn 16 hex)
              quotedText double fuel (cursor.advance (2 + count)) (c :: reversed)
            else malformed
          | none, none =>
            if isBreak e then do
              let (breaks, next) ← quotedBreaks fuel (cursor.advance 2) []
              quotedText double fuel next (breaks.reverse ++ reversed)
            else malformed
      else quotedText double fuel cursor.step (c :: reversed)

/-- How a block scalar treats its last line ends. -/
inductive Chomping
  | clip
  | strip
  | keep
  deriving DecidableEq

def chomping? (c : Char) : Option Chomping :=
  if c == '+' then some .keep else if c == '-' then some .strip else none

/-- A digit other than zero. -/
def increment? (c : Char) : Option Nat :=
  if '1' ≤ c && c ≤ '9' then some (c.toNat - 0x30) else none

/-- The marks behind the sign of a block scalar: chomping and indentation in either order. -/
def blockMarks (cursor : Cursor) : Lexing (Chomping × Option Nat × Cursor) :=
  let first := cursor.peek?
  let second := cursor.step.peek?
  let (chomping, increment, count) : Chomping × Option Nat × Nat :=
    match first.bind chomping?, first.bind increment? with
    | some chomping, _ =>
      match second.bind increment? with
      | some increment => (chomping, some increment, 2)
      | none => (chomping, none, 1)
    | none, some increment =>
      match second.bind chomping? with
      | some chomping => (chomping, some increment, 2)
      | none => (.clip, some increment, 1)
    | none, none => (.clip, none, 0)
  let cursor := cursor.advance count
  if atSpaceOrEnd cursor.rest then .ok (chomping, increment, cursor) else malformed

/-- Behind the rest of a line that holds nothing but spaces and a comment. -/
def ignoredLine (cursor : Cursor) : Lexing Cursor :=
  let cursor := cursor.skip (· == ' ')
  let cursor := if cursor.startsWith '#' then cursor.skip (!isBreak ·) else cursor
  if cursor.rest.isEmpty then .ok cursor
  else if cursor.atBreak then .ok cursor.step
  else malformed

/-- The empty lines in front of a block scalar and the greatest column that its spaces reach. -/
def blockIndentation : (fuel : Nat) → Cursor → (breaks : Text) → (greatest : Nat) →
    Text × Nat × Cursor
  | 0, cursor, breaks, greatest => (breaks, greatest, cursor)
  | fuel + 1, cursor, breaks, greatest =>
    if cursor.startsWith ' ' then
      blockIndentation fuel cursor.step breaks (max greatest cursor.step.column)
    else if cursor.atBreak then
      blockIndentation fuel cursor.step (breaks ++ breakText cursor) greatest
    else (breaks, greatest, cursor)

/-- Behind the spaces up to a column. -/
def toColumn (indent : Nat) : (fuel : Nat) → Cursor → Cursor
  | 0, cursor => cursor
  | fuel + 1, cursor =>
    if cursor.column < indent && cursor.startsWith ' ' then toColumn indent fuel cursor.step
    else cursor

/-- The empty lines inside a block scalar. -/
def blockBreaks (indent : Nat) : (fuel : Nat) → Cursor → (breaks : Text) → Text × Cursor
  | 0, cursor, breaks => (breaks, cursor)
  | fuel + 1, cursor, breaks =>
    let cursor := toColumn indent indent cursor
    if cursor.atBreak then blockBreaks indent fuel cursor.step (breaks ++ breakText cursor)
    else (breaks, cursor)

/-- Whether the next character is neither a space nor a tab. -/
def leadsWithText (cursor : Cursor) : Bool :=
  !(cursor.startsWith ' ' || cursor.startsWith '\t')

/-- The lines of a block scalar: the text, the last line end, the empty lines behind it. `reversed`
is what has been read of it. -/
def blockLines (folded : Bool) (indent : Nat) : (fuel : Nat) → Cursor → (breaks reversed : Text) →
    (lineEnd : Text) → Text × Text × Text × Cursor
  | 0, cursor, breaks, reversed, lineEnd => (reversed.reverse, lineEnd, breaks, cursor)
  | fuel + 1, cursor, breaks, reversed, lineEnd =>
    if cursor.column != indent || cursor.rest.isEmpty then
      (reversed.reverse, lineEnd, breaks, cursor)
    else
      let leading := leadsWithText cursor
      let line := cursor.rest.takeWhile (!isBreak ·)
      let atEnd := cursor.advance line.length
      let reversed := line.reverse ++ (breaks.reverse ++ reversed)
      let lineEnd := breakText atEnd
      let (breaks, next) := blockBreaks indent fuel atEnd.step []
      if next.column == indent && !next.rest.isEmpty then
        let joint :=
          if folded && lineEnd == ['\n'] && leading && leadsWithText next then
            (if breaks.isEmpty then [' '] else [])
          else lineEnd
        blockLines folded indent fuel next breaks (joint.reverse ++ reversed) lineEnd
      else (reversed.reverse, lineEnd, breaks, next)

/-- A block scalar behind its sign. -/
def blockText (folded : Bool) (parent : Int) (fuel : Nat) (cursor : Cursor) :
    Lexing (Text × Cursor) := do
  let (chomping, increment, cursor) ← blockMarks cursor
  let cursor ← ignoredLine cursor
  let least := (max (parent + 1) 1).toNat
  let (breaks, indent, cursor) :=
    match increment with
    | some increment =>
      let indent := least + increment - 1
      let (breaks, cursor) := blockBreaks indent fuel cursor []
      (breaks, indent, cursor)
    | none =>
      let (breaks, greatest, cursor) := blockIndentation fuel cursor [] 0
      (breaks, max least greatest, cursor)
  let (text, lineEnd, breaks, cursor) := blockLines folded indent fuel cursor breaks [] []
  match chomping with
  | .strip => .ok (text, cursor)
  | .clip => .ok (text ++ lineEnd, cursor)
  | .keep => .ok (text ++ lineEnd ++ breaks, cursor)

/-! ## Names -/

def isNameChar (c : Char) : Bool :=
  isDigit c || ('A' ≤ c && c ≤ 'Z') || ('a' ≤ c && c ≤ 'z') || c == '-' || c == '_'

/-- The name behind the sign of an anchor or alias. -/
def anchorName (cursor : Cursor) : Lexing (Text × Cursor) :=
  let name := cursor.rest.takeWhile isNameChar
  let behind := cursor.advance name.length
  let closed := atGap behind.rest ||
    behind.rest.head?.any fun c => c ∈ ['?', ':', ',', ']', '\x7d', '%', '@', Char.ofNat 0x60]
  if name.isEmpty || !closed then malformed else .ok (name, behind)

/-- The characters of a tag. -/
def isTagChar (c : Char) : Bool :=
  isNameChar c || c ∈ [';', '/', '?', ':', '@', '&', '=', '+', '$', ',', '.', '!', '~', '*', '\'',
    '(', ')', '[', ']', '%']

/-- What the tags of the common schema start with. -/
def commonTag : Text := "tag:yaml.org,2002:"

/-- The name of a tag behind its first sign; none stands for the mark without a name. -/
def tagName (cursor : Cursor) : Lexing (Option Text × Cursor) :=
  let finish (stem : Text) (start : Cursor) (closing : Nat) : Lexing (Option Text × Cursor) :=
    let name := start.rest.takeWhile isTagChar
    let behind := start.advance (name.length + closing)
    if name.isEmpty || !atSpaceOrEnd behind.rest then malformed
    else .ok (some (stem ++ name), behind)
  match cursor.rest with
  | '<' :: rest =>
    if Text.startsWith (rest.dropWhile isTagChar) ">" then finish [] cursor.step 1 else malformed
  | '!' :: _ => finish commonTag cursor.step 0
  | rest =>
    if atGap rest then (if atSpaceOrEnd rest then .ok (none, cursor) else malformed)
    else if (rest.takeWhile fun c => !(c == ' ' || isBreak c)).contains '!' then malformed
    else finish "!" cursor 0

/-- A number in a version, and what comes behind. -/
def versionNumber (cursor : Cursor) : Lexing (Nat × Cursor) := do
  let digits := cursor.rest.takeWhile isDigit
  if digits.isEmpty then malformed
  return (← decimal digits, cursor.advance digits.length)

/-- A directive at the start of a line, behind its sign. -/
def directiveLine (cursor : Cursor) : Lexing (Token × Cursor) := do
  let name := cursor.rest.takeWhile isNameChar
  let behind := cursor.advance name.length
  if name.isEmpty || !atSpaceOrEnd behind.rest then malformed
  if name = "YAML" then
    let (major, dot) ← versionNumber (behind.skip (· == ' '))
    if !dot.startsWith '.' then malformed
    let (_, last) ← versionNumber dot.step
    if !atSpaceOrEnd last.rest then malformed
    return (.directive (some (major == 1)), ← ignoredLine last)
  else
    return (.directive none, ← ignoredLine (behind.skip (!isBreak ·)))

/-! ## The row of tokens -/

namespace Lexer

/-- Forgets the possible key of the present depth; a required one refuses the text. -/
def dropKey (lexer : Lexer) : Lexing Lexer :=
  match lexer.keys.lookup lexer.flowDepth with
  | some key =>
    if key.required then malformed
    else .ok { lexer with keys := lexer.keys.filter fun entry => entry.1 != lexer.flowDepth }
  | none => .ok lexer

/-- Remembers that a key may start here. -/
def saveKey (lexer : Lexer) : Lexing Lexer :=
  if lexer.keyAllowed then do
    let lexer ← lexer.dropKey
    let key : PossibleKey :=
      { tokenIndex := lexer.tokens.size
        required := lexer.flowDepth == 0 && lexer.indent == lexer.cursor.column
        index := lexer.cursor.index
        line := lexer.cursor.line
        column := lexer.cursor.column }
    .ok { lexer with keys := (lexer.flowDepth, key) :: lexer.keys }
  else .ok lexer

/-- The most characters that a key may have. -/
def keyLimit : Nat := 1024

/-- Whether a possible key ends before the present line or is too long. -/
def isStale (lexer : Lexer) (key : PossibleKey) : Bool :=
  key.line != lexer.cursor.line || keyLimit < lexer.cursor.index - key.index

/-- Forgets the possible keys that end before the present line or are too long. -/
def dropStaleKeys (lexer : Lexer) : Lexing Lexer :=
  if lexer.keys.any fun entry => lexer.isStale entry.2 && entry.2.required then malformed
  else .ok { lexer with keys := lexer.keys.filter fun entry => !lexer.isStale entry.2 }

/-- The tokens in front of all possible keys: no other token can go in front of these. -/
def settled (lexer : Lexer) : List Token :=
  let pending := lexer.keys.filter fun entry => !lexer.isStale entry.2
  let count := pending.foldl (fun (least : Nat) (entry : Int × PossibleKey) =>
    min least entry.2.tokenIndex) lexer.tokens.size
  lexer.tokens.toList.take count

/-- Closes the block collections that start right of a column. -/
def closeBlocks (column : Int) : List Int → Lexer → Lexer
  | [], lexer => lexer
  | outer :: indents, lexer =>
    if column < lexer.indent then
      closeBlocks column indents
        { lexer with indent := outer, indents := indents, tokens := lexer.tokens.push .blockEnd }
    else lexer

/-- Closes the block collections that start right of a column, outside of flow collections. -/
def unwind (lexer : Lexer) (column : Int) : Lexer :=
  if lexer.flowDepth == 0 then closeBlocks column lexer.indents lexer else lexer

/-- Opens a block collection at a column, if none is open there. -/
def openBlock (lexer : Lexer) (column : Int) (position : Nat) (token : Token) : Lexer :=
  if lexer.indent < column then
    { lexer with
      indent := column
      indents := lexer.indent :: lexer.indents
      tokens := lexer.tokens.insertIdxIfInBounds position token }
  else lexer

/-- Adds a token and goes on behind `count` characters. -/
def emit (lexer : Lexer) (token : Token) (count : Nat) : Lexer :=
  { lexer with tokens := lexer.tokens.push token, cursor := lexer.cursor.advance count }

/-- The mark of a document's start or end. -/
def documentMark (lexer : Lexer) (token : Token) : Lexing Lexer := do
  let lexer ← (lexer.unwind (-1)).dropKey
  .ok ({ lexer with keyAllowed := false }.emit token 3)

/-- The start of a flow collection. -/
def openFlow (lexer : Lexer) (token : Token) : Lexing Lexer := do
  let lexer ← lexer.saveKey
  .ok ({ lexer with flowDepth := lexer.flowDepth + 1, keyAllowed := true }.emit token 1)

/-- The end of a flow collection. -/
def closeFlow (lexer : Lexer) (token : Token) : Lexing Lexer := do
  let lexer ← lexer.dropKey
  .ok ({ lexer with flowDepth := lexer.flowDepth - 1, keyAllowed := false }.emit token 1)

/-- A comma between entries of a flow collection. -/
def comma (lexer : Lexer) : Lexing Lexer := do
  let lexer ← { lexer with keyAllowed := true }.dropKey
  .ok (lexer.emit .comma 1)

/-- The dash in front of an entry of a block sequence. -/
def blockEntry (lexer : Lexer) : Lexing Lexer := do
  if lexer.flowDepth == 0 && !lexer.keyAllowed then malformed
  let lexer :=
    if lexer.flowDepth == 0 then
      lexer.openBlock lexer.cursor.column lexer.tokens.size .blockSequence
    else lexer
  let lexer ← { lexer with keyAllowed := true }.dropKey
  .ok (lexer.emit .entry 1)

/-- The question mark in front of a key. -/
def keyMark (lexer : Lexer) : Lexing Lexer := do
  if lexer.flowDepth == 0 && !lexer.keyAllowed then malformed
  let lexer :=
    if lexer.flowDepth == 0 then
      lexer.openBlock lexer.cursor.column lexer.tokens.size .blockMapping
    else lexer
  let lexer ← { lexer with keyAllowed := lexer.flowDepth == 0 }.dropKey
  .ok (lexer.emit .key 1)

/-- The colon in front of a value: it makes a key of what started at a possible key. -/
def valueMark (lexer : Lexer) : Lexing Lexer :=
  match lexer.keys.lookup lexer.flowDepth with
  | some key =>
    let lexer : Lexer := { lexer with
      keys := lexer.keys.filter fun entry => entry.1 != lexer.flowDepth
      tokens := lexer.tokens.insertIdxIfInBounds key.tokenIndex .key
      keyAllowed := false }
    let lexer : Lexer :=
      if lexer.flowDepth == 0 then lexer.openBlock key.column key.tokenIndex .blockMapping
      else lexer
    .ok (lexer.emit .value 1)
  | none => do
    if lexer.flowDepth == 0 && !lexer.keyAllowed then malformed
    let lexer :=
      if lexer.flowDepth == 0 then
        lexer.openBlock lexer.cursor.column lexer.tokens.size .blockMapping
      else lexer
    let lexer ← { lexer with keyAllowed := lexer.flowDepth == 0 }.dropKey
    .ok (lexer.emit .value 1)

/-- A token that may start a key and is read by `read`, which gets the text behind its sign. -/
def named (lexer : Lexer) (read : Cursor → Lexing (Token × Cursor)) : Lexing Lexer := do
  let lexer ← lexer.saveKey
  let (token, next) ← read lexer.cursor.step
  .ok { lexer with keyAllowed := false, tokens := lexer.tokens.push token, cursor := next }

/-- A block scalar. -/
def blockScalar (lexer : Lexer) (folded : Bool) (fuel : Nat) : Lexing Lexer := do
  let lexer ← { lexer with keyAllowed := true }.dropKey
  let (text, next) ← blockText folded lexer.indent fuel lexer.cursor.step
  .ok { lexer with tokens := lexer.tokens.push (.scalar text false), cursor := next }

/-- A plain scalar. -/
def plain (lexer : Lexer) (fuel : Nat) : Lexing Lexer := do
  let lexer ← lexer.saveKey
  let (text, next, keyAllowed) :=
    plainText (lexer.flowDepth != 0) (lexer.indent + 1) fuel lexer.cursor [] [] false
  .ok { lexer with
    keyAllowed := keyAllowed, tokens := lexer.tokens.push (.scalar text true), cursor := next }

/-- Characters that no plain scalar starts with. -/
def isIndicator (c : Char) : Bool :=
  c ∈ ['-', '?', ':', ',', '[', ']', '\x7b', '\x7d', '#', '&', '*', '!', '|', '>', '\'', '"', '%',
    '@', Char.ofNat 0x60]

/-- Whether a plain scalar starts here. -/
def startsPlain (flow : Bool) (c : Char) (rest : Text) : Bool :=
  (!isIndicator c && !atGap [c]) ||
    (!atGap rest && (c == '-' || (!flow && (c == '?' || c == ':'))))

/-- Reads the token that starts with `c`. -/
def token (lexer : Lexer) (fuel : Nat) (c : Char) (rest : Text) : Lexing Lexer :=
  let flow := lexer.flowDepth != 0
  let atLineStart := lexer.cursor.column == 0
  if atLineStart && c == '%' then do
    let lexer ← (lexer.unwind (-1)).dropKey
    let (token, next) ← directiveLine lexer.cursor.step
    .ok { lexer with keyAllowed := false, tokens := lexer.tokens.push token, cursor := next }
  else if atLineStart && atDocumentMark (c :: rest) then
    lexer.documentMark (if c == '-' then .documentStart else .documentEnd)
  else if c == '[' then lexer.openFlow .flowSequence
  else if c == '\x7b' then lexer.openFlow .flowMapping
  else if c == ']' then lexer.closeFlow .flowSequenceEnd
  else if c == '\x7d' then lexer.closeFlow .flowMappingEnd
  else if c == ',' then lexer.comma
  else if c == '-' && atGap rest then lexer.blockEntry
  else if c == '?' && (flow || atGap rest) then lexer.keyMark
  else if c == ':' && (flow || atGap rest) then lexer.valueMark
  else if c == '*' then
    lexer.named fun cursor => (anchorName cursor).map fun name => (.alias name.1, name.2)
  else if c == '&' then
    lexer.named fun cursor => (anchorName cursor).map fun name => (.anchor name.1, name.2)
  else if c == '!' then
    lexer.named fun cursor => (tagName cursor).map fun name => (.tag name.1, name.2)
  else if c == '|' && !flow then lexer.blockScalar false fuel
  else if c == '>' && !flow then lexer.blockScalar true fuel
  else if c == '\'' || c == '"' then
    lexer.named fun cursor =>
      (quotedText (c == '"') fuel cursor []).map fun text => (.scalar text.1 false, text.2)
  else if startsPlain flow c rest then lexer.plain fuel
  else malformed

/-- All tokens. `fuel` bounds their number and the length of the text. -/
def run : (fuel : Nat) → Lexer → Lexing (List Token)
  | 0, _ => malformed
  | fuel + 1, before => do
    let (cursor, passed) := toNextToken (fuel + 1) before.cursor false
    let keyAllowed := before.keyAllowed || (passed && before.flowDepth == 0)
    let lexer ← { before with cursor := cursor, keyAllowed := keyAllowed }.dropStaleKeys
    let lexer := lexer.unwind cursor.column
    match cursor.rest with
    | [] => do
      let lexer ← (lexer.unwind (-1)).dropKey
      .ok lexer.tokens.toList
    | c :: rest =>
      match lexer.token (fuel + 1) c rest with
      | .ok lexer => run fuel lexer
      | .error (.value fault) => .ok (before.settled ++ [.broken fault])
      | .error .malformed => malformed

end Lexer

/-- The tokens of a text. -/
def tokens (text : Text) : Lexing (List Token) :=
  if text.all isAllowed then
    let start := if text.head?.any isByteOrderMark then (Cursor.mk text 0 0 0).step
      else Cursor.mk text 0 0 0
    Lexer.run (text.length + 2) { cursor := start }
  else malformed

end Yaml

end Scaffold
