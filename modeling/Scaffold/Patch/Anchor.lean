import Scaffold.Patch.Presence
import Scaffold.Text.Quoted

/-!
# Anchors

The places of generated source text at which new code goes in: the closing brace of a class and the
end of the last match of one of four patterns. Matches are sought from left to right and do not
overlap. `splitAfterLast?_eq_some_append` and `splitClassEnd_eq_ok_append` say that cutting a text
at an anchor loses nothing.
-/

namespace Scaffold

/-- The patterns whose last match is an anchor. -/
inductive Anchor
  | eventCase
  | whenCase
  | stateFields
  | registration
  deriving DecidableEq

/-- Why an anchor could not be found. -/
inductive MissingAnchor
  | noBrace
  | noClass (name : Text)
  | noClassEnd (name : Text)
  | noMatch (anchor : Anchor)
  deriving DecidableEq

namespace Anchor

/-- The pattern as a regular expression, for messages. -/
def expression : Anchor → Text
  | eventCase => "const factory[^;]*;"
  | whenCase => "^[ \\t]+\\w+: \\([^)]*\\) => _\\w+\\([^)]*\\),[ \\t]*$"
  | stateFields => "const factory \\w+\\(\\\x7b.*?(?=\\n[ \\t]*\\\x7d\\))"
  | registration => "^[ \\t]+on<\\w+>\\(.*\\);[ \\t]*$"

/-- Spaces and tabs. -/
def isIndent (c : Char) : Bool := c == ' ' || c == '\t'

/-- What follows a nonempty run of characters of one class. -/
def afterRun? (accepts : Char → Bool) (text : Text) : Option Text :=
  match text with
  | [] => none
  | c :: rest => if accepts c then some (rest.dropWhile accepts) else none

/-- What follows the next place of a character. -/
def afterChar? (mark : Char) (text : Text) : Option Text :=
  Text.after? [mark] (text.dropWhile (· != mark))

/-- What follows the spaces and tabs at the end of a line; the line's end itself is left. -/
def atLineEnd? (text : Text) : Option Text :=
  match text.dropWhile isIndent with
  | [] => some []
  | c :: rest => if c = '\n' then some (c :: rest) else none

/-- Whether a line break, an indentation and the end of a parameter block follow. -/
def closesBlock : Text → Bool
  | '\n' :: rest => Text.startsWith (rest.dropWhile isIndent) "\x7d)"
  | _ => false

/-- The text from the line break in front of the end of a parameter block on. -/
def fromBlockEnd? : Text → Option Text
  | [] => none
  | c :: rest => if closesBlock (c :: rest) then some (c :: rest) else fromBlockEnd? rest

/-- What follows a line that ends a call, spaces and tabs behind it included. -/
def afterCallLine? (text : Text) : Option Text :=
  let line := text.takeWhile (· != '\n')
  if Text.startsWith (line.reverse.dropWhile isIndent) ";)" then some (text.drop line.length)
  else none

/-- What follows a match of the pattern at the start of the text, if there is one. -/
def after? (anchor : Anchor) (lineStart : Bool) (text : Text) : Option Text :=
  match anchor with
  | eventCase => do afterChar? ';' (← Text.after? "const factory" text)
  | whenCase =>
    if lineStart then do
      let rest ← Text.after? ": (" (← afterRun? isWordChar (← afterRun? isIndent text))
      let rest ← Text.after? " => _" (← afterChar? ')' rest)
      let rest ← Text.after? "(" (← afterRun? isWordChar rest)
      atLineEnd? (← Text.after? "," (← afterChar? ')' rest))
    else none
  | stateFields => do
    let rest ← afterRun? isWordChar (← Text.after? "const factory " text)
    fromBlockEnd? (← Text.after? "(\x7b" rest)
  | registration =>
    if lineStart then do
      let rest ← Text.after? "on<" (← afterRun? isIndent text)
      afterCallLine? (← Text.after? ">(" (← afterRun? isWordChar rest))
    else none

/-- How many characters of a match are still to come at the start of the text: those `inside` one
that started before, else those of a match that starts here. -/
def matchLeft (anchor : Anchor) (lineStart : Bool) (inside : Nat) (text : Text) : Nat :=
  if inside = 0 then
    match anchor.after? lineStart text with
    | some after => text.length - after.length
    | none => 0
  else inside

/-- The text cut at the end of the last match. `inside` counts the characters that are left of the
current match, zero outside of all matches. -/
def splitAfterLast? (anchor : Anchor) : (lineStart : Bool) → (inside : Nat) → Text →
    Option (Text × Text)
  | _, _, [] => none
  | lineStart, inside, c :: rest =>
    let left := anchor.matchLeft lineStart inside (c :: rest)
    match splitAfterLast? anchor (c == '\n') (left - 1) rest with
    | some (before, after) => some (c :: before, after)
    | none => if left = 1 then some ([c], rest) else none

theorem splitAfterLast?_eq_some_append {anchor : Anchor} {lineStart : Bool} {inside : Nat}
    {text before after : Text}
    (h : splitAfterLast? anchor lineStart inside text = some (before, after)) :
    text = before ++ after := by
  induction text generalizing lineStart inside before with
  | nil => simp [splitAfterLast?] at h
  | cons c rest ih =>
    simp only [splitAfterLast?] at h
    split at h
    · next b a hrest =>
      obtain ⟨rfl, rfl⟩ := Prod.mk.injEq .. ▸ Option.some.inj h
      simp [ih hrest]
    · split at h
      · obtain ⟨rfl, rfl⟩ := Prod.mk.injEq .. ▸ Option.some.inj h
        rfl
      · simp at h

end Anchor

/-- The text cut in front of the first place of a whole word. -/
def splitWord? (word : Text) : Option Char → Text → Option (Text × Text)
  | before, [] => if (Text.afterWord? word before []).isSome then some ([], []) else none
  | before, c :: rest =>
    if (Text.afterWord? word before (c :: rest)).isSome then some ([], c :: rest)
    else (splitWord? word (some c) rest).map fun parts => (c :: parts.1, parts.2)

/-- The text cut in front of the brace that closes the first one opened. Closing braces count from
the start, `depth` being the number of braces open. -/
def splitBlockEnd? : (depth : Int) → (opened : Bool) → Text → Option (Text × Text)
  | _, _, [] => none
  | depth, opened, c :: rest =>
    if c = '\x7b' then
      (splitBlockEnd? (depth + 1) true rest).map fun parts => (c :: parts.1, parts.2)
    else if c = '\x7d' then
      if opened && depth = 1 then some ([], c :: rest)
      else (splitBlockEnd? (depth - 1) opened rest).map fun parts => (c :: parts.1, parts.2)
    else (splitBlockEnd? depth opened rest).map fun parts => (c :: parts.1, parts.2)

/-- The text cut in front of the closing brace of a class. -/
def splitClassEnd (content className : Text) : Except MissingAnchor (Text × Text) :=
  match splitWord? ("class " ++ className) none content with
  | none => .error (.noClass className)
  | some (before, fromClass) =>
    match splitBlockEnd? 0 false fromClass with
    | none => .error (.noClassEnd className)
    | some (inside, fromEnd) => .ok (before ++ inside, fromEnd)

/-- The position of the closing brace of a class. -/
def classEnd (content className : Text) : Except MissingAnchor Nat :=
  (splitClassEnd content className).map (·.1.length)

/-- The message for a missing anchor. -/
def MissingAnchor.message : MissingAnchor → Text
  | noBrace => "no closing brace found"
  | noClass name => "class " ++ name ++ " not found"
  | noClassEnd name => "closing brace of class " ++ name ++ " not found"
  | noMatch anchor => "pattern " ++ anchor.expression.quoted ++ " not found"

theorem splitWord?_eq_some_append {word text before fromWord : Text} {previous : Option Char}
    (h : splitWord? word previous text = some (before, fromWord)) : text = before ++ fromWord := by
  induction text generalizing previous before with
  | nil =>
    simp only [splitWord?] at h
    split at h
    · obtain ⟨rfl, rfl⟩ := Prod.mk.injEq .. ▸ Option.some.inj h
      rfl
    · simp at h
  | cons c rest ih =>
    simp only [splitWord?] at h
    split at h
    · obtain ⟨rfl, rfl⟩ := Prod.mk.injEq .. ▸ Option.some.inj h
      rfl
    · obtain ⟨parts, hparts, heq⟩ := Option.map_eq_some_iff.1 h
      obtain ⟨rfl, rfl⟩ := Prod.mk.injEq .. ▸ heq
      simp [ih hparts]

theorem splitBlockEnd?_eq_some_append {depth : Int} {opened : Bool} {text before fromEnd : Text}
    (h : splitBlockEnd? depth opened text = some (before, fromEnd)) :
    text = before ++ fromEnd := by
  induction text generalizing depth opened before with
  | nil => simp [splitBlockEnd?] at h
  | cons c rest ih =>
    simp only [splitBlockEnd?] at h
    split at h
    · obtain ⟨parts, hparts, heq⟩ := Option.map_eq_some_iff.1 h
      obtain ⟨rfl, rfl⟩ := Prod.mk.injEq .. ▸ heq
      simp [ih hparts]
    · split at h
      · split at h
        · obtain ⟨rfl, rfl⟩ := Prod.mk.injEq .. ▸ Option.some.inj h
          rfl
        · obtain ⟨parts, hparts, heq⟩ := Option.map_eq_some_iff.1 h
          obtain ⟨rfl, rfl⟩ := Prod.mk.injEq .. ▸ heq
          simp [ih hparts]
      · obtain ⟨parts, hparts, heq⟩ := Option.map_eq_some_iff.1 h
        obtain ⟨rfl, rfl⟩ := Prod.mk.injEq .. ▸ heq
        simp [ih hparts]

theorem splitClassEnd_eq_ok_append {content className before fromEnd : Text}
    (h : splitClassEnd content className = .ok (before, fromEnd)) :
    content = before ++ fromEnd := by
  simp only [splitClassEnd] at h
  split at h
  · cases h
  · next before' fromClass hword =>
    split at h
    · cases h
    · next inside fromEnd' hend =>
      cases h
      rw [splitWord?_eq_some_append hword, splitBlockEnd?_eq_some_append hend, List.append_assoc]

end Scaffold
