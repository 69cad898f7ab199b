import Scaffold.Dart.Imports
import Scaffold.Patch.Anchor

/-!
# Insertions

The edits that append new code to existing source text. Each one puts whole pieces at an anchor and
leaves all else as it is; without its anchor it refuses.
-/

namespace Scaffold

/-- The paths that do not occur in the content, each at its first place. -/
def missingImports (content : Text) (paths : List Text) : List Text :=
  paths.eraseDups.filter fun path => !path.occursIn content

/-- The content with the missing imports on lines of their own behind the last import, or at the top
if there is none. -/
def insertImports (content : Text) (paths : List Text) : Text :=
  let missing := missingImports content paths
  if missing.isEmpty then content
  else
    let block := Text.lines (missing.map importClause)
    match Text.splitLast? importToken content with
    | none => if content.startsWith "\n" then block ++ content else block ++ "\n" ++ content
    | some (before, fromImport) =>
      let line := fromImport.takeWhile (· != '\n')
      match fromImport.dropWhile (· != '\n') with
      | [] => content ++ "\n" ++ block
      | lineEnd :: rest => before ++ line ++ [lineEnd] ++ block ++ rest

/-- The members between two line breaks, with `separator` between neighbours. -/
def memberBlock (separator : Text) (members : List Text) : Text :=
  "\n" ++ Text.join separator members ++ "\n"

/-- The content with members in front of its last closing brace. -/
def insertBeforeLastBrace (content : Text) (members : List Text) (separator : Text) :
    Except MissingAnchor Text :=
  match Text.splitLast? "\x7d" content with
  | none => .error .noBrace
  | some (before, fromBrace) => .ok (before ++ memberBlock separator members ++ fromBrace)

/-- The content with members in front of the closing brace of a class. -/
def insertIntoClass (content className : Text) (members : List Text) (separator : Text) :
    Except MissingAnchor Text := do
  let (before, fromEnd) ← splitClassEnd content className
  .ok (before ++ memberBlock separator members ++ fromEnd)

/-- The content with an addition behind the last match of a pattern. -/
def insertAfterLast (content : Text) (anchor : Anchor) (addition : Text) :
    Except MissingAnchor Text :=
  match anchor.splitAfterLast? true 0 content with
  | none => .error (.noMatch anchor)
  | some (before, after) => .ok (before ++ addition ++ after)

/-- The content with declarations behind its last closing brace. -/
def appendDeclarations (content : Text) (declarations : List Text) : Except MissingAnchor Text :=
  match Text.splitLast? "\x7d" content with
  | none => .error .noBrace
  | some (before, fromBrace) =>
    .ok (before ++ fromBrace.take 1 ++ "\n\n" ++ Text.join "\n\n" declarations ++ fromBrace.drop 1)

/-- Whether the content is written in the union style. -/
def usesUnions (content : Text) : Bool :=
  Text.occursIn "@freezed" content && Text.occursIn "const factory" content

end Scaffold
