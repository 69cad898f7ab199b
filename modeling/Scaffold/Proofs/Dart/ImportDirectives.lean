import Scaffold.Dart.ErrorUnion
import Scaffold.Dart.Model
import Scaffold.Dart.Screen
import Scaffold.Proofs.Dart.ImportPaths

/-!
# Import directives

The imports of a Dart file stand in front of all its declarations. Every generated file opens with
its import block, so it imports the paths of that block and nothing else (`OpensWith.imports_iff`).
-/

namespace Scaffold

variable {feature : Feature} {endpoints : List Endpoint} {paths : List Text}
  {text path name : Text}

/-- The lines in front of all declarations: the imports, and empty lines. -/
def directiveLines (text : Text) : List Text :=
  (text.splitOn '\n').takeWhile fun line => line.isEmpty || line.startsWith importToken

/-- The text imports the path. -/
def Imports (text path : Text) : Prop := importClause path ∈ directiveLines text

instance (text path : Text) : Decidable (Imports text path) :=
  inferInstanceAs (Decidable (_ ∈ _))

/-- The path can be read off its clause. -/
theorem importClause_injective : Function.Injective importClause := by
  intro first second h
  unfold importClause at h
  exact List.append_cancel_left (List.append_cancel_right h)

/-- A clause starts like an import. -/
theorem startsWith_importClause (path : Text) :
    (importClause path).startsWith importToken = true := by
  rw [Text.startsWith, List.isPrefixOf_iff_prefix, importClause, List.append_assoc]
  exact List.prefix_append ..

/-- A clause is no empty line. -/
theorem importClause_ne_nil (path : Text) : importClause path ≠ [] := by
  intro h
  have hstart := startsWith_importClause path
  rw [h] at hstart
  exact absurd hstart (by decide)

/-- A path on one line makes a clause on one line. -/
theorem unbroken_importClause (h : '\n' ∉ path) : '\n' ∉ importClause path := by
  unfold importClause
  exact List.not_mem_append (List.not_mem_append (by decide) h) (by decide)

/-- No import path goes over the end of a line. -/
theorem Imports.unbroken (h : Imports text path) : '\n' ∉ path := by
  have hclause := Text.not_mem_of_mem_splitOn (List.takeWhile_subset _ h)
  unfold importClause at hclause
  exact fun hmem => hclause (List.mem_append_left _ (List.mem_append_right _ hmem))

/-! ## Files that open with imports -/

/-- The text is the import block of the paths, and then something else. -/
def OpensWith (text : Text) (paths : List Text) : Prop :=
  ∃ c rest, c ≠ '\n' ∧ c ≠ 'i' ∧ text = importBlock paths ++ c :: rest

/-- What starts with another letter has no imports in front. -/
theorem directiveLines_of_ne {c : Char} {rest : Text} (hbreak : c ≠ '\n') (hother : c ≠ 'i') :
    directiveLines (c :: rest) = [] := by
  obtain ⟨first, pieces, hsplit⟩ := List.exists_cons_of_ne_nil (Text.splitOn_ne_nil '\n' rest)
  have hlines : Text.splitOn '\n' (c :: rest) = (c :: first) :: pieces := by
    simp [Text.splitOn, hbreak, hsplit]
  have hstart : Text.startsWith (c :: first) importToken = false := by
    rw [Text.startsWith, show importToken = 'i' :: ("mport '" : Text) from rfl, List.isPrefixOf,
      beq_false_of_ne hother.symm, Bool.false_and]
  rw [directiveLines, hlines, List.takeWhile_cons_of_neg (by simp [hstart])]

namespace OpensWith

/-- The lines in front are the clauses of the import block and the empty line behind them. -/
theorem directiveLines_eq (h : OpensWith text paths) (hpaths : ∀ path ∈ paths, '\n' ∉ path) :
    directiveLines text = paths.map importClause ++ (if paths = [] then [] else [[]]) := by
  obtain ⟨c, rest, hbreak, hother, rfl⟩ := h
  by_cases hnil : paths = []
  · subst hnil
    exact directiveLines_of_ne hbreak hother
  · -- the block ends with an empty line, which is one of the lines in front
    have hclauses : ∀ clause ∈ paths.map importClause, '\n' ∉ clause := by
      intro clause hclause
      obtain ⟨path, hpath, rfl⟩ := List.mem_map.1 hclause
      exact unbroken_importClause (hpaths path hpath)
    have hblock : importBlock paths ++ c :: rest =
        Text.join ['\n'] (paths.map importClause) ++ '\n' :: '\n' :: c :: rest := by
      simp [importBlock, renderImports, hnil]
    have hlines : Text.splitOn '\n' (importBlock paths ++ c :: rest) =
        paths.map importClause ++ [] :: Text.splitOn '\n' (c :: rest) := by
      rw [hblock, Text.splitOn_append_mark, Text.splitOn_join (by simp [hnil]) hclauses]
      simp [Text.splitOn]
    rw [directiveLines, hlines, List.takeWhile_append_of_pos, if_neg hnil,
      List.takeWhile_cons_of_pos rfl]
    · exact congrArg (_ ++ [] :: ·) (directiveLines_of_ne hbreak hother)
    · intro clause hclause
      obtain ⟨path, -, rfl⟩ := List.mem_map.1 hclause
      rw [startsWith_importClause, Bool.or_true]

/-- The imports of a file are the paths of its import block. -/
theorem imports_iff (h : OpensWith text paths) (hpaths : ∀ path ∈ paths, '\n' ∉ path) :
    Imports text path ↔ path ∈ paths := by
  have hempty : importClause path ∉ (if paths = [] then [] else [[]] : List Text) := by
    split
    · exact List.not_mem_nil
    · exact fun hmem => importClause_ne_nil path (List.mem_singleton.1 hmem)
  rw [Imports, h.directiveLines_eq hpaths, List.mem_append, or_iff_left hempty,
    List.mem_map_of_injective importClause_injective]

end OpensWith

/-- A class file opens with its imports. What follows is told from a clause by its first letter,
file by file. -/
theorem ClassFile.opensWith_render (file : ClassFile) :
    OpensWith (file.render feature endpoints) (file.imports feature endpoints) := by
  rw [OpensWith, ClassFile.render, List.append_assoc, List.append_assoc]
  cases file with
  | service => exact ⟨'p', _, by decide, by decide, rfl⟩
  | source => exact ⟨'/', _, by decide, by decide, rfl⟩
  | sourceImpl => exact ⟨'@', _, by decide, by decide, rfl⟩
  | repositoryImpl => exact ⟨'@', _, by decide, by decide, rfl⟩
  | repository => exact ⟨'/', _, by decide, by decide, rfl⟩
  | useCases => exact ⟨'@', _, by decide, by decide, rfl⟩

/-- The bloc opens with its imports. -/
theorem opensWith_renderBloc :
    OpensWith (renderBloc feature endpoints) (blocImports feature endpoints) := by
  rw [OpensWith, renderBloc]
  simp only [List.append_assoc]
  exact ⟨'p', _, by decide, by decide, rfl⟩

/-- The events have no imports of their own. -/
theorem opensWith_renderEvent : OpensWith (renderEvent feature endpoints) [] :=
  ⟨'p', _, by decide, by decide, rfl⟩

/-- The state has no imports of its own. -/
theorem opensWith_renderState : OpensWith (renderState feature endpoints) [] :=
  ⟨'p', _, by decide, by decide, rfl⟩

/-- The screen opens with its imports. -/
theorem opensWith_renderScreen : OpensWith (renderScreen feature) (screenImports feature) := by
  rw [OpensWith, renderScreen, List.append_assoc]
  exact ⟨'c', _, by decide, by decide, rfl⟩

/-- The import block of a file that imports the annotations for unions and nothing else. -/
theorem importBlock_freezedImport : importBlock [freezedImport] =
    Text.lines ["import 'package:freezed_annotation/freezed_annotation.dart';", []] := by
  unfold importBlock renderImports importClause importToken freezedImport
  repeat rw [String.toList_ofList]
  rfl

/-- A model imports the annotations for unions. -/
theorem opensWith_renderModel (name : Text) (schema : Option Fields) (isResponse : Bool) :
    OpensWith (renderModel name schema isResponse) [freezedImport] := by
  rw [OpensWith, importBlock_freezedImport, renderModel]
  repeat rw [String.toList_ofList]
  exact ⟨'p', _, by decide, by decide, rfl⟩

/-- The error union imports the annotations for unions. -/
theorem opensWith_errorUnionFile : OpensWith errorUnionFile [freezedImport] := by
  rw [OpensWith, importBlock_freezedImport, errorUnionFile]
  repeat rw [String.toList_ofList]
  exact ⟨'p', _, by decide, by decide, rfl⟩

end Scaffold
