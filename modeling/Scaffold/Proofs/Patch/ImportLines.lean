import Scaffold.Proofs.Patch.ImportBatches

/-!
# Imports and the lines around them

Imports go into a text as whole lines, in one block behind the line of the last import or at the top,
and all other lines stay as they are (`ImportGap.block`). A text that has got its imports has them
all, and takes them no second time (`insertImports_block`).
-/

namespace Scaffold

variable {a b u v head foot text content path : Text} {paths added parts : List Text}

/-! ## Lines -/

namespace Text

/-- The lines of a text without their ends; one at the end of the text may be unended. -/
def splitLines (text : Text) : List Text :=
  let pieces := splitOn '\n' text
  if pieces.getLast? = some [] then pieces.dropLast else pieces

theorem splitLines_append_break (a b : Text) :
    splitLines (a ++ '\n' :: b) = splitOn '\n' a ++ splitLines b := by
  have hne := splitOn_ne_nil '\n' b
  simp only [splitLines, splitOn_append_mark, List.getLast?_append_of_ne_nil _ hne,
    List.dropLast_append_of_ne_nil hne]
  split <;> rfl

theorem splitLines_lines_append (h : ∀ part ∈ parts, '\n' ∉ part) (b : Text) :
    splitLines (lines parts ++ b) = parts ++ splitLines b := by
  induction parts with
  | nil => rfl
  | cons part parts ih =>
      have hpart := splitOn_of_not_mem (h part List.mem_cons_self)
      have hrest := ih fun other hother => h other (List.mem_cons_of_mem _ hother)
      rw [lines_cons, List.append_assoc, List.cons_append, splitLines_append_break, hpart, hrest,
        List.singleton_append, List.cons_append]

/-- A text whose last line is unended has that line as its last one. -/
theorem splitLines_unended (h : '\n' ∉ b) (hne : b ≠ []) (a : Text) :
    ∃ front last, splitLines (a ++ b) = front ++ [last ++ b] ∧
      splitOn '\n' (a ++ b) = front ++ [last ++ b] := by
  obtain ⟨first, last, front, others, -, hb, hab⟩ := splitOn_append '\n' a b
  rw [splitOn_of_not_mem h] at hb
  obtain ⟨rfl, rfl⟩ := List.cons.inj hb
  refine ⟨front, last, ?_, hab⟩
  have hlast : last ++ b ≠ [] := by simp [hne]
  simp [splitLines, hab, hlast]

@[simp] theorem splitLines_nil : splitLines [] = [] := rfl

theorem splitLines_ne_nil (h : text ≠ []) : splitLines text ≠ [] := by
  obtain ⟨front, c, rfl⟩ := (List.eq_nil_or_concat' text).resolve_left h
  by_cases hc : c = '\n'
  · subst hc
    rw [splitLines_append_break, splitLines_nil, List.append_nil]
    exact splitOn_ne_nil '\n' front
  · obtain ⟨lines, last, hlines, -⟩ := splitLines_unended (b := [c]) (by simpa using Ne.symm hc)
      (List.cons_ne_nil c []) front
    simp [hlines]

theorem infix_of_mem_splitLines {line : Text} (h : line ∈ splitLines text) : line <:+: text := by
  unfold splitLines at h
  dsimp only at h
  split at h
  · exact infix_of_mem_splitOn (List.mem_of_mem_dropLast h)
  · exact infix_of_mem_splitOn h

end Text

/-! ## The block of new imports -/

/-- The lines of `result` are those of `content`, with the imports `added` on lines of their own
between `front` and `behind`. -/
structure ImportBlock (content : Text) (added front gap behind : List Text) (result : Text) :
    Prop where
  lines : content.splitLines = front ++ behind
  result_lines : result.splitLines = front ++ (added.map importClause ++ gap) ++ behind
  /-- The block stands behind a line with an import, or at the top. -/
  place : front = [] ∨ ∃ line, front.getLast? = some line ∧ importToken <:+: line
  /-- No line behind the block has an import. -/
  last : ∀ line ∈ behind, Text.Avoids importToken line
  /-- One blank line follows the block if it stands at the top of a text that starts with none. -/
  blank : gap = if added ≠ [] ∧ front = [] ∧ content.startsWith "\n" = false then [[]] else []
  /-- The last line of all is ended if it was so, or if it is one of the block. -/
  ended : result.getLast? = some '\n' ↔ content.getLast? = some '\n' ∨ added ≠ [] ∧ behind = []

theorem not_mem_importClauses (h : ∀ path ∈ added, '\n' ∉ path) :
    ∀ clause ∈ added.map importClause, '\n' ∉ clause := by
  intro clause hclause
  obtain ⟨path, hpath, rfl⟩ := List.mem_map.1 hclause
  simp [importClause, break_not_mem_importToken, h path hpath]

/-- The last import stands on one line with the text in front of it. -/
theorem exists_lastLine {line : Text} (hline : '\n' ∉ line) (w : Text) :
    ∃ front last, importToken <:+: last ∧
      (w ++ (importToken ++ line)).splitLines = front ++ [last] ∧
      Text.splitOn '\n' (w ++ (importToken ++ line)) = front ++ [last] := by
  have htoken : importToken ≠ [] := by decide
  have hbreak : '\n' ∉ importToken ++ line := by
    rw [List.mem_append, not_or]
    exact ⟨break_not_mem_importToken, hline⟩
  obtain ⟨front, last, hlines, hpieces⟩ := Text.splitLines_unended hbreak
    (List.append_ne_nil_of_left_ne_nil htoken line) w
  exact ⟨front, last ++ (importToken ++ line), ⟨last, line, by simp⟩, hlines, hpieces⟩

namespace ImportGap

theorem avoids_behind (h : ImportGap u head foot v) : Text.Avoids importToken v := by
  cases h with
  | @line w line v hline havoids =>
      exact havoids.of_part ⟨"mport '".toList ++ (line ++ ['\n']), [], by rw [tail_importToken]; simp⟩
  | last =>
      intro hin
      exact absurd (List.eq_nil_of_infix_nil hin) (by decide)
  | top havoids => exact havoids

theorem getLast?_gapLines (h : ImportGap u head foot v) (hadded : added ≠ []) :
    (gapLines head foot added).getLast? = some '\n' := by
  have hlines : (importLines added).getLast? = some '\n' :=
    Text.getLast?_lines (by simpa using hadded)
  have hfoot : foot = [] ∨ foot = ['\n'] := by
    cases h with
    | line => exact .inl rfl
    | last => exact .inl rfl
    | top =>
        split
        · exact .inl rfl
        · exact .inr rfl
  rw [gapLines, if_neg (by simpa using hadded), List.getLast?_append]
  rcases hfoot with rfl | rfl
  · simp [hlines]
  · simp

/-- The block of imports is ended, also behind an unended line. -/
theorem ended (h : ImportGap u head foot v) (added : List Text) :
    (u ++ (gapLines head foot added ++ v)).getLast? = some '\n' ↔
      (u ++ v).getLast? = some '\n' ∨ added ≠ [] ∧ v.splitLines = [] := by
  by_cases hv : v = []
  · subst hv
    by_cases hadded : added = []
    · simp [hadded, gapLines]
    · simp [hadded, List.getLast?_append, h.getLast?_gapLines hadded]
  · have hlines : v.splitLines ≠ [] := Text.splitLines_ne_nil hv
    rw [← List.append_assoc, List.getLast?_append_of_ne_nil _ hv,
      List.getLast?_append_of_ne_nil _ hv]
    simp [hlines]

/-- Imports at their place are a block of lines. -/
theorem block (h : ImportGap u head foot v) (hadded : ∀ path ∈ added, '\n' ∉ path) :
    ∃ front gap, ImportBlock (u ++ v) added front gap v.splitLines
      (u ++ (gapLines head foot added ++ v)) := by
  have hclauses := not_mem_importClauses hadded
  have hended := h.ended added
  have hlast : ∀ line ∈ v.splitLines, Text.Avoids importToken line := fun line hline =>
    h.avoids_behind.of_part (Text.infix_of_mem_splitLines hline)
  cases h with
  | @line w line v hline havoids =>
      obtain ⟨front, last, himport, -, hfront⟩ := exists_lastLine hline w
      have hlines : ∀ x : Text, (w ++ (importToken ++ (line ++ ['\n'])) ++ x).splitLines =
          front ++ [last] ++ x.splitLines := fun x => by
        have hcut : w ++ (importToken ++ (line ++ ['\n'])) ++ x =
            w ++ (importToken ++ line) ++ '\n' :: x := by simp
        rw [hcut, Text.splitLines_append_break, hfront]
      refine ⟨front ++ [last], [], hlines v, ?_, .inr ⟨last, by simp, himport⟩, hlast, by simp, hended⟩
      rw [hlines, gapLines_nil, importLines, Text.splitLines_lines_append hclauses]
      simp
  | @last w line hline havoids =>
      obtain ⟨front, last, himport, hlines, hpieces⟩ := exists_lastLine hline w
      have hcontent : (w ++ (importToken ++ line) ++ []).splitLines = front ++ [last] := by
        simpa using hlines
      refine ⟨front ++ [last], [], by simpa using hcontent, ?_, .inr ⟨last, by simp, himport⟩, hlast,
        by simp, hended⟩
      by_cases hnone : added = []
      · simpa [hnone, gapLines] using hcontent
      · have hresult : w ++ (importToken ++ line) ++ (gapLines ['\n'] [] added ++ []) =
            w ++ (importToken ++ line) ++ '\n' :: (Text.lines (added.map importClause) ++ []) := by
          simp [gapLines, hnone, importLines]
        rw [hresult, Text.splitLines_append_break, hpieces, Text.splitLines_lines_append hclauses]
        simp
  | @top v havoids =>
      refine ⟨[], _, rfl, ?_, .inl rfl, hlast, rfl, hended⟩
      by_cases hnone : added = []
      · simp [hnone, gapLines]
      · cases hstart : Text.startsWith v "\n" with
        | true =>
            have hblock := Text.splitLines_lines_append hclauses v
            simp only [List.nil_append, hstart]
            simpa [gapLines, hnone, importLines] using hblock
        | false =>
            -- the blank line is one more line of the block
            have hparts : ∀ part ∈ added.map importClause ++ [[]], '\n' ∉ part := by
              simpa [or_imp, forall_and] using hclauses
            have hblock := Text.splitLines_lines_append hparts v
            rw [Text.lines_append] at hblock
            simp only [List.nil_append, hstart]
            simpa [gapLines, hnone, importLines] using hblock

end ImportGap

/-! ## The paths that are missing -/

theorem insertImports_of_infix (h : ∀ path ∈ paths, path <:+: content) :
    insertImports content paths = content := by
  have hnone : missingImports content paths = [] := by
    refine List.eq_nil_iff_forall_not_mem.2 fun path hpath => ?_
    obtain ⟨hmem, hmissing⟩ := mem_missingImports.1 hpath
    exact hmissing (h path hmem)
  simp [insertImports, hnone]

/-- Each path is there behind the insertion. -/
theorem infix_insertImports_of_mem (hpaths : ∀ path ∈ paths, '\n' ∉ path) :
    ∀ path ∈ paths, path <:+: insertImports content paths := by
  intro path hpath
  by_cases hthere : path <:+: content
  · exact infix_insertImports (hpaths path hpath) hthere paths
  · obtain ⟨u, head, foot, v, rfl, hgap⟩ := exists_importGap content
    have hmissing : path ∈ missingImports (u ++ v) paths := mem_missingImports.2 ⟨hpath, hthere⟩
    have hne : missingImports (u ++ v) paths ≠ [] := List.ne_nil_of_mem hmissing
    have hclause : path <:+: importClause path := ⟨importToken, "';", rfl⟩
    have hline := Text.infix_lines (List.mem_map_of_mem (f := importClause) hmissing)
    rw [hgap.insertImports_eq, gapLines, if_neg (by simpa using hne)]
    exact (hclause.trans hline).trans ⟨u ++ head, foot ++ v, by simp [importLines]⟩

/-- Imports go in as one block of whole lines, each missing one once, and go in only once. -/
theorem insertImports_block (content : Text) (paths : List Text)
    (hpaths : ∀ path ∈ paths, '\n' ∉ path) :
    (∀ path ∈ paths, path <:+: insertImports content paths) ∧
    (∃ added front gap behind,
      (∀ path, path ∈ added ↔ path ∈ paths ∧ Text.Avoids path content) ∧
      added.Pairwise (fun path other => paths.idxOf path < paths.idxOf other) ∧
      ImportBlock content added front gap behind (insertImports content paths)) ∧
    insertImports (insertImports content paths) paths = insertImports content paths := by
  have hthere : ∀ path ∈ paths, path <:+: insertImports content paths :=
    infix_insertImports_of_mem hpaths
  refine ⟨hthere, ?_, insertImports_of_infix hthere⟩
  obtain ⟨u, head, foot, v, rfl, hgap⟩ := exists_importGap content
  have hmissing : ∀ path ∈ missingImports (u ++ v) paths, '\n' ∉ path :=
    fun path hpath => hpaths path (mem_missingImports.1 hpath).1
  obtain ⟨front, gap, hblock⟩ := hgap.block hmissing
  rw [← hgap.insertImports_eq] at hblock
  exact ⟨_, front, gap, v.splitLines, fun path => mem_missingImports,
    (pairwise_idxOf_eraseDups paths).sublist List.filter_sublist, hblock⟩

/-- A last line with an import that is not ended, and a path that is asked for twice. -/
theorem insertImports_block_unended :
    (∀ path ∈ (["a.dart", "b.dart", "a.dart"] : List Text), '\n' ∉ path) ∧
    (∀ path ∈ (["a.dart", "b.dart", "a.dart"] : List Text), path <:+:
      insertImports "// import 'b.dart'" ["a.dart", "b.dart", "a.dart"]) ∧
    insertImports "// import 'b.dart'" ["a.dart", "b.dart", "a.dart"] =
      "// import 'b.dart'\nimport 'a.dart';\n" ∧
    insertImports "// import 'b.dart'\nimport 'a.dart';\n" ["a.dart", "b.dart", "a.dart"] =
      "// import 'b.dart'\nimport 'a.dart';\n" := by
  have hpaths : ∀ path ∈ (["a.dart", "b.dart", "a.dart"] : List Text), '\n' ∉ path := by decide
  have hblock := insertImports_block "// import 'b.dart'" ["a.dart", "b.dart", "a.dart"] hpaths
  have hresult : insertImports "// import 'b.dart'" ["a.dart", "b.dart", "a.dart"] =
      "// import 'b.dart'\nimport 'a.dart';\n" := by decide
  exact ⟨hpaths, hblock.1, hresult, hresult ▸ hblock.2.2⟩

end Scaffold
