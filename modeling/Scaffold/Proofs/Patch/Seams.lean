import Scaffold.Proofs.Patch.Additions
import Scaffold.Proofs.Text.Newlines

/-!
# Members that stay

New code goes in at seams: in front of a brace, behind the end of a call or declaration, behind the
line of an import. A text keeps its members when code goes in at a seam (`KeepsMembers.of_seam`), so
a file keeps the members it has however it is extended (`ClassFile.keepsMembers_insert`,
`BlocStyle.keepsMembers_insert`). The line of the last import has to end with a semicolon for that:
a word at its end might go on as a member on the next line.
-/

namespace Scaffold

open Anchor

variable {a b u v x head foot text longer content result name separator : Text}
  {missing : List Text} {feature : Feature} {endpoints : List Endpoint}

/-! ## Seams -/

/-- Each member of the text is a member of the longer one. -/
def KeepsMembers (text longer : Text) : Prop :=
  ∀ name, IsWord name → hasMember text name = true → hasMember longer name = true

namespace KeepsMembers

theorem refl (text : Text) : KeepsMembers text text := fun _ _ h => h

theorem trans {longest : Text} (h : KeepsMembers text longer) (h' : KeepsMembers longer longest) :
    KeepsMembers text longest :=
  fun name hname hmember => h' name hname (h name hname hmember)

theorem of_seam (h : Seam a x b) : KeepsMembers (a ++ b) (a ++ (x ++ b)) :=
  fun _ hname hmember => List.append_assoc a x b ▸ hasMember_insert hname h hmember

end KeepsMembers

theorem isBlank_of_isIndent {c : Char} (h : isIndent c = true) : isBlank c = true := by
  have hc : c = ' ' ∨ c = '\t' := by simpa [isIndent] using h
  rcases hc with rfl | rfl <;> decide

/-- A text closes if it ends with characters of no word, not all of them blanks. -/
theorem closes_of_run {c : Char} {run : Text} (hblank : isBlank c = false)
    (hword : isWordChar c = false) (hrun : ∀ d ∈ run, isWordChar d = false) (a : Text) :
    Closes (a ++ c :: run) := by
  have hhead : ∀ row : Text, (∀ d ∈ row, isWordChar d = false) →
      ∀ d ∈ ((row ++ c :: a.reverse).dropWhile isBlank).head?, isWordChar d = false := by
    intro row hrow
    induction row with
    | nil =>
        intro d hd
        rw [List.nil_append, List.dropWhile_cons_of_neg (by simp [hblank])] at hd
        obtain rfl : c = d := by simpa using hd
        exact hword
    | cons e row ih =>
        obtain ⟨he, hrow⟩ := List.forall_mem_cons.1 hrow
        intro d hd
        by_cases hblank : isBlank e = true
        · exact ih hrow d (by rwa [List.cons_append, List.dropWhile_cons_of_pos hblank] at hd)
        · rw [List.cons_append, List.dropWhile_cons_of_neg hblank] at hd
          obtain rfl : e = d := by simpa using hd
          exact he
  have hreverse : (a ++ c :: run).reverse = run.reverse ++ c :: a.reverse := by simp
  rw [Closes, hreverse]
  exact hhead run.reverse fun d hd => hrun d (List.mem_reverse.1 hd)

/-- New code goes in in front of a brace. -/
theorem seam_brace (a x b : Text) : Seam a x ('\x7d' :: b) where
  apart := .inr ⟨by simp [StartsApart]; decide, rfl⟩
  edge := .inl (by simp [StartsApart]; decide)

theorem Anchor.BreaksLine.startsApart (h : BreaksLine b) : StartsApart b := fun c hc => by
  obtain rfl := h c hc
  decide

/-- Rows go in behind the end of a call. -/
theorem BlocStyle.seam_rows {style : BlocStyle} (h : style.anchor.Cut a b) (x : Text) : Seam a x b where
  apart := by
    obtain ⟨front, run, rfl, hrun⟩ := exists_call_end h
    refine .inl (closes_of_run (by decide) (by decide) (fun d hd => ?_) front)
    rcases hrun d hd with rfl | rfl | hindent
    · decide
    · decide
    · exact isWordChar_of_isBlank (isBlank_of_isIndent hindent)
  edge := .inl (h.breaksLine style.wholeLines).startsApart

/-- The end of a parameter block opens no member. -/
theorem opensMember_of_closesBlock (h : closesBlock b = true) : opensMember b = false := by
  cases b with
  | nil => rfl
  | cons c rest =>
      obtain rfl : c = '\n' := closesBlock.breaksLine h c rfl
      rw [closesBlock] at h
      obtain ⟨behind, hbehind⟩ : "\x7d)".toList <+: rest.dropWhile isIndent :=
        List.isPrefixOf_iff_prefix.1 h
      have hindent : ∀ d ∈ '\n' :: rest.takeWhile isIndent, isBlank d = true := by
        rintro d (_ | ⟨_, hd⟩)
        · decide
        · exact isBlank_of_isIndent (List.mem_takeWhile_imp hd)
      rw [← List.takeWhile_append_dropWhile (p := isIndent) (l := rest), ← List.cons_append,
        opensMember_append_of_blank hindent, ← hbehind]
      rfl

/-- Fields go in in front of the end of a parameter block. -/
theorem seam_fields (h : Anchor.stateFields.Cut a b) (x : Text) : Seam a x b := by
  obtain ⟨front, matched, -, -, -, -, hafter, -⟩ := splitAfterLast?_iff.1 h
  simp only [after?, Option.bind_eq_bind, Option.bind_eq_some_iff] at hafter
  obtain ⟨_, _, _, _, _, _, hend⟩ := hafter
  obtain ⟨before, -, hcloses⟩ := fromBlockEnd?_eq_some hend
  have hstarts := (closesBlock.breaksLine hcloses).startsApart
  exact ⟨.inr ⟨hstarts, opensMember_of_closesBlock hcloses⟩, .inl hstarts⟩

/-- Cases go in behind a semicolon. -/
theorem seam_cases (h : Anchor.eventCase.Cut a b) (hx : EndsApart (a ++ x)) : Seam a x b where
  apart := by
    obtain ⟨front, rfl⟩ := List.getLast?_eq_some_iff.1 h.getLast?_eventCase
    exact .inl (closes_of_run (by decide) (by decide) (List.forall_mem_nil _) front)
  edge := .inr hx

/-- Every line with an import ends with a semicolon. -/
def EndsImports (content : Text) : Prop :=
  ∀ line ∈ Text.splitOn '\n' content, importToken <:+: line → line.getLast? = some ';'

instance : Decidable (EndsImports content) := inferInstanceAs (Decidable (∀ line ∈ _, _))

theorem EndsImports.getLast? {w line : Text} (hline : '\n' ∉ line)
    (h : EndsImports (w ++ (importToken ++ (line ++ '\n' :: v)))) :
    (importToken ++ line).getLast? = some ';' := by
  have hwhole : '\n' ∉ importToken ++ line := by
    rw [List.mem_append, not_or]
    exact ⟨break_not_mem_importToken, hline⟩
  have hmem := lineAt_mem (w ++ (importToken ++ line)) ('\n' :: v)
  rw [lineAt_of_breaksLine (by simp [BreaksLine]), lineEnd_append hwhole] at hmem
  have hlast := h _ (by simpa using hmem) ⟨lineEnd w, line, by simp⟩
  rwa [List.getLast?_append_of_ne_nil _ (List.append_ne_nil_of_left_ne_nil (by decide) _)] at hlast

namespace ImportGap

/-- Imports go in behind a semicolon, or at one of the ends of the text. -/
theorem seam (h : ImportGap u head foot v) (hends : EndsImports (u ++ v))
    (hpaths : ∀ path ∈ missing, Consists isPathChar path) :
    Seam u (gapLines head foot missing) v where
  apart := by
    cases h with
    | @line w line v hline _ =>
        have hlast := EndsImports.getLast? hline (by simpa using hends)
        obtain ⟨front, hfront⟩ := List.getLast?_eq_some_iff.1 hlast
        have hu : w ++ (importToken ++ (line ++ ['\n'])) = (w ++ front) ++ ';' :: ['\n'] := by
          rw [← List.append_assoc importToken, hfront]
          simp
        rw [hu]
        exact .inl (closes_of_run (by decide) (by decide) (by decide) _)
    | last => exact .inr ⟨by simp [StartsApart], rfl⟩
    | top => exact .inl (by simp [Closes])
  edge := by
    by_cases hv : v = []
    · exact .inl (by simp [hv, StartsApart])
    · refine .inr fun c hc => ?_
      have hstart : startsLineAfter true (u ++ gapLines head foot missing) = true := by
        rw [startsLineAfter_append, h.lineStart hv, h.lineStart_lines hpaths]
      obtain rfl := getLast?_of_startsLineAfter hstart c hc
      decide

end ImportGap

/-! ## Insertions -/

theorem consists_modelImports (hfeature : feature.Plain)
    (hplain : ∀ endpoint ∈ endpoints, endpoint.Plain) :
    ∀ path ∈ feature.modelImports endpoints, Consists isPathChar path :=
  fun path hpath => (mem_modelImports feature hplain path hpath).consists hfeature

theorem keepsMembers_insertImports (hfeature : feature.Plain)
    (hplain : ∀ endpoint ∈ endpoints, endpoint.Plain) (hends : EndsImports content) :
    KeepsMembers content (insertImports content (feature.modelImports endpoints)) := by
  obtain ⟨u, head, foot, v, rfl, hgap⟩ := exists_importGap content
  rw [hgap.insertImports_eq]
  exact .of_seam (hgap.seam hends fun path hpath =>
    consists_modelImports hfeature hplain path (mem_missingImports.1 hpath).1)

theorem keepsMembers_insertIntoClass {members : List Text}
    (h : insertIntoClass content name members separator = .ok result) :
    KeepsMembers content result := by
  obtain ⟨p, q, hsplit⟩ := exists_classEnd_of_insertIntoClass h
  obtain ⟨rest, rfl⟩ := exists_brace_of_splitClassEnd hsplit
  obtain rfl := splitClassEnd_eq_ok_append hsplit
  rw [insertIntoClass_eq hsplit] at h
  obtain rfl := Except.ok.inj h
  exact .of_seam (seam_brace p _ rest)

theorem ClassFile.keepsMembers_insert {file : ClassFile} (hfeature : feature.Plain)
    (hplain : ∀ endpoint ∈ endpoints, endpoint.Plain) (hends : EndsImports content)
    (h : file.insert feature content endpoints = .ok result) : KeepsMembers content result := by
  rw [insert_eq] at h
  obtain ⟨⟨p, q⟩, hsplit, rfl⟩ := map_eq_ok.1 h
  obtain ⟨rest, rfl⟩ := exists_brace_of_splitEnd hsplit
  have himports := keepsMembers_insertImports hfeature hplain hends
  rw [splitEnd_append hsplit] at himports
  exact himports.trans (.of_seam (seam_brace p _ rest))

theorem BlocStyle.keepsMembers_insert {style : BlocStyle} (hfeature : feature.Plain)
    (hplain : ∀ endpoint ∈ endpoints, endpoint.Plain) (hends : EndsImports content)
    (h : style.insert feature content endpoints = .ok result) : KeepsMembers content result := by
  obtain ⟨middle, hrows, hhandlers⟩ := bind_eq_ok.1 h
  obtain ⟨a, b, himports, hcut, rfl⟩ := exists_cut_of_insertAfterLast hrows
  have hkeeps := keepsMembers_insertImports hfeature hplain hends
  rw [himports] at hkeeps
  exact (hkeeps.trans (.of_seam (seam_rows hcut _))).trans (keepsMembers_insertIntoClass hhandlers)

theorem keepsMembers_insertFields (h : insertAfterLast content .stateFields x = .ok result) :
    KeepsMembers content result := by
  obtain ⟨a, b, rfl, hcut, rfl⟩ := exists_cut_of_insertAfterLast h
  exact .of_seam (seam_fields hcut x)

theorem keepsMembers_insertCases (hx : ∀ a, EndsApart (a ++ x))
    (h : insertAfterLast content .eventCase x = .ok result) : KeepsMembers content result := by
  obtain ⟨a, b, rfl, hcut, rfl⟩ := exists_cut_of_insertAfterLast h
  exact .of_seam (seam_cases hcut (hx a))

end Scaffold
