import Scaffold.Proofs.Patch.Imports

/-!
# Imports in batches

Imports may come in in batches (`insertImports_insertImports`), and they come in at the same place
when other code has been put in before (`ImportGap.through_front`, `ImportGap.through_behind`).
-/

namespace Scaffold

open Anchor

variable {p q s t u v x y head foot text content path : Text} {paths others missing : List Text}
  {feature : Feature} {B C : List Endpoint}

/-- One text cut at two places. -/
theorem cut_cases (h : u ++ v = p ++ q) :
    (∃ s, s ≠ [] ∧ u = p ++ s ∧ q = s ++ v) ∨ ∃ t, p = u ++ t ∧ v = t ++ q := by
  rcases List.append_eq_append_iff.1 h with ⟨t, hp, hv⟩ | ⟨s, hu, hq⟩
  · exact .inr ⟨t, hp, hv⟩
  · by_cases hs : s = []
    · subst hs
      exact .inr ⟨[], by simpa using hu.symm, by simpa using hq.symm⟩
    · exact .inl ⟨s, hs, hu, hq⟩

/-- What is avoided by the parts is avoided by their lines. -/
theorem avoids_join {mark separator : Text} {parts : List Text} (hbreak : '\n' ∉ mark)
    (hmark : mark ≠ []) (hstart : separator.head? = some '\n') (hend : separator.getLast? = some '\n')
    (hseparator : Text.Avoids mark separator) (h : ∀ part ∈ parts, Text.Avoids mark part) :
    Text.Avoids mark (Text.join separator parts) := by
  induction parts with
  | nil => exact fun hin => hmark (List.eq_nil_of_infix_nil hin)
  | cons part parts ih =>
      have hpart := h part (by simp)
      by_cases hnil : parts = []
      · subst hnil
        simpa using hpart
      · have ih := ih fun other hother => h other (by simp [hother])
        obtain ⟨rest, hrest⟩ := List.head?_eq_some_iff.1 hstart
        obtain ⟨front, hfront⟩ := List.getLast?_eq_some_iff.1 hend
        have hlines : startsLineAfter true separator = true := by rw [hfront]; simp
        rw [Text.join_cons part hnil, List.append_assoc]
        exact avoids_of_lineJoint (.inr (by rw [hrest]; simp [BreaksLine])) hbreak hpart
          (avoids_of_lineJoint (.inl hlines) hbreak hseparator ih)

/-- What lies across none of the three joints around `x` and is not part of `x` stands in the text
with `x` as it does in the one without. -/
theorem infix_insert_iff {mark : Text} (hx : Text.Avoids mark x)
    (hstart : mark <:+: p ++ (x ++ q) → mark <:+: p ∨ mark <:+: x ++ q)
    (hend : mark <:+: x ++ q → mark <:+: x ∨ mark <:+: q)
    (hpq : mark <:+: p ++ q → mark <:+: p ∨ mark <:+: q) :
    mark <:+: p ++ (x ++ q) ↔ mark <:+: p ++ q := by
  constructor
  · intro hin
    rcases hstart hin with hin | hin
    · exact hin.trans ⟨[], q, rfl⟩
    · rcases hend hin with hin | hin
      · exact absurd hin hx
      · exact hin.trans ⟨p, [], by simp⟩
  · intro hin
    rcases hpq hin with hin | hin
    · exact hin.trans ⟨[], x ++ q, rfl⟩
    · exact hin.trans ⟨p ++ x, [], by simp⟩

/-! ## The line of a place -/

theorem not_mem_lineEnd (text : Text) : '\n' ∉ lineEnd text := by
  intro hmem
  have hall := List.mem_takeWhile_imp (List.mem_reverse.1 hmem)
  simp at hall

/-- The lines in front of the last one, and the last one. -/
theorem exists_lineEnd (text : Text) : ∃ front, text = front ++ lineEnd text ∧
    (front = [] ∨ ∃ front', front = front' ++ ['\n']) := by
  refine ⟨(text.reverse.dropWhile (· != '\n')).reverse, ?_, ?_⟩
  · have := List.takeWhile_append_dropWhile (p := fun c => c != '\n') (l := text.reverse)
    rw [lineEnd, ← List.reverse_append, this, List.reverse_reverse]
  · cases hdrop : text.reverse.dropWhile (· != '\n') with
    | nil => exact .inl rfl
    | cons c rest =>
        have hne : text.reverse.dropWhile (· != '\n') ≠ [] := by simp [hdrop]
        have hc := List.head_dropWhile_not (fun c => c != '\n') hne
        have hc : c = '\n' := by simpa [hdrop] using hc
        exact .inr ⟨rest.reverse, by rw [hc]; simp⟩

/-- The line of a place is one of the lines. -/
theorem lineAt_mem (p q : Text) : lineAt p q ∈ Text.splitOn '\n' (p ++ q) := by
  obtain ⟨front, hp, hfront⟩ := exists_lineEnd p
  have hline : lineAt p q ∈ Text.splitOn '\n' (lineEnd p ++ q) := by
    have hq := List.takeWhile_append_dropWhile (p := fun c => c != '\n') (l := q)
    have hbreak : '\n' ∉ lineAt p q := by
      rw [lineAt, List.mem_append, not_or]
      refine ⟨not_mem_lineEnd p, fun hmem => ?_⟩
      have hall := List.mem_takeWhile_imp hmem
      simp at hall
    have heq : lineEnd p ++ q = lineAt p q ++ q.dropWhile (· != '\n') := by
      rw [lineAt, List.append_assoc, hq]
    rw [heq]
    cases hdrop : q.dropWhile (· != '\n') with
    | nil => simp [Text.splitOn_of_not_mem hbreak]
    | cons c rest =>
        have hne : q.dropWhile (· != '\n') ≠ [] := by simp [hdrop]
        have hc := List.head_dropWhile_not (fun c => c != '\n') hne
        have hc : c = '\n' := by simpa [hdrop] using hc
        rw [hc, Text.splitOn_append_mark, Text.splitOn_of_not_mem hbreak]
        simp
  rcases hfront with rfl | ⟨front, rfl⟩
  · rw [List.nil_append] at hp
    rwa [← hp] at hline
  · have heq : p ++ q = front ++ '\n' :: (lineEnd p ++ q) := by
      conv_lhs => rw [hp]
      simp
    rw [heq, Text.splitOn_append_mark]
    exact List.mem_append_right _ hline

theorem lineEnd_of_lineStart (h : startsLineAfter true u = true) (t : Text) :
    lineEnd (u ++ t) = lineEnd t := by
  by_cases hu : u = []
  · rw [hu, List.nil_append]
  obtain ⟨front, rfl⟩ := exists_concat_break h (List.suffix_refl _) hu
  by_cases ht : '\n' ∈ t
  · unfold lineEnd
    rw [List.reverse_append, List.takeWhile_append, if_neg]
    intro hlength
    have hall := List.takeWhile_eq_self_iff.1
      ((List.takeWhile_prefix (fun c => c != '\n')).eq_of_length hlength) '\n' (by simpa using ht)
    simp at hall
  · have hnone : lineEnd t = t := by
      have hempty : lineEnd [] = [] := rfl
      simpa [hempty] using lineEnd_append ht []
    rw [lineEnd_append ht, hnone]
    simp [lineEnd]

/-- Lines in front of a line leave it as it is. -/
theorem lineAt_lines_before (hu : startsLineAfter true u = true) (hx : startsLineAfter true x = true)
    (t q : Text) : lineAt (u ++ (x ++ t)) q = lineAt (u ++ t) q := by
  have hux : startsLineAfter true (u ++ x) = true := by rw [startsLineAfter_append, hu, hx]
  rw [lineAt, lineAt, ← List.append_assoc, lineEnd_of_lineStart hux, lineEnd_of_lineStart hu]

/-- What comes behind the end of a line is not in it. -/
theorem lineAt_of_lineJoint {v' : Text} (hs : s ≠ []) (h : LineJoint (p ++ s) v)
    (h' : LineJoint (p ++ s) v') : lineAt p (s ++ v) = lineAt p (s ++ v') := by
  by_cases hstart : startsLineAfter true (p ++ s) = true
  · obtain ⟨first, rfl⟩ := exists_concat_break hstart ⟨p, rfl⟩ hs
    have htake : ∀ rest : Text, (first ++ ['\n'] ++ rest).takeWhile (· != '\n') =
        (first ++ ['\n']).takeWhile (· != '\n') := fun rest => by
      rw [List.append_assoc, List.singleton_append]
      have hbreaks : ∀ rest : Text, BreaksLine ('\n' :: rest) := fun rest => by simp [BreaksLine]
      rw [(hbreaks rest).takeWhile, (hbreaks []).takeWhile]
    rw [lineAt, lineAt, htake, htake]
  · rw [lineAt, lineAt, (h.resolve_left hstart).takeWhile, (h'.resolve_left hstart).takeWhile]

theorem lineAt_of_breaksLine (h : BreaksLine q) (p : Text) : lineAt p q = lineEnd p := by
  have htake := h.takeWhile []
  rw [List.nil_append] at htake
  rw [lineAt, htake]
  simp

/-! ## The place of imports in longer texts -/

/-- The lines for the missing imports, with what is around them. -/
def gapLines (head foot : Text) (missing : List Text) : Text :=
  if missing.isEmpty then [] else head ++ (importLines missing ++ foot)

namespace ImportGap

theorem insertImports_eq (h : ImportGap u head foot v) (paths : List Text) :
    Scaffold.insertImports (u ++ v) paths =
      u ++ (gapLines head foot (missingImports (u ++ v) paths) ++ v) := by
  by_cases hnone : missingImports (u ++ v) paths = []
  · simp [Scaffold.insertImports, gapLines, hnone]
  · rw [h.insertImports hnone, gapLines, if_neg (by simpa using hnone), List.append_assoc]

end ImportGap

theorem gapLines_nil (missing : List Text) : gapLines [] [] missing = importLines missing := by
  cases missing with
  | nil => rfl
  | cons path missing => simp [gapLines]

theorem missingImports_congr {content' : Text}
    (h : ∀ path ∈ paths, path <:+: content' ↔ path <:+: content) :
    missingImports content' paths = missingImports content paths := by
  unfold missingImports
  refine List.filter_congr fun path hpath => ?_
  have hiff := h path (List.mem_eraseDups.1 hpath)
  rw [← Text.occursIn_iff, ← Text.occursIn_iff, ← Bool.eq_iff_iff] at hiff
  rw [hiff]

/-- Imports that come in in two batches come in in one. -/
theorem insertImports_insertImports (hfeature : feature.Plain)
    (hpaths : ∀ path ∈ paths, IsModelImport feature path)
    (hothers : ∀ path ∈ others, IsModelImport feature path) :
    insertImports (insertImports content paths) others = insertImports content (paths ++ others) := by
  obtain ⟨u, head, foot, v, rfl, hgap⟩ := exists_importGap content
  have hmissing : ∀ path ∈ missingImports (u ++ v) paths, IsModelImport feature path :=
    fun path hpath => hpaths path (mem_missingImports.1 hpath).1
  rw [hgap.insertImports_eq, hgap.insertImports_eq]
  by_cases hnone : missingImports (u ++ v) paths = []
  · have hall : missingImports (u ++ v) (paths ++ others) = missingImports (u ++ v) others := by
      rw [missingImports_append (u ++ v) (by simp [hnone]), hnone, List.nil_append]
    rw [hall, hnone]
    exact hgap.insertImports_eq others
  · have hall : missingImports (u ++ v) (paths ++ others) = missingImports (u ++ v) paths ++
        missingImports (u ++ (head ++ (importLines (missingImports (u ++ v) paths) ++ foot)) ++ v)
          others :=
      missingImports_append _ fun path hpath => hgap.infix_iff (hothers path hpath) hfeature hmissing
    rw [hall]
    generalize missingImports (u ++ v) paths = missing at hnone hmissing ⊢
    have hnext := hgap.next (fun path hpath => (hmissing path hpath).consists hfeature) hnone
    have heq : u ++ (head ++ (importLines missing ++ foot)) ++ v =
        u ++ (head ++ importLines missing) ++ (foot ++ v) := by simp
    have hlines : u ++ (gapLines head foot missing ++ v) =
        u ++ (head ++ importLines missing) ++ (foot ++ v) := by
      rw [gapLines, if_neg (by simpa using hnone)]
      simp
    rw [hlines, hnext.insertImports_eq, heq, gapLines_nil]
    generalize missingImports (u ++ (head ++ importLines missing) ++ (foot ++ v)) others = missing'
    rw [gapLines, if_neg (by simp [hnone]), importLines_append]
    simp

/-- The imports for two batches of endpoints. -/
theorem insertImports_modelImports (content : Text) (hfeature : feature.Plain)
    (hB : ∀ endpoint ∈ B, endpoint.Plain) (hC : ∀ endpoint ∈ C, endpoint.Plain) :
    insertImports content (feature.modelImports (B ++ C)) =
      insertImports (insertImports content (feature.modelImports B)) (feature.modelImports C) := by
  have hdups : ∀ paths : List Text, insertImports content paths.eraseDups =
      insertImports content paths := fun paths => by
    unfold insertImports
    rw [missingImports_eraseDups]
  have hmem : ∀ {endpoints : List Endpoint}, (∀ endpoint ∈ endpoints, endpoint.Plain) →
      ∀ path ∈ endpoints.flatMap fun endpoint => endpoint.requiredModels.map feature.modelImport,
        IsModelImport feature path := fun h path hpath =>
    mem_modelImports feature h path (by unfold Feature.modelImports; exact List.mem_eraseDups.2 hpath)
  have hdups' : ∀ (content : Text) (paths : List Text), insertImports content paths.eraseDups =
      insertImports content paths := fun content paths => by
    unfold insertImports
    rw [missingImports_eraseDups]
  unfold Feature.modelImports
  rw [List.flatMap_append, hdups', hdups', hdups',
    insertImports_insertImports hfeature (hmem hB) (hmem hC)]

/-! ## Imports around other code -/

/-- Other code that goes in in front of `rest`: it starts with a line break, and neither it nor the
line break where it ends is part of an import. -/
structure Foreign (feature : Feature) (y rest : Text) : Prop where
  ne_nil : y ≠ []
  breaks : BreaksLine y
  joint : LineJoint y rest
  no_quote : '\'' ∉ y
  no_path : ∀ path, IsModelImport feature path → Text.Avoids path y

namespace Foreign

theorem avoids (h : Foreign feature y q) : Text.Avoids importToken y :=
  Text.avoids_of_not_mem (by decide) h.no_quote

theorem breaksLine_append (h : Foreign feature y q) (rest : Text) : BreaksLine (y ++ rest) := by
  obtain ⟨c, y, rfl⟩ := List.exists_cons_of_ne_nil h.ne_nil
  exact h.breaks

/-- Other code brings and breaks no import path. -/
theorem missingImports (h : Foreign feature y q) (hfeature : feature.Plain)
    (hpaths : ∀ path ∈ paths, IsModelImport feature path)
    (hq : ∀ c ∈ q.head?, isPathChar c = false) :
    missingImports (p ++ (y ++ q)) paths = missingImports (p ++ q) paths := by
  refine missingImports_congr fun path hpath => ?_
  have hpath := hpaths path hpath
  have hchars := hpath.consists hfeature
  have hbreak : '\n' ∉ path := hchars.not_mem (by decide)
  refine infix_insert_iff (h.no_path path hpath)
    (infix_of_lineJoint (.inr (h.breaksLine_append q)) hbreak) (infix_of_lineJoint h.joint hbreak)
    fun hin => ?_
  refine Text.infix_of_append_of_head hin fun c hc hmem => ?_
  simpa [hq c hc] using hchars c hmem

end Foreign

namespace ImportGap

/-- Imports come in in front of other code. -/
theorem through_behind (h : ImportGap u head foot (t ++ q)) (hy : Foreign feature y q)
    (hfeature : feature.Plain) (hpaths : ∀ path ∈ paths, IsModelImport feature path)
    (hq : ∀ c ∈ q.head?, isPathChar c = false) (hne : u ++ t ≠ []) (hqne : q ≠ []) :
    Scaffold.insertImports (u ++ (t ++ (y ++ q))) paths =
      u ++ (gapLines head foot (missingImports (u ++ (t ++ q)) paths) ++ (t ++ (y ++ q))) := by
  have hgap := h.insert_behind hy.avoids hy.ne_nil hy.breaks hy.joint hne (by simp [hqne])
  have hmissing := hy.missingImports (p := u ++ t) hfeature hpaths hq
  rw [List.append_assoc, List.append_assoc] at hmissing
  rw [hgap.insertImports_eq, hmissing]

/-- Imports come in behind other code. -/
theorem through_front (h : ImportGap (p ++ s) head foot v) (hy : Foreign feature y (s ++ v))
    (hfeature : feature.Plain) (hpaths : ∀ path ∈ paths, IsModelImport feature path)
    (hq : ∀ c ∈ (s ++ v).head?, isPathChar c = false) (hs : s ≠ [])
    (hline : Text.Avoids importToken (lineAt p (s ++ v))) :
    Scaffold.insertImports (p ++ (y ++ (s ++ v))) paths =
      p ++ (y ++ (s ++ (gapLines head foot (missingImports (p ++ (s ++ v)) paths) ++ v))) := by
  have hgap := h.insert_front (y := y) hs hline
  have hmissing := hy.missingImports (p := p) hfeature hpaths hq
  have heq := hgap.insertImports_eq paths
  simp only [List.append_assoc] at heq
  rw [heq, hmissing]

/-- The place of imports is where a line ends. -/
theorem lineJoint (h : ImportGap u head foot v) : LineJoint u v := by
  cases h with
  | line => exact .inl (by simp [← List.append_assoc])
  | last => exact .inr (by simp [BreaksLine])
  | top => exact .inl rfl

theorem lineStart (h : ImportGap u head foot v) (hv : v ≠ []) : startsLineAfter true u = true := by
  cases h with
  | line => simp [← List.append_assoc]
  | last => exact absurd rfl hv
  | top => rfl


theorem inert_lines (h : ImportGap u head foot v)
    (hpaths : ∀ path ∈ missing, Consists isPathChar path) : Inert (gapLines head foot missing) := by
  unfold gapLines
  split
  · exact .nil
  · exact h.inert hpaths

/-- Import lines end where a line starts. -/
theorem lineStart_lines (h : ImportGap u head foot v)
    (hpaths : ∀ path ∈ missing, Consists isPathChar path) :
    startsLineAfter true (gapLines head foot missing) = true :=
  (h.inert_lines hpaths).ends_line

theorem place_lines (h : ImportGap u head foot v) :
    LinePlace u (gapLines head foot missing) v := by
  unfold gapLines
  split
  · cases h with
    | line => exact .inl (by simp [← List.append_assoc])
    | last => exact .inr ⟨rfl, by simp [BreaksLine]⟩
    | top => exact .inl rfl
  · exact h.place _

theorem lineJoint_before (h : ImportGap u head foot v) : LineJoint u (gapLines head foot missing ++ v) := by
  cases h with
  | line => exact .inl (by simp [← List.append_assoc])
  | last =>
      refine .inr ?_
      unfold gapLines
      split <;> simp [BreaksLine]
  | top => exact .inl rfl

end ImportGap

/-- Imports break no mark that stands on one line. -/
theorem infix_insertImports {mark : Text} (hbreak : '\n' ∉ mark) (h : mark <:+: content)
    (paths : List Text) : mark <:+: insertImports content paths := by
  obtain ⟨u, head, foot, v, rfl, hgap⟩ := exists_importGap content
  rw [hgap.insertImports_eq]
  rcases infix_of_lineJoint hgap.lineJoint hbreak h with hin | hin
  · exact hin.trans ⟨[], _, rfl⟩
  · exact hin.trans ⟨u ++ gapLines head foot _, [], by rw [List.append_nil, List.append_assoc]⟩

end Scaffold
