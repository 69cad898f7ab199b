import Mathlib.Data.List.Basic
import Scaffold.Patch.Insertion
import Scaffold.Proofs.Dart.ImportPaths
import Scaffold.Proofs.Patch.Anchors
import Scaffold.Proofs.Text.EraseDups

/-!
# Where imports go in

New imports go in at one place of a text, behind the line of the last import (`ImportGap`). Text
that goes in elsewhere leaves the place where it is (`ImportGap.insert`), and behind the imports of
one run there is the place for those of the next (`ImportGap.next`). Which imports are missing
depends only on the imports that are there (`missingImports_append`).
-/

namespace Scaffold

open Anchor

variable {a b p q u v x y head foot text content path : Text} {paths missing : List Text}

/-- The lines of imports. -/
def importLines (paths : List Text) : Text := Text.lines (paths.map importClause)

/-- The content is cut into `u` and `v` where imports go in, with `head` in front of them and `foot`
behind them: behind the line of the last import, behind the last line if that one is an unended
import, or at the top. -/
inductive ImportGap : (u head foot v : Text) → Prop
  | line {w line v : Text} : '\n' ∉ line →
      Text.Avoids importToken (importToken ++ (line ++ '\n' :: v)).tail →
      ImportGap (w ++ (importToken ++ (line ++ ['\n']))) [] [] v
  | last {w line : Text} : '\n' ∉ line → Text.Avoids importToken (importToken ++ line).tail →
      ImportGap (w ++ (importToken ++ line)) ['\n'] [] []
  | top {v : Text} : Text.Avoids importToken v →
      ImportGap [] [] (if v.startsWith "\n" then [] else ['\n']) v

theorem exists_importGap (content : Text) :
    ∃ u head foot v, content = u ++ v ∧ ImportGap u head foot v := by
  cases hsplit : Text.splitLast? importToken content with
  | none =>
      exact ⟨[], [], _, content, rfl, .top ((Text.splitLast?_eq_none_iff (by decide)).1 hsplit)⟩
  | some parts =>
      obtain ⟨w, fromImport⟩ := parts
      obtain rfl := Text.splitLast?_eq_some_append hsplit
      obtain ⟨⟨rest, rfl⟩, havoids⟩ := Text.splitLast?_eq_some hsplit (by decide)
      have hline : '\n' ∉ rest.takeWhile (· != '\n') := by
        intro hmem
        simpa using List.mem_takeWhile_imp hmem
      have hrest := List.takeWhile_append_dropWhile (p := fun c => c != '\n') (l := rest)
      generalize rest.takeWhile (· != '\n') = line at hline hrest
      cases hdrop : rest.dropWhile (· != '\n') with
      | nil =>
          rw [hdrop, List.append_nil] at hrest
          subst hrest
          exact ⟨w ++ (importToken ++ line), ['\n'], [], [], by simp, .last hline havoids⟩
      | cons c v =>
          have hc : c = '\n' := by
            have hne : rest.dropWhile (· != '\n') ≠ [] := by simp [hdrop]
            have := List.head_dropWhile_not (fun c => c != '\n') hne
            simpa [hdrop] using this
          subst hc
          rw [hdrop] at hrest
          refine ⟨w ++ (importToken ++ (line ++ ['\n'])), [], [], v, ?_,
            .line hline (by rwa [hrest])⟩
          simp [← hrest]

namespace ImportGap

theorem insertImports (h : ImportGap u head foot v) (hne : missingImports (u ++ v) paths ≠ []) :
    insertImports (u ++ v) paths =
      u ++ (head ++ (importLines (missingImports (u ++ v) paths) ++ foot)) ++ v := by
  unfold Scaffold.insertImports
  generalize missingImports (u ++ v) paths = missing at hne ⊢
  have hempty : missing.isEmpty = false := by simpa using hne
  simp only [hempty, Bool.false_eq_true, if_false]
  have htoken : importToken = 'i' :: "mport '".toList := rfl
  have hbreak : '\n' ∉ importToken := by decide
  cases h with
  | @line w line v hline havoids =>
      have hsplit : Text.splitLast? importToken (w ++ (importToken ++ (line ++ ['\n'])) ++ v) =
          some (w, importToken ++ (line ++ '\n' :: v)) := by
        have htext : w ++ (importToken ++ (line ++ ['\n'])) ++ v =
            w ++ (importToken ++ (line ++ '\n' :: v)) := by simp
        rw [htext]
        exact Text.splitLast?_append ⟨line ++ '\n' :: v, rfl⟩ havoids
      have hall : ∀ c ∈ importToken ++ line, (c != '\n') = true := by
        intro c hc
        rw [bne_iff_ne]
        rintro rfl
        rcases List.mem_append.1 hc with hc | hc
        · exact hbreak hc
        · exact hline hc
      rw [hsplit]
      simp only [← List.append_assoc]
      rw [List.takeWhile_append_of_pos hall, List.dropWhile_append_of_pos hall]
      simp [importLines]
  | @last w line hline havoids =>
      have hsplit : Text.splitLast? importToken (w ++ (importToken ++ line)) =
          some (w, importToken ++ line) := Text.splitLast?_append ⟨line, rfl⟩ havoids
      have hdrop : (importToken ++ line).dropWhile (· != '\n') = [] := by
        rw [List.dropWhile_eq_nil_iff]
        intro c hc
        rw [bne_iff_ne]
        rintro rfl
        rcases List.mem_append.1 hc with hc | hc
        · exact hbreak hc
        · exact hline hc
      rw [List.append_nil, hsplit]
      simp only [hdrop]
      simp [importLines]
  | top havoids =>
      rw [List.nil_append, Text.splitLast?_eq_none havoids]
      dsimp only
      split
      · simp [importLines]
      · simp [importLines]

end ImportGap

/-! ## Places at line breaks -/

/-- A line ends between `a` and `b`: one starts behind `a`, or `b` starts with a line break. -/
def LineJoint (a b : Text) : Prop := startsLineAfter true a = true ∨ BreaksLine b

theorem getLast?_of_startsLineAfter (h : startsLineAfter true a = true) :
    ∀ c ∈ a.getLast?, c = '\n' := by
  intro c hc
  obtain ⟨front, rfl⟩ := List.getLast?_eq_some_iff.1 hc
  simpa using h

theorem infix_of_lineJoint {mark : Text} (h : LineJoint a b) (hmark : '\n' ∉ mark)
    (hin : mark <:+: a ++ b) : mark <:+: a ∨ mark <:+: b := by
  rcases h with h | h
  · refine Text.infix_of_append_of_last hin fun c hc => ?_
    rw [getLast?_of_startsLineAfter h c hc]
    exact hmark
  · refine Text.infix_of_append_of_head hin fun c hc => ?_
    rw [h c hc]
    exact hmark

theorem avoids_of_lineJoint {mark : Text} (h : LineJoint a b) (hmark : '\n' ∉ mark)
    (ha : Text.Avoids mark a) (hb : Text.Avoids mark b) : Text.Avoids mark (a ++ b) := by
  intro hin
  rcases infix_of_lineJoint h hmark hin with hin | hin
  · exact ha hin
  · exact hb hin

/-- The part of a text behind its last line break. -/
def lineEnd (text : Text) : Text := (text.reverse.takeWhile (· != '\n')).reverse

/-- The line in which the place between `a` and `b` lies. -/
def lineAt (a b : Text) : Text := lineEnd a ++ b.takeWhile (· != '\n')

theorem lineEnd_append (h : '\n' ∉ b) (a : Text) : lineEnd (a ++ b) = lineEnd a ++ b := by
  have hall : ∀ c ∈ b.reverse, (c != '\n') = true := by
    intro c hc
    rw [bne_iff_ne]
    rintro rfl
    exact h (by simpa using hc)
  unfold lineEnd
  rw [List.reverse_append, List.takeWhile_append_of_pos hall, List.reverse_append,
    List.reverse_reverse]

theorem takeWhile_break (h : '\n' ∉ a) (b : Text) :
    (a ++ '\n' :: b).takeWhile (· != '\n') = a := by
  have hall : ∀ c ∈ a, (c != '\n') = true := by
    intro c hc
    rw [bne_iff_ne]
    rintro rfl
    exact h hc
  rw [List.takeWhile_append_of_pos hall]
  simp

theorem lineAt_infix (ha : '\n' ∉ a) (hb : '\n' ∉ b) (w v : Text) :
    a ++ b <:+: lineAt (w ++ a) (b ++ '\n' :: v) := by
  unfold lineAt
  rw [lineEnd_append ha, takeWhile_break hb]
  exact ⟨lineEnd w, [], by simp⟩

theorem lineAt_infix_of_last (ha : '\n' ∉ a) (hb : '\n' ∉ b) (w : Text) :
    a ++ b <:+: lineAt (w ++ a) b := by
  have htake : b.takeWhile (· != '\n') = b := by
    rw [List.takeWhile_eq_self_iff]
    intro c hc
    rw [bne_iff_ne]
    rintro rfl
    exact hb hc
  unfold lineAt
  rw [lineEnd_append ha, htake]
  exact ⟨lineEnd w, [], by simp⟩

theorem tail_importToken (text : Text) : (importToken ++ text).tail = "mport '".toList ++ text := rfl

theorem break_not_mem_importToken : '\n' ∉ importToken := by decide

namespace ImportGap

theorem place (h : ImportGap u head foot v) (x : Text) :
    LinePlace u (head ++ x) v := by
  cases h with
  | line => exact .inl (by simp [← List.append_assoc])
  | last => exact .inr ⟨rfl, by simp [BreaksLine]⟩
  | top => exact .inl rfl

/-- Text without imports that goes in behind the place of imports leaves it where it is. -/
theorem insert_behind {s : Text} (h : ImportGap u head foot (s ++ q))
    (hy : Text.Avoids importToken y) (hyne : y ≠ []) (hstart : BreaksLine y) (hend : LineJoint y q)
    (hne : u ++ s ≠ []) (hbehindne : s ++ q ≠ []) : ImportGap u head foot (s ++ (y ++ q)) := by
  have hbreak := break_not_mem_importToken
  -- no import goes on over the two ends of `y`
  have hbehind : ∀ s : Text, Text.Avoids importToken (s ++ q) →
      Text.Avoids importToken (s ++ (y ++ q)) := by
    intro s hs
    refine avoids_of_lineJoint (.inr ?_) hbreak (hs.of_part ⟨[], q, by simp⟩)
      (avoids_of_lineJoint hend hbreak hy (hs.of_part ⟨s, [], by simp⟩))
    obtain ⟨c, y, rfl⟩ := List.exists_cons_of_ne_nil hyne
    exact hstart
  generalize hv : s ++ q = v at h
  cases h with
  | @line w line v hline havoids =>
      refine .line hline ?_
      rw [tail_importToken] at havoids ⊢
      have := hbehind ("mport '".toList ++ (line ++ '\n' :: s)) (by simpa [hv] using havoids)
      simpa using this
  | last => exact absurd hv hbehindne
  | top havoids =>
      have hgap := ImportGap.top (hbehind s (hv ▸ havoids))
      have hfoot : Text.startsWith (s ++ (y ++ q)) "\n" = Text.startsWith (s ++ q) "\n" := by
        obtain ⟨c, s, rfl⟩ := List.exists_cons_of_ne_nil (by simpa using hne : s ≠ [])
        simp [Text.startsWith, List.isPrefixOf]
      rwa [hfoot, hv] at hgap

/-- Text that goes in in front of the place of imports leaves it where it is, unless it goes in in
the line of the last import. -/
theorem insert_front {s : Text} (h : ImportGap (p ++ s) head foot v) (hs : s ≠ [])
    (hline : Text.Avoids importToken (lineAt p (s ++ v))) :
    ImportGap (p ++ (y ++ s)) head foot v := by
  have hbreak := break_not_mem_importToken
  -- the place is not in the line of the last import
  have hnot : ∀ {w line x t : Text}, '\n' ∉ line → p = w ++ x → x ++ t = importToken ++ line →
      (s ++ v = t ++ '\n' :: v ∨ s ++ v = t) → False := by
    intro w line x t hline' hp hx hq
    have hbreaks : '\n' ∉ x ++ t := by simp [hx, hbreak, hline']
    rw [List.mem_append, not_or] at hbreaks
    have hin : x ++ t <:+: lineAt p (s ++ v) := by
      rcases hq with hq | hq
      · rw [hp, hq]
        exact lineAt_infix hbreaks.1 hbreaks.2 w v
      · rw [hp, hq]
        exact lineAt_infix_of_last hbreaks.1 hbreaks.2 w
    rw [hx] at hin
    exact hline ((List.prefix_append importToken line).isInfix.trans hin)
  generalize hu : p ++ s = u at h
  cases h with
  | @line w line v hline' havoids =>
      rcases List.append_eq_append_iff.1 hu.symm with ⟨x, hpx, hx⟩ | ⟨x, hpx, hx⟩
      · obtain ⟨t, rfl⟩ : ∃ t, s = t ++ ['\n'] := by
          have hlast : (x ++ s).getLast? = some '\n' := by rw [← hx]; simp
          rw [List.getLast?_append_of_ne_nil _ hs] at hlast
          exact List.getLast?_eq_some_iff.1 hlast
        have hxt : x ++ t = importToken ++ line := by
          have heq : importToken ++ line ++ ['\n'] = x ++ t ++ ['\n'] := by simpa using hx
          exact (List.append_cancel_right heq).symm
        exact (hnot hline' hpx hxt (.inl (by simp))).elim
      · rw [hx, ← List.append_assoc, ← List.append_assoc]
        exact .line hline' havoids
  | @last w line hline' havoids =>
      rcases List.append_eq_append_iff.1 hu.symm with ⟨x, hpx, hx⟩ | ⟨x, hpx, hx⟩
      · exact (hnot hline' hpx hx.symm (.inr (by simp))).elim
      · rw [hx, ← List.append_assoc, ← List.append_assoc]
        exact .last hline' havoids
  | top havoids => exact absurd (List.append_eq_nil_iff.1 hu).2 hs

end ImportGap

/-! ## Import paths -/

/-- The characters between the two ends of the path of a file of a package. -/
def isPackageChar (c : Char) : Bool := isAsciiWordChar c || c == '/'

theorem AsciiWordy.packageChars {name : Text} (h : AsciiWordy name) :
    Consists isPackageChar name :=
  h.consists.mono fun c hc => by simp [isPackageChar, hc]

/-- The path of a file of a package. Its one colon stands behind the word for packages, its one dot in
front of the ending. -/
def IsPackagePath (path : Text) : Prop :=
  ∃ inner, path = "package:" ++ (inner ++ ".dart") ∧ Consists isPackageChar inner

/-- Of two paths of packages neither is part of the other. -/
theorem IsPackagePath.infix_eq {other : Text} (h : IsPackagePath path)
    (hother : IsPackagePath other) (hin : path <:+: other) : path = other := by
  obtain ⟨inner, rfl, -⟩ := h
  obtain ⟨inner', rfl, hinner'⟩ := hother
  obtain ⟨front, last, heq⟩ := hin
  -- there is one colon, so both paths start at the same place
  have hcolon : ':' ∉ inner' ++ ".dart" := by
    rw [List.mem_append, not_or]
    exact ⟨hinner'.not_mem (by decide), by decide⟩
  have hstart : "package".toList ++ ':' :: (inner' ++ ".dart") =
      (front ++ "package") ++ ':' :: (inner ++ ".dart" ++ last) := by
    have hopen : ("package:" : Text) = "package" ++ [':'] := Text.literal_append rfl
    rw [hopen] at heq
    simp only [List.append_assoc, List.cons_append, List.nil_append] at heq ⊢
    exact heq.symm
  have hword : ':' ∉ "package".toList := by decide
  obtain ⟨hfront, -, hrest⟩ := (List.append_cons_inj_of_notMem hword hcolon).1 hstart
  -- and there is one dot, so both end at the same place
  have hend : inner' ++ '.' :: "dart".toList = inner ++ '.' :: ("dart" ++ last) := by
    have hending : (".dart" : Text) = ['.'] ++ "dart" := rfl
    rw [hending] at hrest
    simpa only [List.append_assoc, List.cons_append, List.nil_append] using hrest
  have hdot : '.' ∉ inner' := hinner'.not_mem (by decide)
  have hdart : '.' ∉ "dart".toList := by decide
  rw [((List.append_cons_inj_of_notMem hdot hdart).1 hend).1]

/-- The path of a model of the feature. -/
def IsModelImport (feature : Feature) (path : Text) : Prop :=
  ∃ model, AsciiWordy model ∧ path = feature.modelImport model

section

variable {feature : Feature} {endpoint : Endpoint} {endpoints others : List Endpoint}

theorem mem_modelImports (feature : Feature) (h : ∀ endpoint ∈ endpoints, endpoint.Plain) :
    ∀ path ∈ feature.modelImports endpoints, IsModelImport feature path := by
  intro path hpath
  unfold Feature.modelImports at hpath
  obtain ⟨endpoint, hendpoint, hpath⟩ := List.mem_flatMap.1 (List.mem_eraseDups.1 hpath)
  obtain ⟨model, hmodel, rfl⟩ := List.mem_map.1 hpath
  exact ⟨model, (h endpoint hendpoint).requiredModel model hmodel, rfl⟩

namespace IsModelImport

theorem consists (h : IsModelImport feature path) (hfeature : feature.Plain) :
    Consists isPathChar path := by
  obtain ⟨model, hmodel, rfl⟩ := h
  unfold Feature.modelImport
  exact .append (.append (.append (.append hfeature.spells.package (.literal (by decide)))
    hfeature.modelFolder.pathChars) (.literal (by decide))) (pathChars_modelFile hmodel)

/-- A model is the file of a package. -/
theorem isPackagePath (h : IsModelImport feature path) (hfeature : feature.Plain) :
    IsPackagePath path := by
  obtain ⟨model, hmodel, rfl⟩ := h
  refine ⟨feature.project ++ "/features/" ++ feature.name ++ "/data/" ++ feature.modelFolder ++
    "/" ++ model.snake, ?_, ?_⟩
  · show Feature.modelImport feature model = _
    unfold Feature.modelImport Feature.package modelFile
    simp only [List.append_assoc]
  · exact (((((hfeature.project.packageChars.append (.literal (by decide))).append
      hfeature.name.packageChars).append (.literal (by decide))).append
      hfeature.modelFolder.packageChars).append (.literal (by decide))).append
      hmodel.snake.packageChars

/-- Import paths start with the word for packages and a colon. -/
theorem exists_package (h : IsModelImport feature path) (hfeature : feature.Plain) :
    ∃ rest, path = "package" ++ ':' :: rest ∧ ':' ∉ rest := by
  obtain ⟨inner, rfl, hinner⟩ := h.isPackagePath hfeature
  refine ⟨inner ++ ".dart", rfl, ?_⟩
  rw [List.mem_append, not_or]
  exact ⟨hinner.not_mem (by decide), by decide⟩

theorem slash_mem (h : IsModelImport feature path) : '/' ∈ path := by
  obtain ⟨model, -, rfl⟩ := h
  unfold Feature.modelImport
  simp

theorem ne_nil (h : IsModelImport feature path) : path ≠ [] := List.ne_nil_of_mem h.slash_mem

end IsModelImport

/-- Of two import paths of models neither is part of the other. -/
theorem IsModelImport.infix_eq {other : Text} (h : IsModelImport feature path)
    (hother : IsModelImport feature other) (hfeature : feature.Plain) (hin : path <:+: other) :
    path = other :=
  (h.isPackagePath hfeature).infix_eq (hother.isPackagePath hfeature) hin

/-! ## Lines of imports -/

theorem importLines_append (paths others : List Text) :
    importLines (paths ++ others) = importLines paths ++ importLines others := by
  unfold importLines
  rw [List.map_append, Text.lines_append]

theorem importLines_cons (path : Text) (paths : List Text) :
    importLines (path :: paths) = importClause path ++ '\n' :: importLines paths := by
  unfold importLines
  rw [List.map_cons, Text.lines_cons]

theorem not_mem_importClause {c : Char} (hpath : Consists isPathChar path)
    (hc : isPathChar c = false) (hclause : c ∉ ("import '';" : Text)) : c ∉ importClause path := by
  intro hmem
  have hmem : c ∈ importToken ++ (path ++ "';") := by
    unfold importClause at hmem
    rwa [List.append_assoc] at hmem
  rcases List.mem_append.1 hmem with hmem | hmem
  · exact hclause (List.mem_append_left "';" hmem)
  · rcases List.mem_append.1 hmem with hmem | hmem
    · exact hpath.not_mem hc hmem
    · exact hclause (List.mem_append_right importToken hmem)

theorem not_mem_importLines {c : Char} (hpaths : ∀ path ∈ paths, Consists isPathChar path)
    (hc : isPathChar c = false) (hclause : c ∉ ("import '';\n" : Text)) : c ∉ importLines paths := by
  induction paths with
  | nil => simp [importLines]
  | cons path paths ih =>
      have hfirst : c ∉ importClause path :=
        not_mem_importClause (hpaths path (by simp)) hc fun hmem =>
          hclause (List.mem_append_left ['\n'] hmem)
      have hbreak : c ≠ '\n' := by
        rintro rfl
        exact hclause (by decide)
      rw [importLines_cons]
      simp [hfirst, hbreak, ih fun other hother => hpaths other (by simp [hother])]

theorem inert_importLines (hpaths : ∀ path ∈ paths, Consists isPathChar path) :
    Inert (importLines paths) := by
  induction paths with
  | nil => exact .nil
  | cons path paths ih =>
      have hpath := hpaths path (by simp)
      have hline : Inert (importClause path ++ ['\n']) :=
        .line (not_mem_importClause hpath (by decide) (by decide))
          (not_mem_importClause hpath (by decide) (by decide)) (by
            rintro c ⟨⟩
            decide)
      have := hline.append (ih fun other hother => hpaths other (by simp [hother]))
      rw [importLines_cons]
      simpa using this

theorem ImportGap.inert (h : ImportGap u head foot v)
    (hpaths : ∀ path ∈ paths, Consists isPathChar path) :
    Inert (head ++ (importLines paths ++ foot)) := by
  have hlines := inert_importLines hpaths
  have hbreak : Inert ([] ++ ['\n']) := .line (by simp) (by simp) (by simp)
  cases h with
  | line => simpa using hlines
  | last => simpa using hbreak.append hlines
  | top =>
      split
      · simpa using hlines
      · simpa using hlines.append hbreak

/-- A text with one space that is not in the right place has no import. -/
theorem avoids_import_rest (hpath : Consists isPathChar path) :
    Text.Avoids importToken ("mport '" ++ (path ++ "';\n")) := by
  rintro ⟨front, last, heq⟩
  have hspace : ' ' ∉ path := hpath.not_mem (by decide)
  have hfirst : ' ' ∉ "mport".toList := by decide
  have hrest : ' ' ∉ '\'' :: (path ++ "';\n") := by
    simp only [List.mem_cons, List.mem_append, hspace]
    decide
  have heq' : "mport".toList ++ ' ' :: '\'' :: (path ++ "';\n") =
      (front ++ "import") ++ ' ' :: '\'' :: last := by
    have htoken : importToken = "import" ++ " '" := rfl
    rw [htoken] at heq
    simp only [List.append_assoc] at heq ⊢
    exact heq.symm
  have := ((List.append_cons_inj_of_notMem hfirst hrest).1 heq').1
  have := congrArg List.length this
  simp at this

/-- Behind the imports that went in there is the place of the next ones. -/
theorem ImportGap.next (h : ImportGap u head foot v)
    (hpaths : ∀ path ∈ paths, Consists isPathChar path) (hne : paths ≠ []) :
    ImportGap (u ++ (head ++ importLines paths)) [] [] (foot ++ v) := by
  obtain ⟨front, path, rfl⟩ : ∃ front path, paths = front ++ [path] :=
    ⟨paths.dropLast, paths.getLast hne, (List.dropLast_append_getLast hne).symm⟩
  have hpath := hpaths path (by simp)
  have hv : Text.Avoids importToken v := by
    cases h with
    | @line w line v hline havoids =>
        rw [tail_importToken] at havoids
        exact havoids.of_part ⟨"mport '".toList ++ (line ++ ['\n']), [], by simp⟩
    | last => decide
    | top havoids => exact havoids
  have hfoot : Text.Avoids importToken (foot ++ v) := by
    cases h with
    | line => exact hv
    | last => exact hv
    | top =>
        split
        · exact hv
        · exact avoids_of_lineJoint (.inl rfl) break_not_mem_importToken (by decide) hv
  have htail : Text.Avoids importToken
      (importToken ++ ((path ++ "';") ++ '\n' :: (foot ++ v))).tail := by
    have heq : (importToken ++ ((path ++ "';") ++ '\n' :: (foot ++ v))).tail =
        ("mport '" ++ (path ++ "';\n")) ++ (foot ++ v) := by
      have hlast : ("';\n" : Text) = "';" ++ ['\n'] := Text.literal_append rfl
      rw [tail_importToken, hlast]
      simp only [List.append_assoc, List.cons_append, List.nil_append]
    rw [heq]
    refine avoids_of_lineJoint (.inl ?_) break_not_mem_importToken (avoids_import_rest hpath) hfoot
    have hlast : ("mport '" ++ (path ++ "';\n") : Text) = ("mport '" ++ (path ++ "';")) ++ ['\n'] := by
      have hlast : ("';\n" : Text) = "';" ++ ['\n'] := Text.literal_append rfl
      rw [hlast]
      simp only [List.append_assoc]
    rw [hlast, startsLineAfter_concat]
    rfl
  have hline : '\n' ∉ path ++ "';" := by
    have hbreak : '\n' ∉ path := hpath.not_mem (by decide)
    simp only [List.mem_append, hbreak]
    decide
  have hgap : ImportGap (u ++ (head ++ importLines front) ++
      (importToken ++ (path ++ "';" ++ ['\n']))) [] [] (foot ++ v) := .line hline htail
  have heq : u ++ (head ++ importLines (front ++ [path])) =
      u ++ (head ++ importLines front) ++ (importToken ++ (path ++ "';" ++ ['\n'])) := by
    rw [importLines_append, importLines_cons]
    unfold importClause
    have hnil : importLines [] = [] := rfl
    rw [hnil]
    simp only [List.append_assoc]
  rwa [heq]

/-! ## Missing imports -/

/-- The path of a model stands in lines of imports if it is one of them, and part of no other one. -/
theorem infix_importLines (hpath : IsModelImport feature path) (hfeature : feature.Plain)
    (hpaths : ∀ other ∈ paths, path <:+: other → path = other) :
    path <:+: importLines paths ↔ path ∈ paths := by
  have hbreak : '\n' ∉ path := (hpath.consists hfeature).not_mem (by decide)
  induction paths with
  | nil =>
      simp only [importLines, List.map_nil, Text.lines_nil, List.not_mem_nil, iff_false]
      exact fun hin => hpath.ne_nil (List.eq_nil_of_infix_nil hin)
  | cons other paths ih =>
      have ih : path <:+: importLines paths ↔ path ∈ paths :=
        ih fun other hother => hpaths other (by simp [hother])
      have hother := hpaths other (by simp)
      rw [importLines_cons, List.mem_cons, ← ih]
      constructor
      · intro hin
        have hjoint : LineJoint (importClause other) ('\n' :: importLines paths) :=
          .inr (by simp [BreaksLine])
        rcases infix_of_lineJoint hjoint hbreak hin with hin | hin
        · -- inside of one clause only the path itself has a slash
          left
          have hslash := hpath.slash_mem
          unfold importClause at hin
          rcases Text.infix_of_append_of_head hin (by
            rintro c ⟨⟩
            exact (hpath.consists hfeature).not_mem (by decide)) with hin | hin
          · rcases Text.infix_of_append_of_last hin (by
              rintro c ⟨⟩
              exact (hpath.consists hfeature).not_mem (by decide)) with hin | hin
            · exact absurd (hin.subset hslash) (by decide)
            · exact hother hin
          · exact absurd (hin.subset hslash) (by decide)
        · right
          exact (infix_of_lineJoint (.inl rfl : LineJoint ['\n'] (importLines paths)) hbreak
            hin).resolve_left fun hin => hbreak (by
              have : path = ['\n'] := by
                rcases List.infix_cons_iff.1 hin with hpre | hin
                · rcases List.prefix_cons_iff.1 hpre with h | ⟨t, h, ht⟩
                  · exact absurd h hpath.ne_nil
                  · rw [h, List.prefix_nil.1 ht]
                · exact absurd (List.eq_nil_of_infix_nil hin) hpath.ne_nil
              simp [this])
      · rintro (rfl | hin)
        · refine ⟨importToken, "';" ++ '\n' :: importLines paths, ?_⟩
          unfold importClause
          simp only [List.append_assoc]
        · exact hin.trans ⟨importClause other ++ ['\n'], [], by simp⟩

/-- A path of a model stands in a text with new imports if it stood there, or is one of them. -/
theorem ImportGap.infix_iff (h : ImportGap u head foot v) (hpath : IsModelImport feature path)
    (hfeature : feature.Plain) (hpaths : ∀ path ∈ paths, IsModelImport feature path) :
    path <:+: u ++ (head ++ (importLines paths ++ foot)) ++ v ↔ path <:+: u ++ v ∨ path ∈ paths := by
  have hbreak : '\n' ∉ path := (hpath.consists hfeature).not_mem (by decide)
  have hno : ∀ {text : Text}, text = [] ∨ text = ['\n'] → ¬ path <:+: text := by
    rintro text (rfl | rfl) hin
    · exact hpath.ne_nil (List.eq_nil_of_infix_nil hin)
    · exact absurd (hin.subset hpath.slash_mem) (by decide)
  have hedges : (head = [] ∨ head = ['\n']) ∧ (foot = [] ∨ foot = ['\n']) := by
    cases h with
    | line => simp
    | last => simp
    | top => split <;> simp
  have hhead : LineJoint head (importLines paths ++ foot) := by
    rcases hedges.1 with h | h
    · exact .inl (by rw [h]; rfl)
    · exact .inl (by rw [h]; rfl)
  have hfoot : LineJoint (importLines paths) foot := by
    rcases hedges.2 with h | h
    · exact .inr (by rw [h]; simp [BreaksLine])
    · exact .inr (by rw [h]; simp [BreaksLine])
  have hends : startsLineAfter true (head ++ (importLines paths ++ foot)) = true :=
    (h.inert fun other hother => (hpaths other hother).consists hfeature).ends_line
  have hstarts : LineJoint u (head ++ (importLines paths ++ foot)) := by
    rcases h.place (importLines paths ++ foot) with h | ⟨-, h⟩
    · exact .inl h
    · exact .inr h
  have hold : LineJoint u v := by
    rcases h.place [] with h | ⟨rfl, -⟩
    · exact .inl h
    · exact .inr (by simp [BreaksLine])
  have hlast : LineJoint (u ++ (head ++ (importLines paths ++ foot))) v := by
    rcases h.place [] with h | ⟨rfl, -⟩
    · exact .inl (by rw [startsLineAfter_append, h, hends])
    · exact .inr (by simp [BreaksLine])
  rw [← infix_importLines hpath hfeature fun other hother =>
    hpath.infix_eq (hpaths other hother) hfeature]
  constructor
  · intro hin
    rcases infix_of_lineJoint hlast hbreak hin with hin | hin
    · rcases infix_of_lineJoint hstarts hbreak hin with hin | hin
      · exact .inl (hin.trans ⟨[], v, by simp⟩)
      · rcases infix_of_lineJoint hhead hbreak hin with hin | hin
        · exact absurd hin (hno hedges.1)
        · rcases infix_of_lineJoint hfoot hbreak hin with hin | hin
          · exact .inr hin
          · exact absurd hin (hno hedges.2)
    · exact .inl (hin.trans ⟨u, [], by simp⟩)
  · rintro (hin | hin)
    · rcases infix_of_lineJoint hold hbreak hin with hin | hin
      · exact hin.trans ⟨[], _, by rw [List.nil_append, List.append_assoc]⟩
      · exact hin.trans ⟨_, [], by rw [List.append_nil]⟩
    · exact hin.trans ⟨u ++ head, foot ++ v, by simp⟩

theorem missingImports_eraseDups (content : Text) (paths : List Text) :
    missingImports content paths.eraseDups = missingImports content paths := by
  unfold missingImports
  rw [eraseDups_of_nodup (nodup_eraseDups paths)]

theorem mem_missingImports :
    path ∈ missingImports content paths ↔ path ∈ paths ∧ ¬ path <:+: content := by
  unfold missingImports
  rw [List.mem_filter, List.mem_eraseDups, Bool.not_eq_true', Text.occursIn_eq_false_iff]
  rfl

/-- What is missing of two lists of imports: what is missing of the first one, and what is missing of
the second one from a text in which those stand besides. -/
theorem missingImports_append {others : List Text} (content' : Text)
    (h : ∀ path ∈ others,
      path <:+: content' ↔ path <:+: content ∨ path ∈ missingImports content paths) :
    missingImports content (paths ++ others) =
      missingImports content paths ++ missingImports content' others := by
  unfold missingImports
  rw [List.eraseDups_append, List.filter_append]
  congr 1
  rw [filter_eraseDups, filter_eraseDups, List.removeAll, List.filter_filter]
  congr 1
  refine List.filter_congr fun path hpath => ?_
  have hiff := h path hpath
  rw [mem_missingImports] at hiff
  rw [Bool.eq_iff_iff]
  simp only [Bool.and_eq_true, Bool.not_eq_true', Text.occursIn_eq_false_iff, Text.Avoids, hiff,
    List.elem_eq_mem, decide_eq_false_iff_not]
  tauto

end

end Scaffold
