import Scaffold.Proofs.Patch.ClassEnd
import Scaffold.Proofs.Patch.ImportBatches

/-!
# Members of a class in batches

Members that are put in at the end of a class, with the imports they need, may come in batches:
`ClassFile.insert_append`.
-/

namespace Scaffold

open Anchor

variable {file : ClassFile} {feature : Feature} {endpoint : Endpoint} {B C endpoints : List Endpoint}
  {p q s t u v x y text content result : Text} {paths missing members others : List Text}

namespace ClassFile

/-- The text cut where members go in. -/
def splitEnd (file : ClassFile) (feature : Feature) (content : Text) :
    Except MissingAnchor (Text × Text) :=
  match file with
  | .useCases => splitClassEnd content feature.useCasesClass
  | _ =>
    match Text.splitLast? "\x7d" content with
    | none => .error .noBrace
    | some parts => .ok parts

theorem insert_eq (file : ClassFile) (feature : Feature) (content : Text)
    (endpoints : List Endpoint) : file.insert feature content endpoints =
      (file.splitEnd feature (insertImports content (feature.modelImports endpoints))).map
        fun parts => parts.1 ++ (memberBlock "\n\n" (endpoints.map fun endpoint =>
          file.member feature endpoint) ++ parts.2) := by
  have hclass : ∀ content : Text, ∀ members : List Text,
      insertIntoClass content feature.useCasesClass members "\n\n" =
        (splitClassEnd content feature.useCasesClass).map fun parts =>
          parts.1 ++ (memberBlock "\n\n" members ++ parts.2) := by
    intro content members
    unfold insertIntoClass
    cases splitClassEnd content feature.useCasesClass with
    | error e => rfl
    | ok parts => simp [bind, Except.bind, Except.map]
  have hlast : ∀ content : Text, ∀ members : List Text,
      insertBeforeLastBrace content members "\n\n" =
        ((match Text.splitLast? "\x7d" content with
          | none => .error .noBrace
          | some parts => .ok parts : Except MissingAnchor (Text × Text))).map fun parts =>
            parts.1 ++ (memberBlock "\n\n" members ++ parts.2) := by
    intro content members
    unfold insertBeforeLastBrace
    cases Text.splitLast? "\x7d" content with
    | none => rfl
    | some parts => simp [Except.map]
  cases file with
  | useCases => exact hclass _ _
  | _ => exact hlast _ _

theorem splitEnd_toOption (hfile : file ≠ .useCases) (text : Text) :
    (file.splitEnd feature text).toOption = Text.splitLast? "\x7d" text := by
  have hlast : ((match Text.splitLast? "\x7d" text with
      | none => .error .noBrace
      | some parts => .ok parts : Except MissingAnchor (Text × Text))).toOption =
        Text.splitLast? "\x7d" text := by
    cases Text.splitLast? "\x7d" text <;> rfl
  cases file with
  | useCases => exact absurd rfl hfile
  | _ => exact hlast

theorem splitEnd_of_ne (hfile : file ≠ .useCases) : file.splitEnd feature text = .ok (p, q) ↔
    text = p ++ q ∧ ∃ rest, q = '\x7d' :: rest ∧ '\x7d' ∉ rest := by
  rw [← toOption_eq_some_iff, splitEnd_toOption hfile]
  constructor
  · intro h
    obtain ⟨⟨rest, rfl⟩, havoids⟩ := Text.splitLast?_eq_some h (by decide)
    refine ⟨Text.splitLast?_eq_some_append h, rest, rfl, fun hmem => havoids ?_⟩
    exact (List.singleton_infix_iff _ _).2 hmem
  · rintro ⟨rfl, rest, rfl, hrest⟩
    exact Text.splitLast?_append ⟨rest, rfl⟩ (Text.avoids_of_not_mem (by decide) hrest)

theorem splitEnd_append (h : file.splitEnd feature text = .ok (p, q)) : text = p ++ q := by
  by_cases hfile : file = .useCases
  · subst hfile
    exact splitClassEnd_eq_ok_append h
  · exact ((splitEnd_of_ne hfile).1 h).1

theorem exists_brace_of_splitEnd (h : file.splitEnd feature text = .ok (p, q)) :
    ∃ rest, q = '\x7d' :: rest := by
  by_cases hfile : file = .useCases
  · subst hfile
    exact exists_brace_of_splitClassEnd h
  · obtain ⟨-, rest, hq, -⟩ := (splitEnd_of_ne hfile).1 h
    exact ⟨rest, hq⟩

end ClassFile

/-! ## Members and imports -/

/-- An endpoint with plain names, and with a path that holds no part of an import. -/
structure Endpoint.Quiet (endpoint : Endpoint) : Prop extends endpoint.Plain where
  path_quote : '\'' ∉ endpoint.path
  path_package : Text.Avoids "package:" endpoint.path

theorem IsModelImport.avoids_of_package {path : Text} (h : IsModelImport feature path)
    (hfeature : feature.Plain) (hx : Text.Avoids "package:" x) : Text.Avoids path x := by
  obtain ⟨rest, rfl, -⟩ := h.exists_package hfeature
  exact fun hin => hx (List.IsInfix.trans ⟨[], rest, by simp⟩ hin)

theorem IsModelImport.avoids_of_slash {path : Text} (h : IsModelImport feature path)
    (hx : '/' ∉ x) : Text.Avoids path x :=
  Text.avoids_of_not_mem h.slash_mem hx

theorem Endpoint.Plain.clientParameters (h : endpoint.Plain) :
    Consists (fun c => isSignatureChar c || c == '@' || c == '(' || c == ')' || c == '"')
      endpoint.clientParameters := by
  refine Endpoint.Writes.clientParameters (fun argument hargument => ?_) (.literal (by decide))
  obtain ⟨hname, htype⟩ := h.writes argument hargument
  exact ⟨hname.mono fun c hc => by simp [hc], htype.mono fun c hc => by simp [hc]⟩

/-- Members hold no part of an import. -/
theorem ClassFile.member_quiet (file : ClassFile) (hfeature : feature.Plain) (h : endpoint.Quiet) :
    '\'' ∉ file.member feature endpoint ∧
      ∀ path, IsModelImport feature path → Text.Avoids path (file.member feature endpoint) := by
  by_cases hfile : file = .service
  · subst hfile
    have hclient := h.clientParameters
    have hclient : Consists (fun c => c != '\'' && c != ':') endpoint.clientParameters :=
      hclient.mono fun c hc => by
        rw [Bool.and_eq_true, bne_iff_ne, bne_iff_ne]
        constructor <;> rintro rfl <;> exact absurd hc (by decide)
    have hname : ∀ {name : Text}, AsciiWordy name →
        Consists (fun c => c != '\'' && c != ':') name := fun hname =>
      hname.consists.mono fun c hc => by
        rw [Bool.and_eq_true, bne_iff_ne, bne_iff_ne]
        constructor <;> rintro rfl <;> exact absurd hc (by decide)
    have hverb : Consists (fun c => c != '\'' && c != ':') endpoint.annotatedVerb := by
      have hall : ∀ verb ∈ annotatedVerbs, Consists (fun c => c != '\'' && c != ':') verb := by decide
      exact hall _ h.annotatedVerb_mem
    have hmember : member feature endpoint .service =
        ("  @" ++ endpoint.annotatedVerb ++ "(\"") ++ (endpoint.path ++ ("\")\n" ++
          ("  Future<" ++ endpoint.returnType ++ "> " ++ endpoint.methodName ++ "(" ++
            endpoint.clientParameters ++ ");"))) := by
      have hclose : ("\")\n" : Text) = "\")" ++ "\n" := Text.literal_append rfl
      have hopen : ("  @" : Text) = "  " ++ "@" := Text.literal_append rfl
      unfold member Endpoint.annotation Endpoint.futureOf
      rw [hclose, hopen]
      simp only [List.append_assoc]
    have hhead : Consists (fun c => c != '\'' && c != ':')
        ("  @" ++ endpoint.annotatedVerb ++ "(\"") :=
      .append (.append (.literal (by decide)) hverb) (.literal (by decide))
    have htail : Consists (fun c => c != '\'' && c != ':') ("\")\n" ++ ("  Future<" ++
        endpoint.returnType ++ "> " ++ endpoint.methodName ++ "(" ++ endpoint.clientParameters ++
          ");")) :=
      .append (.literal (by decide)) ((((((Consists.append (.literal (by decide))
        (hname h.returnType)).append (.literal (by decide))).append (hname h.methodName)).append
        (.literal (by decide))).append hclient).append (.literal (by decide)))
    rw [hmember]
    refine ⟨?_, fun path hpath => hpath.avoids_of_package hfeature ?_⟩
    · rw [List.mem_append, not_or, List.mem_append (s := endpoint.path), not_or]
      exact ⟨hhead.not_mem (by decide), h.path_quote, htail.not_mem (by decide)⟩
    · have hcolon : ':' ∈ ("package:" : Text) := by decide
      refine (Text.avoids_of_not_mem hcolon (hhead.not_mem (by decide))).append_of_last
        (h.path_package.append_of_head (Text.avoids_of_not_mem hcolon (htail.not_mem (by decide)))
          ?_) ?_
      · rintro c ⟨⟩
        decide
      · intro c hc
        rw [List.getLast?_append_of_ne_nil _ (by decide)] at hc
        obtain rfl : '"' = c := Option.some.inj hc
        decide
  · have hcode := code_member hfile hfeature h.toPlain
    exact ⟨hcode.not_mem (by decide), fun path hpath => hpath.avoids_of_slash (hcode.not_mem (by decide))⟩

/-- A block of members is other code than imports. -/
theorem foreign_memberBlock (h : ∀ member ∈ members, '\'' ∉ member ∧
    ∀ path, IsModelImport feature path → Text.Avoids path member) (hfeature : feature.Plain)
    (rest : Text) : Foreign feature (memberBlock "\n\n" members) rest where
  ne_nil := by simp [memberBlock]
  breaks := by
    rintro c ⟨⟩
    rfl
  joint := .inl (by simp [memberBlock])
  no_quote hmem := by
    unfold memberBlock at hmem
    rcases List.mem_append.1 hmem with hmem | hmem
    · rcases List.mem_append.1 hmem with hmem | hmem
      · exact absurd hmem (by decide)
      · rcases Text.mem_join hmem with hmem | ⟨member, hmember, hmem⟩
        · exact absurd hmem (by decide)
        · exact (h member hmember).1 hmem
    · exact absurd hmem (by decide)
  no_path path hpath := by
    have hbreak : '\n' ∉ path := (hpath.consists hfeature).not_mem (by decide)
    have hline : Text.Avoids path ("\n" : Text) := hpath.avoids_of_slash (by decide)
    have hlines : Text.Avoids path ("\n\n" : Text) := hpath.avoids_of_slash (by decide)
    have hjoin : Text.Avoids path (Text.join "\n\n" members) :=
      avoids_join hbreak hpath.ne_nil rfl rfl hlines fun member hmember => (h member hmember).2 path hpath
    exact avoids_of_lineJoint (.inr (by rintro c ⟨⟩; rfl)) hbreak
      (avoids_of_lineJoint (.inl rfl) hbreak hline hjoin) hline

theorem memberBlock_append (hmembers : members ≠ []) (hothers : others ≠ []) :
    memberBlock "\n\n" members ++ memberBlock "\n\n" others =
      memberBlock "\n\n" (members ++ others) := by
  have hbreaks : ("\n\n" : Text) = "\n" ++ "\n" := Text.literal_append rfl
  unfold memberBlock
  rw [Text.join_append hmembers hothers]
  simp [hbreaks]

/-! ## Import lines and the end of the class -/

theorem avoids_class_importLines (name : Text)
    (hpaths : ∀ path ∈ missing, Consists isPathChar path) :
    Text.Avoids ("class " ++ name) (importLines missing) := by
  have hspace : Text.Avoids "s " (importLines missing) := by
    induction missing with
    | nil => exact Text.avoids_of_not_mem (c := 's') (by decide) (by simp [importLines])
    | cons path missing ih =>
        have hpath : ' ' ∉ path := (hpaths path (by simp)).not_mem (by decide)
        have hclause : Text.Avoids "s " (importClause path ++ ['\n']) := by
          unfold importClause
          rw [List.append_assoc, List.append_assoc]
          refine Text.Avoids.append_of_end (c := ' ') (by decide +kernel) (by decide) ?_
          simp [hpath]
        have heq : importLines (path :: missing) =
            (importClause path ++ ['\n']) ++ importLines missing := by
          rw [importLines_cons]
          simp
        rw [heq]
        exact hclause.append_of_last (ih fun other hother => hpaths other (by simp [hother]))
          (by simp)
  intro hin
  exact hspace (List.IsInfix.trans ⟨"clas", name, rfl⟩ hin)

theorem not_mem_gapLines {c : Char} (h : ImportGap u head foot v)
    (hpaths : ∀ path ∈ missing, Consists isPathChar path) (hc : isPathChar c = false)
    (hclause : c ∉ ("import '';\n" : Text)) : c ∉ gapLines head foot missing := by
  have hlines := not_mem_importLines hpaths hc hclause
  have hne : c ≠ '\n' := by
    rintro rfl
    exact hclause (by decide)
  unfold gapLines
  split
  · simp
  · cases h with
    | line => simpa using hlines
    | last => simp [hlines, hne]
    | top =>
        split <;> simp [hlines, hne]

theorem avoids_class_gapLines {name : Text} (h : ImportGap u head foot v) (hname : '\n' ∉ name)
    (hpaths : ∀ path ∈ missing, Consists isPathChar path) :
    Text.Avoids ("class " ++ name) (gapLines head foot missing) := by
  have hlines := avoids_class_importLines name hpaths
  have hbreak : '\n' ∉ ("class " ++ name : Text) := by
    simp only [List.mem_append, hname]
    decide
  have hnone : ∀ text : Text, ' ' ∉ text → Text.Avoids ("class " ++ name) text := fun text =>
    Text.avoids_of_not_mem (by simp)
  have hjoin : ∀ {a b : Text}, startsLineAfter true a = true →
      Text.Avoids ("class " ++ name) a → Text.Avoids ("class " ++ name) b →
      Text.Avoids ("class " ++ name) (a ++ b) := fun ha => avoids_of_lineJoint (.inl ha) hbreak
  have hends := (inert_importLines hpaths).ends_line
  unfold gapLines
  split
  · exact hnone [] (by simp)
  · cases h with
    | line => simpa using hlines
    | last => exact hjoin rfl (hnone _ (by decide)) (hjoin hends hlines (hnone [] (by simp)))
    | top => exact hlines |> hjoin hends <| hnone _ (by split <;> decide)

theorem splitLast?_brace_cons (c : Char) (text : Text) : Text.splitLast? "\x7d" (c :: text) =
    match Text.splitLast? "\x7d" text with
    | some parts => some (c :: parts.1, parts.2)
    | none => if c = '\x7d' then some ([], c :: text) else none := by
  rw [Text.splitLast?]
  cases Text.splitLast? "\x7d" text with
  | some parts => rfl
  | none =>
      have hbrace : ("\x7d" : Text) = ['\x7d'] := rfl
      by_cases hc : c = '\x7d'
      · simp [hbrace, hc]
      · simp [hbrace, hc, Ne.symm hc]

/-- Text without braces moves the last brace, or is behind it. -/
theorem moved_splitLast? (hx : '\x7d' ∉ x) :
    Moved u x v (Text.splitLast? "\x7d" (u ++ v)) (Text.splitLast? "\x7d" (u ++ (x ++ v))) := by
  induction u with
  | nil =>
      have hskip : Text.splitLast? "\x7d" (x ++ v) =
          (Text.splitLast? "\x7d" v).map fun parts => (x ++ parts.1, parts.2) := by
        induction x with
        | nil =>
            rw [List.nil_append]
            cases Text.splitLast? "\x7d" v <;> rfl
        | cons c x ih =>
            rw [List.mem_cons, not_or] at hx
            rw [List.cons_append, splitLast?_brace_cons, ih hx.2]
            cases Text.splitLast? "\x7d" v with
            | none => simp [Ne.symm hx.1]
            | some parts => rfl
      rw [List.nil_append, List.nil_append, hskip]
      cases hcut : Text.splitLast? "\x7d" v with
      | none => exact .none
      | some parts => exact .right (Text.splitLast?_eq_some_append hcut)
  | cons c u ih =>
      rw [List.cons_append, List.cons_append, splitLast?_brace_cons, splitLast?_brace_cons]
      generalize Text.splitLast? "\x7d" (u ++ v) = cut at ih ⊢
      generalize Text.splitLast? "\x7d" (u ++ (x ++ v)) = cut' at ih ⊢
      cases ih with
      | none =>
          dsimp only
          split
          · exact .left (a := []) (List.cons_ne_nil c u) rfl
          · exact .none
      | left hb h => exact .left (a := c :: _) hb (by rw [h]; rfl)
      | right h => exact .right h

/-- Nothing has gone in. -/
theorem Moved.of_nil {cut : Option (Text × Text)}
    (h : ∀ {a b}, cut = some (a, b) → u ++ v = a ++ b) : Moved u [] v cut cut := by
  cases hcut : cut with
  | none => exact .none
  | some parts =>
      obtain ⟨a, b⟩ := parts
      rcases cut_cases (h hcut) with ⟨s, hs, rfl, rfl⟩ | ⟨t, rfl, rfl⟩
      · exact .left hs rfl
      · exact .right rfl

theorem isPhrase_useCases (hfeature : feature.Plain) :
    IsPhrase ("class " ++ feature.useCasesClass) :=
  isPhrase_class ⟨feature.pascal ++ "UseCase", 's', by simp [Feature.useCasesClass], by decide⟩
    (hfeature.useCasesClass.consists.not_mem (by decide))

namespace ClassFile

/-- Import lines move the place of members, or are behind it. -/
theorem moved_splitEnd (file : ClassFile) (h : ImportGap u head foot v) (hfeature : feature.Plain)
    (hpaths : ∀ path ∈ missing, Consists isPathChar path) :
    Moved u (gapLines head foot missing) v (file.splitEnd feature (u ++ v)).toOption
      (file.splitEnd feature (u ++ (gapLines head foot missing ++ v))).toOption := by
  have hclose : '\x7d' ∉ gapLines head foot missing :=
    not_mem_gapLines h hpaths (by decide) (by decide)
  have hopen : '\x7b' ∉ gapLines head foot missing :=
    not_mem_gapLines h hpaths (by decide) (by decide)
  by_cases hfile : file = .useCases
  · subst hfile
    have hword := hfeature.useCasesClass
    have hline : '\n' ∉ feature.useCasesClass := hword.consists.not_mem (by decide)
    by_cases hnone : gapLines head foot missing = []
    · rw [hnone]
      exact .of_nil fun hcut => splitClassEnd_eq_ok_append (toOption_eq_some_iff.1 hcut)
    · exact moved_splitClassEnd (isPhrase_useCases hfeature) (avoids_class_gapLines h hline hpaths) hnone hopen hclose
        h.lineJoint h.lineJoint_before (.inl (h.lineStart_lines hpaths))
  · rw [splitEnd_toOption hfile, splitEnd_toOption hfile]
    exact moved_splitLast? hclose

/-- Imports leave the place of members at the end of the class, and come in at the same place when
members have been put in before. -/
theorem exists_insertImports (h : file.splitEnd feature (p ++ q) = .ok (p, q))
    (hfeature : feature.Plain) (hp : p ≠ []) (hline : Text.Avoids importToken (lineAt p q))
    (hpaths : ∀ path ∈ paths, IsModelImport feature path) :
    ∃ p' q', insertImports (p ++ q) paths = p' ++ q' ∧
      file.splitEnd feature (p' ++ q') = .ok (p', q') ∧ p' ≠ [] ∧
      Text.Avoids importToken (lineAt p' q') ∧
      ∀ y, (∀ rest, Foreign feature y rest) →
        insertImports (p ++ (y ++ q)) paths = p' ++ (y ++ q') := by
  obtain ⟨rest, hq⟩ := exists_brace_of_splitEnd h
  have hqhead : ∀ c ∈ q.head?, isPathChar c = false := by
    rw [hq]
    rintro c ⟨⟩
    decide
  obtain ⟨u, head, foot, v, heq, hgap⟩ := exists_importGap (p ++ q)
  have hmissing : ∀ path ∈ missingImports (p ++ q) paths, Consists isPathChar path :=
    fun path hpath => (hpaths path (mem_missingImports.1 hpath).1).consists hfeature
  have hinsert := hgap.insertImports_eq paths
  rw [← heq] at hinsert
  have hmoved := moved_splitEnd file hgap hfeature hmissing
  rw [← heq, h] at hmoved
  generalize hcut : (file.splitEnd feature (u ++ (gapLines head foot
    (missingImports (p ++ q) paths) ++ v))).toOption = cut at hmoved
  generalize hparts : (Except.ok (p, q) : Except MissingAnchor (Text × Text)).toOption = parts at hmoved
  cases hmoved with
  | none => cases hparts
  | @left a s hs hu =>
      obtain ⟨rfl, rfl⟩ := Prod.mk.inj (Option.some.inj hparts)
      subst hu
      refine ⟨p, s ++ (gapLines head foot (missingImports (p ++ (s ++ v)) paths) ++ v), ?_, ?_, hp,
        ?_, fun y hy => ?_⟩
      · rw [hinsert, List.append_assoc]
      · rwa [toOption_eq_some_iff, List.append_assoc] at hcut
      · rwa [lineAt_of_lineJoint hs hgap.lineJoint_before hgap.lineJoint]
      · exact hgap.through_front (hy _) hfeature hpaths hqhead hs hline
  | @right t b hv =>
      obtain ⟨rfl, rfl⟩ := Prod.mk.inj (Option.some.inj hparts)
      subst hv
      refine ⟨u ++ (gapLines head foot (missingImports (u ++ t ++ q) paths) ++ t), q, ?_, ?_, ?_, ?_,
        fun y hy => ?_⟩
      · rw [hinsert]
        simp
      · rw [toOption_eq_some_iff] at hcut
        simpa using hcut
      · intro hnil
        obtain ⟨rfl, hnil⟩ := List.append_eq_nil_iff.1 hnil
        exact hp (by rw [(List.append_eq_nil_iff.1 hnil).2]; rfl)
      · rwa [lineAt_lines_before (hgap.lineStart (by simp [hq])) (hgap.lineStart_lines hmissing)]
      · have hthrough := hgap.through_behind (hy q) hfeature hpaths hqhead hp (by simp [hq])
        rw [List.append_assoc, hthrough]
        simp

/-- Members go in behind members that have gone in. -/
theorem splitEnd_block (hfeature : feature.Plain) (hx : file = .useCases → Balanced x)
    (h : file.splitEnd feature (p ++ q) = .ok (p, q)) :
    file.splitEnd feature (p ++ (x ++ q)) = .ok (p ++ x, q) := by
  by_cases hfile : file = .useCases
  · subst hfile
    exact splitClassEnd_block (isPhrase_useCases hfeature)
      (hfeature.useCasesClass.consists.not_mem (by decide)) (hx rfl) h
  · obtain ⟨-, rest, hq, hrest⟩ := (splitEnd_of_ne hfile).1 h
    exact (splitEnd_of_ne hfile).2 ⟨by simp, rest, hq, hrest⟩

/-- The members of the use cases have no braces. -/
theorem balanced_member (hfeature : feature.Plain) (h : endpoint.Plain) :
    Balanced (member feature endpoint .useCases) :=
  .of_consists (consists_member .useCases (h.fills takesTokens_isBraceless) (by decide)
    (takesTokens_isBraceless.of_asciiWordy hfeature.serviceField) nofun nofun)

/-- A file whose imports can be completed has a place for members before. -/
theorem exists_splitEnd (hfeature : feature.Plain)
    (hpaths : ∀ path ∈ paths, IsModelImport feature path)
    (h : file.splitEnd feature (insertImports content paths) = .ok (x, y)) :
    ∃ p q, content = p ++ q ∧ file.splitEnd feature (p ++ q) = .ok (p, q) := by
  obtain ⟨u, head, foot, v, rfl, hgap⟩ := exists_importGap content
  have hmissing : ∀ path ∈ missingImports (u ++ v) paths, Consists isPathChar path :=
    fun path hpath => (hpaths path (mem_missingImports.1 hpath).1).consists hfeature
  have hmoved := moved_splitEnd file hgap hfeature hmissing
  rw [← hgap.insertImports_eq, h] at hmoved
  cases hsplit : file.splitEnd feature (u ++ v) with
  | error e =>
      rw [hsplit] at hmoved
      cases hmoved
  | ok parts =>
      have heq := splitEnd_append hsplit
      exact ⟨parts.1, parts.2, heq, by rw [← heq]; exact hsplit⟩

/-- Members may be put into a class file in batches. -/
theorem insert_append (hfeature : feature.Plain) (hB : ∀ endpoint ∈ B, endpoint.Quiet)
    (hC : ∀ endpoint ∈ C, endpoint.Quiet) (hBne : B ≠ []) (hCne : C ≠ [])
    (hplace : ∀ p q, file.splitEnd feature content = .ok (p, q) →
      p ≠ [] ∧ Text.Avoids importToken (lineAt p q))
    (h : file.insert feature content (B ++ C) = .ok result) :
    ∃ middle, file.insert feature content B = .ok middle ∧
      file.insert feature middle C = .ok result := by
  have hplainB : ∀ endpoint ∈ B, endpoint.Plain := fun endpoint hmem => (hB endpoint hmem).toPlain
  have hplainC : ∀ endpoint ∈ C, endpoint.Plain := fun endpoint hmem => (hC endpoint hmem).toPlain
  have hpathsB := mem_modelImports feature hplainB
  have hpathsC := mem_modelImports feature hplainC
  have hforeign : ∀ rest, Foreign feature (memberBlock "\n\n" (B.map fun endpoint =>
      file.member feature endpoint)) rest := by
    refine foreign_memberBlock (fun part hpart => ?_) hfeature
    obtain ⟨endpoint, hendpoint, rfl⟩ := List.mem_map.1 hpart
    exact file.member_quiet hfeature (hB endpoint hendpoint)
  have hbalanced : file = .useCases → Balanced (memberBlock "\n\n" (B.map fun endpoint =>
      file.member feature endpoint)) := by
    rintro rfl
    refine .memberBlock fun part hpart => ?_
    obtain ⟨endpoint, hendpoint, rfl⟩ := List.mem_map.1 hpart
    exact balanced_member hfeature (hplainB endpoint hendpoint)
  rw [insert_eq, insertImports_modelImports content hfeature hplainB hplainC] at h
  obtain ⟨⟨p'', q''⟩, hsplit, hresult⟩ := map_eq_ok.1 h
  obtain ⟨p₁', q₁', hcontent₁, hsplit₁'⟩ := exists_splitEnd hfeature hpathsC hsplit
  rw [hcontent₁] at hsplit
  obtain ⟨p, q, rfl, hstart⟩ := exists_splitEnd hfeature hpathsB (hcontent₁ ▸ hsplit₁')
  obtain ⟨hp, hline⟩ := hplace p q hstart
  -- the place of members after the first imports, and after all of them
  obtain ⟨p₁, q₁, himports₁, hsplit₁, hp₁, hline₁, -⟩ :=
    exists_insertImports hstart hfeature hp hline hpathsB
  rw [← hcontent₁, himports₁] at hsplit
  obtain ⟨p₂, q₂, himports₂, hsplit₂, -, -, hthrough⟩ :=
    exists_insertImports hsplit₁ hfeature hp₁ hline₁ hpathsC
  rw [himports₂, hsplit₂] at hsplit
  obtain ⟨rfl, rfl⟩ := Prod.mk.inj (Except.ok.inj hsplit)
  refine ⟨p₁ ++ (memberBlock "\n\n" (B.map fun endpoint => file.member feature endpoint) ++ q₁),
    ?_, ?_⟩
  · rw [insert_eq, himports₁, hsplit₁]
    rfl
  · rw [insert_eq, hthrough _ hforeign, splitEnd_block hfeature hbalanced hsplit₂, ← hresult]
    rw [List.map_append, ← memberBlock_append (by simpa using hBne) (by simpa using hCne)]
    simp [Except.map]

end ClassFile

end Scaffold
