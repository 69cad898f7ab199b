import Scaffold.Proofs.Patch.ClassBatches

/-!
# Annotations read back

The annotation of an endpoint is read back as its key, whatever characters but quotes its path has
(`reads_annotation`). A service file is a sheet of entries, each of which ends with a line break and
is read by itself; imports and members go in between two entries, so a file is extended by the keys
of its new members (`Sheet.insert`).
-/

namespace Scaffold

variable {a b block rest text path : Text} {key : EndpointKey} {keys others : List EndpointKey}
  {feature : Feature} {endpoint : Endpoint} {endpoints : List Endpoint}

/-! ## Reading -/

/-- The annotations of the text are those of the keys, whatever follows it. -/
def Reads (text : Text) (keys : List EndpointKey) : Prop :=
  ∀ rest, annotationsFrom 0 (text ++ rest) = keys ++ annotationsFrom 0 rest

namespace Reads

theorem nil : Reads [] [] := fun _ => rfl

theorem append (ha : Reads a keys) (hb : Reads b others) : Reads (a ++ b) (keys ++ others) := by
  intro rest
  rw [List.append_assoc, ha, hb, List.append_assoc]

/-- Text without annotations behind other text. -/
theorem append_plain (ha : Reads a keys) (hb : Reads b []) : Reads (a ++ b) keys := by
  simpa using ha.append hb

theorem join {separator : Text} {parts : List Text} (hseparator : Reads separator [])
    (hparts : ∀ part ∈ parts, Reads part []) : Reads (Text.join separator parts) [] := by
  induction parts with
  | nil => exact nil
  | cons part parts ih =>
      obtain ⟨hpart, hparts⟩ := List.forall_mem_cons.1 hparts
      cases parts with
      | nil => exact hpart
      | cons next parts => exact (hpart.append hseparator).append (ih hparts)

theorem annotatedKeys (h : Reads text keys) : Scaffold.annotatedKeys text = keys := by
  simpa [Scaffold.annotatedKeys, annotationsFrom] using h []

end Reads

theorem annotationAt?_of_head {c : Char} (hc : c ≠ '@') (rest : Text) :
    annotationAt? (c :: rest) = none := by
  have hmark : Text.after? "@" (c :: rest) = none := by
    rw [Text.after?_eq_none_iff]
    rintro ⟨tail, htail⟩
    exact hc (List.head_eq_of_cons_eq htail).symm
  rw [annotationAt?, hmark]
  rfl

/-- Text without the sign of annotations has none. -/
theorem reads_of_not_mem (h : '@' ∉ text) : Reads text [] := by
  induction text with
  | nil => exact Reads.nil
  | cons c text ih =>
      rw [List.mem_cons, not_or] at h
      intro rest
      rw [List.cons_append, annotationsFrom, annotationAt?_of_head (Ne.symm h.1)]
      exact ih h.2 rest

/-- A mark whose first two letters start no verb is no annotation of an endpoint. -/
theorem reads_mark {c d : Char} (hverbs : ∀ verb ∈ annotatedVerbs, verb.take 2 ≠ [c, d])
    (h : '@' ∉ c :: d :: text) : Reads ('@' :: c :: d :: text) [] := by
  intro rest
  have hnone : annotationAt? ('@' :: c :: d :: text ++ rest) = none := by
    have hfind : annotatedVerbs.find? (fun verb =>
        (Text.after? verb (c :: d :: text ++ rest)).isSome) = none := by
      rw [List.find?_eq_none]
      intro verb hverb hsome
      obtain ⟨behind, hbehind⟩ := Option.isSome_iff_exists.1 hsome
      have hlength : ∀ verb ∈ annotatedVerbs, 2 ≤ verb.length := by decide
      have htake := congrArg (List.take 2) (Text.after?_eq_some_iff.1 hbehind)
      rw [List.take_append_of_le_length (hlength verb hverb)] at htake
      exact hverbs verb hverb htake.symm
    have hmark : Text.after? "@" ('@' :: c :: d :: text ++ rest) =
        some (c :: d :: text ++ rest) := rfl
    rw [annotationAt?, hmark, Option.bind_eq_bind, Option.bind_some, hfind]
    rfl
  rw [List.cons_append] at hnone ⊢
  rw [annotationsFrom, hnone]
  exact reads_of_not_mem h rest

/-- The text of an annotation. -/
def annotationText (verb path : Text) : Text := "@" ++ verb ++ "(\"" ++ path ++ "\")"

theorem annotationsFrom_append (text rest : Text) :
    annotationsFrom text.length (text ++ rest) = annotationsFrom 0 rest := by
  induction text with
  | nil => rfl
  | cons c text ih => exact ih

theorem annotationAt?_annotationText {verb : Text} (hverb : verb ∈ annotatedVerbs)
    (hpath : path ≠ []) (hquote : '"' ∉ path) (rest : Text) :
    annotationAt? (annotationText verb path ++ rest) = some (verb.lower, path) := by
  have hfind : ∀ verb ∈ annotatedVerbs, ∀ rest,
      annotatedVerbs.find? (fun verb' => (Text.after? verb' (verb ++ ("(\"" ++ rest))).isSome) =
        some verb := by
    intro verb hverb rest
    simp only [annotatedVerbs, List.mem_cons, List.not_mem_nil, or_false] at hverb
    rcases hverb with rfl | rfl | rfl | rfl | rfl <;> rfl
  have htake : (path ++ ("\")" ++ rest)).takeWhile (· != '"') = path := by
    have hall : ∀ c ∈ path, (c != '"') = true := by
      intro c hc
      rw [bne_iff_ne]
      rintro rfl
      exact hquote hc
    rw [List.takeWhile_append_of_pos hall]
    simp
  have htext : annotationText verb path ++ rest =
      "@" ++ (verb ++ ("(\"" ++ (path ++ ("\")" ++ rest)))) := by
    simp [annotationText]
  rw [htext, annotationAt?]
  simp only [Text.after?_append, Option.bind_eq_bind, Option.bind_some, hfind verb hverb,
    List.drop_left, htake, List.isEmpty_iff, hpath, if_false]

/-- The annotation of an endpoint is read as its verb in small letters and its path. -/
theorem reads_annotationText {verb : Text} (hverb : verb ∈ annotatedVerbs) (hpath : path ≠ [])
    (hquote : '"' ∉ path) : Reads (annotationText verb path) [(verb.lower, path)] := by
  intro rest
  have hlower : ∀ verb ∈ annotatedVerbs, verb.lower.length = verb.length := by decide +kernel
  have htext : annotationText verb path = '@' :: (verb ++ "(\"" ++ path ++ "\")") := rfl
  have hlength : (verb ++ ("(\"" : Text) ++ path ++ "\")").length =
      verb.lower.length + path.length + 4 := by
    rw [hlower verb hverb]
    simp
    omega
  have hread := annotationAt?_annotationText hverb hpath hquote rest
  rw [htext, List.cons_append] at hread ⊢
  rw [annotationsFrom, hread]
  show _ :: annotationsFrom (verb.lower.length + path.length + 4) _ = _
  rw [← hlength, annotationsFrom_append]
  rfl

/-- An annotation with an empty path is not read. -/
theorem reads_annotationText_nil {verb : Text} (hverb : verb ∈ annotatedVerbs) :
    Reads (annotationText verb []) [] := by
  have hnone : ∀ verb ∈ annotatedVerbs, ∀ rest, annotationAt? (annotationText verb [] ++ rest) = none := by
    intro verb hverb rest
    simp only [annotatedVerbs, List.mem_cons, List.not_mem_nil, or_false] at hverb
    rcases hverb with rfl | rfl | rfl | rfl | rfl <;> rfl
  have hmark : ∀ verb ∈ annotatedVerbs, '@' ∉ verb ++ "(\"" ++ ([] : Text) ++ "\")" := by decide
  intro rest
  have htext : annotationText verb [] = '@' :: (verb ++ "(\"" ++ ([] : Text) ++ "\")") := rfl
  have hread := hnone verb hverb rest
  rw [htext, List.cons_append] at hread ⊢
  rw [annotationsFrom, hread]
  exact reads_of_not_mem (hmark verb hverb) rest

/-! ## Sheets -/

/-- The last import in the text, if any, is on its last line. -/
def EndsOnImport (text : Text) : Prop :=
  ∀ w v, text = w ++ (importToken ++ v) → Text.Avoids importToken (importToken ++ v).tail → '\n' ∉ v

/-- A part of a service file that ends with a line break and is read by itself. Behind the last import
in it no line but that of the import ends. -/
structure Passage (block : Text) (keys : List EndpointKey) : Prop where
  reads : Reads block keys
  ends : block.getLast? = some '\n'
  imports : ∀ {w line v : Text}, block = w ++ (importToken ++ (line ++ '\n' :: v)) →
    Text.Avoids importToken (importToken ++ (line ++ '\n' :: v)).tail → v = []
  no_return : '\r' ∉ block

/-- A line is a passage if its last import, if any, is on the last line of its own. -/
theorem Passage.of_reads (hreads : Reads (text ++ ['\n']) keys) (himports : EndsOnImport text)
    (hreturn : '\r' ∉ text) : Passage (text ++ ['\n']) keys where
  reads := hreads
  ends := by simp
  imports := by
    intro w line v hblock havoids
    rcases List.eq_nil_or_concat v with hnil | ⟨front, last, rfl⟩
    · exact hnil
    · have hblock' : text ++ ['\n'] =
          (w ++ (importToken ++ (line ++ '\n' :: front))) ++ [last] := by simp [hblock]
      obtain ⟨htext, -⟩ := List.append_inj' hblock' rfl
      refine absurd ?_ (himports w _ htext (havoids.of_part ?_))
      · simp
      · exact ⟨[], [last], by simp [tail_importToken]⟩
  no_return := by simpa using hreturn

/-- A line of its own. -/
theorem Passage.line (hreads : Reads (text ++ ['\n']) keys) (hbreak : '\n' ∉ text)
    (hreturn : '\r' ∉ text) : Passage (text ++ ['\n']) keys :=
  .of_reads hreads (fun w v htext _ hv => hbreak (by simp [htext, hv])) hreturn

/-- A text of passages, with the keys of their annotations. -/
inductive Sheet : Text → List EndpointKey → Prop
  | nil : Sheet [] []
  | cons {block rest : Text} {keys others : List EndpointKey} : Passage block keys →
      Sheet rest others → Sheet (block ++ rest) (keys ++ others)

namespace Sheet

theorem passage (h : Passage block keys) : Sheet block keys := by
  simpa using cons h nil

theorem append (ha : Sheet a keys) (hb : Sheet b others) : Sheet (a ++ b) (keys ++ others) := by
  induction ha with
  | nil => exact hb
  | cons hblock hrest ih =>
      rw [List.append_assoc, List.append_assoc]
      exact cons hblock ih

theorem reads (h : Sheet text keys) : Reads text keys := by
  induction h with
  | nil => exact Reads.nil
  | cons hblock hrest ih => exact hblock.reads.append ih

theorem no_return (h : Sheet text keys) : '\r' ∉ text := by
  induction h with
  | nil => exact List.not_mem_nil
  | cons hblock hrest ih =>
      rw [List.mem_append, not_or]
      exact ⟨hblock.no_return, ih⟩

/-- Lines without annotations. -/
theorem lines {lines : List Text} (h : ∀ line ∈ lines,
    Reads (line ++ ['\n']) [] ∧ '\n' ∉ line ∧ '\r' ∉ line) : Sheet (Text.lines lines) [] := by
  induction lines with
  | nil => exact nil
  | cons line lines ih =>
      obtain ⟨⟨hreads, hbreak, hreturn⟩, hlines⟩ := List.forall_mem_cons.1 h
      exact (passage (.line hreads hbreak hreturn)).append (ih hlines)

theorem importLines {paths : List Text} (h : ∀ path ∈ paths, Consists isPathChar path) :
    Sheet (Scaffold.importLines paths) [] := by
  refine lines fun line hline => ?_
  obtain ⟨path, hpath, rfl⟩ := List.mem_map.1 hline
  have hnot : ∀ {c : Char}, isPathChar c = false → c ∉ ("import '';" : Text) →
      c ∉ importClause path := fun hc hclause => not_mem_importClause (h path hpath) hc hclause
  refine ⟨reads_of_not_mem ?_, hnot (by decide) (by decide), hnot (by decide) (by decide)⟩
  simpa using hnot (c := '@') (by decide) (by decide)

end Sheet

/-- A line of one text that is the first one of another. -/
theorem eq_or_exists_of_break {line v q u : Text} (hline : '\n' ∉ line)
    (h : line ++ '\n' :: v = q ++ '\n' :: u) :
    (q = line ∧ v = u) ∨ ∃ more, q = line ++ '\n' :: more ∧ v = more ++ '\n' :: u := by
  rw [List.append_eq_append_iff] at h
  rcases h with ⟨more, rfl, h⟩ | ⟨more, rfl, h⟩
  · cases more with
    | nil => exact .inl ⟨by simp, by simpa using h⟩
    | cons c more =>
        obtain ⟨rfl, rfl⟩ := List.cons_eq_cons.1 h
        exact .inr ⟨more, rfl, rfl⟩
  · cases more with
    | nil => exact .inl ⟨by simp, by simpa using h.symm⟩
    | cons c more =>
        obtain ⟨rfl, -⟩ := List.cons_eq_cons.1 h
        simp at hline

/-- The last import of a passage is on its last line. -/
theorem Passage.eq_of_import {w line v inside : Text} (h : Passage (w ++ inside) keys)
    (hinside : inside ≠ []) (hline : '\n' ∉ line)
    (htext : importToken ++ (line ++ '\n' :: v) = inside ++ rest)
    (havoids : Text.Avoids importToken (importToken ++ (line ++ '\n' :: v)).tail) :
    inside = importToken ++ (line ++ ['\n']) ∧ v = rest := by
  obtain ⟨front, rfl⟩ : ∃ front, inside = front ++ ['\n'] := by
    have hends := h.ends
    rw [List.getLast?_append_of_ne_nil _ hinside] at hends
    exact List.getLast?_eq_some_iff.1 hends
  have hfirst : '\n' ∉ importToken ++ line := by
    rw [List.mem_append, not_or]
    exact ⟨break_not_mem_importToken, hline⟩
  rw [← List.append_assoc, List.append_assoc front, List.singleton_append] at htext
  rcases eq_or_exists_of_break hfirst htext with ⟨rfl, rfl⟩ | ⟨more, rfl, rfl⟩
  · exact ⟨by simp, rfl⟩
  · have hsplit : w ++ (importToken ++ line ++ '\n' :: more ++ ['\n']) =
        w ++ (importToken ++ (line ++ '\n' :: (more ++ ['\n']))) := by simp
    have hmore := h.imports hsplit (havoids.of_part ⟨[], rest, by simp [tail_importToken]⟩)
    simp at hmore

namespace Sheet

/-- Behind the line of the last import one passage ends and the next one starts. -/
theorem split {front w line v : Text} (h : Sheet front keys) (hline : '\n' ∉ line)
    (htext : front ++ "\x7d\n" = w ++ (importToken ++ (line ++ '\n' :: v)))
    (havoids : Text.Avoids importToken (importToken ++ (line ++ '\n' :: v)).tail) :
    ∃ rest above below, v = rest ++ "\x7d\n" ∧
      Sheet (w ++ (importToken ++ (line ++ ['\n']))) above ∧ Sheet rest below ∧
      keys = above ++ below := by
  induction h generalizing w with
  | nil =>
      have hmem : 'i' ∈ ("\x7d\n" : Text) := by
        rw [← List.nil_append ("\x7d\n" : Text), htext]
        exact List.mem_append_right _ List.mem_cons_self
      exact absurd hmem (by decide)
  | @cons block rest keys others hblock hrest ih =>
      have hlater : ∀ w', w = block ++ w' →
          rest ++ "\x7d\n" = w' ++ (importToken ++ (line ++ '\n' :: v)) →
          ∃ rest' above below, v = rest' ++ "\x7d\n" ∧
            Sheet (w ++ (importToken ++ (line ++ ['\n']))) above ∧ Sheet rest' below ∧
            keys ++ others = above ++ below := by
        rintro w' rfl htext
        obtain ⟨rest', above, below, rfl, habove, hbelow, rfl⟩ := ih htext
        refine ⟨rest', keys ++ above, below, rfl, ?_, hbelow, by simp⟩
        simpa using cons hblock habove
      rw [List.append_assoc, List.append_eq_append_iff] at htext
      rcases htext with ⟨w', hw, htext⟩ | ⟨inside, rfl, htext⟩
      · exact hlater w' hw htext
      · by_cases hinside : inside = []
        · subst hinside
          exact hlater [] (by simp) (by simpa using htext.symm)
        · -- the import starts in the passage, so the passage ends with its line
          obtain ⟨rfl, rfl⟩ := hblock.eq_of_import hinside hline htext havoids
          exact ⟨rest, keys, others, rfl, passage hblock, hrest, rfl⟩

end Sheet

/-- A line break by itself. -/
theorem sheet_break : Sheet ['\n'] [] := by
  have hreads : Reads (([] : Text) ++ ['\n']) [] := reads_of_not_mem (by decide)
  exact .passage (.line hreads List.not_mem_nil List.not_mem_nil)

namespace Sheet

/-- Imports go in between two passages. -/
theorem insertImports {front : Text} {paths : List Text} (h : Sheet front keys)
    (hpaths : ∀ path ∈ paths, Consists isPathChar path) :
    ∃ front', Scaffold.insertImports (front ++ "\x7d\n") paths = front' ++ "\x7d\n" ∧
      Sheet front' keys := by
  by_cases hmissing : missingImports (front ++ "\x7d\n") paths = []
  · exact ⟨front, by rw [Scaffold.insertImports, hmissing]; rfl, h⟩
  obtain ⟨u, head, foot, v, htext, hgap⟩ := exists_importGap (front ++ "\x7d\n")
  have hlines : Sheet (Scaffold.importLines (missingImports (front ++ "\x7d\n") paths)) [] :=
    .importLines fun path hpath => hpaths path (mem_missingImports.1 hpath).1
  have hinsert := hgap.insertImports (htext ▸ hmissing)
  rw [← htext] at hinsert
  generalize missingImports (front ++ "\x7d\n") paths = missing at hlines hinsert
  rw [hinsert]
  cases hgap with
  | @line w line v hline havoids =>
      obtain ⟨rest, above, below, rfl, habove, hbelow, rfl⟩ :=
        h.split hline (by simpa using htext) havoids
      refine ⟨w ++ (importToken ++ (line ++ ['\n'])) ++ Scaffold.importLines missing ++ rest,
        by simp, ?_⟩
      simpa using (habove.append hlines).append hbelow
  | @last w line hline havoids =>
      -- the text ends with a line break
      have hlast : (w ++ (importToken ++ line)).getLast? = some '\n' := by
        rw [← List.append_nil (w ++ _), ← htext]
        simp
      rw [List.getLast?_append_of_ne_nil _ (List.append_ne_nil_of_left_ne_nil (by decide) _)] at hlast
      rcases List.mem_append.1 (List.mem_of_getLast? hlast) with hmem | hmem
      · exact absurd hmem break_not_mem_importToken
      · exact absurd hmem hline
  | top havoids =>
      have hfoot : ∀ text : Text, Sheet (if text.startsWith "\n" then [] else ['\n']) [] := by
        intro text
        split
        · exact nil
        · exact sheet_break
      rw [List.nil_append] at htext
      subst htext
      have hfoot := hfoot (front ++ "\x7d\n")
      generalize (if (front ++ ("\x7d\n" : Text)).startsWith "\n" then [] else ['\n']) = foot
        at hfoot ⊢
      exact ⟨Scaffold.importLines missing ++ foot ++ front, by simp,
        by simpa using (hlines.append hfoot).append h⟩

end Sheet

/-- Text without the first letter of imports in front, and without line breaks behind. -/
theorem EndsOnImport.between (h : EndsOnImport text) (ha : 'i' ∉ a) (hb : '\n' ∉ b) :
    EndsOnImport (a ++ text ++ b) := by
  intro w v htext havoids hbreak
  obtain ⟨first, second, rfl⟩ := List.append_of_mem hbreak
  -- the line break is not behind the text
  obtain ⟨more, hfront, rfl⟩ : ∃ more, a ++ text = w ++ (importToken ++ (first ++ '\n' :: more)) ∧
      second = more ++ b := by
    have hsplit : a ++ text ++ b = (w ++ (importToken ++ first) ++ ['\n']) ++ second := by
      simp [htext]
    rcases List.append_eq_append_iff.1 hsplit with ⟨c, hc, hb'⟩ | ⟨c, hc, hsecond⟩
    · rcases List.eq_nil_or_concat c with rfl | ⟨c', last, rfl⟩
      · exact ⟨[], by simpa using hc.symm, by simpa using hb'.symm⟩
      · rw [List.concat_eq_append, ← List.append_assoc] at hc
        have hlast : '\n' = last := by simpa using congrArg List.getLast? hc
        refine absurd ?_ hb
        rw [hb', ← hlast]
        simp
    · exact ⟨c, by simpa using hc, hsecond⟩
  -- and the import is not in front of it
  obtain ⟨w', htext⟩ : ∃ w', text = w' ++ (importToken ++ (first ++ '\n' :: more)) := by
    rcases List.append_eq_append_iff.1 hfront with ⟨w', -, htext⟩ | ⟨c, rfl, hc⟩
    · exact ⟨w', htext⟩
    · cases c with
      | nil => exact ⟨[], by simpa using hc.symm⟩
      | cons d c =>
          have hd : d = 'i' := (List.cons_eq_cons.1 hc).1.symm
          simp [hd] at ha
  refine h w' _ htext (havoids.of_part ⟨[], b, ?_⟩) (by simp)
  simp [tail_importToken]

/-! ## Service files -/

/-- An endpoint whose annotation is read back. -/
structure Endpoint.Readable (endpoint : Endpoint) : Prop extends endpoint.Plain where
  path_ne : endpoint.path ≠ []
  path_quote : '"' ∉ endpoint.path
  path_return : '\r' ∉ endpoint.path

/-- No import goes into the annotation of the endpoint. -/
structure Endpoint.Detectable (endpoint : Endpoint) : Prop extends endpoint.Readable where
  path_import : EndsOnImport endpoint.path

theorem Argument.reads_annotated {argument : Argument} (hname : AsciiWordy argument.name)
    (htype : Consists isSignatureChar argument.type) : Reads argument.annotated [] := by
  have hname' : '@' ∉ argument.name := hname.wordy.not_mem (by decide) (by decide)
  have htyped : '@' ∉ " " ++ argument.typed := by
    have htype' : '@' ∉ argument.type := htype.not_mem (by decide)
    rw [Argument.typed, declaredType]
    split <;> simp [hname', htype']
  rw [annotated, annotation]
  split
  · have hmark : '@' ∉ "Path(\"" ++ argument.name ++ "\")" ++ " " ++ argument.typed := by
      simpa [hname'] using htyped
    exact reads_mark (c := 'P') (d := 'a') (by decide) hmark
  · have hmark : '@' ∉ "Query(\"" ++ argument.name ++ "\")" ++ " " ++ argument.typed := by
      simpa [hname'] using htyped
    exact reads_mark (c := 'Q') (d := 'u') (by decide) hmark
  · have hmark : '@' ∉ "Body()" ++ " " ++ argument.typed := by
      simpa using htyped
    exact reads_mark (c := 'B') (d := 'o') (by decide) hmark

/-- The line with the annotation of an endpoint. -/
def Endpoint.annotationLine (endpoint : Endpoint) : Text := "  " ++ endpoint.annotation ++ ['\n']

/-- The line with the method of an endpoint. -/
def Endpoint.methodLine (endpoint : Endpoint) : Text :=
  endpoint.futureOf endpoint.returnType ++ "(" ++ endpoint.clientParameters ++ ");" ++ ['\n']

theorem ClassFile.service_member (feature : Feature) (endpoint : Endpoint) :
    ClassFile.service.member feature endpoint ++ ['\n'] =
      endpoint.annotationLine ++ endpoint.methodLine := by
  have hbreak : ("\n" : Text) = ['\n'] := rfl
  unfold ClassFile.member Endpoint.annotationLine Endpoint.methodLine
  simp only [hbreak, List.append_assoc]

theorem Endpoint.Plain.passage_methodLine (h : endpoint.Plain) : Passage endpoint.methodLine [] := by
  have hparameters := h.clientParameters
  have hreads : Reads endpoint.clientParameters [] := by
    rw [endpoint.clientParameters_eq]
    refine Reads.join (reads_of_not_mem (by decide)) fun part hpart => ?_
    obtain ⟨argument, hargument, rfl⟩ := List.mem_map.1 hpart
    obtain ⟨hname, htype⟩ := h.argument argument hargument
    exact Argument.reads_annotated hname htype
  have hhead : Consists (fun c => isSignatureChar c || c == '(')
      (endpoint.futureOf endpoint.returnType ++ "(") := by
    have hfuture : Consists isSignatureChar (endpoint.futureOf endpoint.returnType) := by
      unfold Endpoint.futureOf
      exact ((Consists.append (.literal (by decide)) h.returnType.signature).append
        (.literal (by decide))).append h.methodName.signature
    exact (hfuture.mono fun c hc => by simp [hc]).append (.literal (by decide))
  have hclose : Reads ");" [] := reads_of_not_mem (by decide)
  refine Passage.line ?_ ?_ ?_
  · exact (((reads_of_not_mem (hhead.not_mem (by decide))).append hreads).append hclose).append_plain
      (reads_of_not_mem (by decide))
  · have hbreak := hparameters.not_mem (c := '\n') (by decide)
    rw [List.mem_append, List.mem_append, not_or, not_or]
    exact ⟨⟨hhead.not_mem (by decide), hbreak⟩, by decide⟩
  · have hreturn := hparameters.not_mem (c := '\r') (by decide)
    rw [List.mem_append, List.mem_append, not_or, not_or]
    exact ⟨⟨hhead.not_mem (by decide), hreturn⟩, by decide⟩

/-- The keys that the annotation of an endpoint is read as: an empty path is not read. -/
def Endpoint.readKeys (endpoint : Endpoint) : List EndpointKey :=
  if endpoint.path = [] then [] else [endpoint.key]

theorem Endpoint.Plain.reads_member (h : endpoint.Plain) (hquote : '"' ∉ endpoint.path)
    (feature : Feature) :
    Reads (ClassFile.service.member feature endpoint ++ ['\n']) endpoint.readKeys := by
  have hblank : Reads "  " [] := reads_of_not_mem (by decide)
  have hannotation : Reads endpoint.annotation endpoint.readKeys := by
    unfold Endpoint.readKeys
    split
    · next hpath =>
      have hread := reads_annotationText_nil h.annotatedVerb_mem
      rwa [← hpath] at hread
    · next hpath =>
      have hread := reads_annotationText h.annotatedVerb_mem hpath hquote
      rwa [h.lower_annotatedVerb] at hread
  rw [ClassFile.service_member]
  exact ((hblank.append hannotation).append_plain (reads_of_not_mem (by decide))).append_plain
    h.passage_methodLine.reads

theorem Endpoint.Readable.reads_annotationLine (h : endpoint.Readable) :
    Reads endpoint.annotationLine [endpoint.key] := by
  have hblank : Reads "  " [] := reads_of_not_mem (by decide)
  have hannotation := reads_annotationText h.annotatedVerb_mem h.path_ne h.path_quote
  rw [h.lower_annotatedVerb] at hannotation
  exact (hblank.append hannotation).append_plain (reads_of_not_mem (by decide))

theorem Endpoint.Detectable.sheet_member (h : endpoint.Detectable) (feature : Feature) :
    Sheet (ClassFile.service.member feature endpoint ++ ['\n']) [endpoint.key] := by
  have hverb : ∀ verb ∈ annotatedVerbs, 'i' ∉ verb ∧ '\r' ∉ verb := by decide
  obtain ⟨hi, hreturn⟩ := hverb _ h.annotatedVerb_mem
  have hannotation : Passage endpoint.annotationLine [endpoint.key] := by
    refine Passage.of_reads h.reads_annotationLine ?_ ?_
    · have htext : "  " ++ endpoint.annotation =
          ("  @" ++ endpoint.annotatedVerb ++ "(\"") ++ endpoint.path ++ "\")" := by
        simp [Endpoint.annotation]
      rw [htext]
      exact h.path_import.between (by simp [hi]) (by decide)
    · simp [Endpoint.annotation, hreturn, h.path_return]
  rw [ClassFile.service_member]
  have hsheet := (Sheet.passage hannotation).append (Sheet.passage h.passage_methodLine)
  rwa [List.append_nil] at hsheet

/-- What holds of members on their own and is passed on to texts one behind the other holds of
members with an empty line between neighbours. -/
theorem members_induction {motive : Text → List EndpointKey → Prop}
    {keysOf : Endpoint → List EndpointKey}
    (happend : ∀ {a b keys others}, motive a keys → motive b others → motive (a ++ b) (keys ++ others))
    (hbreak : motive ['\n'] [])
    (hmember : ∀ endpoint ∈ endpoints,
      motive (ClassFile.service.member feature endpoint ++ ['\n']) (keysOf endpoint)) :
    motive (Text.join "\n\n" (endpoints.map fun endpoint =>
      ClassFile.service.member feature endpoint) ++ ['\n']) (endpoints.flatMap keysOf) := by
  induction endpoints with
  | nil => exact hbreak
  | cons endpoint endpoints ih =>
      obtain ⟨hfirst, hrest⟩ := List.forall_mem_cons.1 hmember
      rw [List.flatMap_cons]
      cases endpoints with
      | nil => rwa [List.flatMap_nil, List.append_nil]
      | cons next endpoints =>
          have htext : Text.join "\n\n" ((endpoint :: next :: endpoints).map fun endpoint =>
              ClassFile.service.member feature endpoint) ++ ['\n'] =
              ClassFile.service.member feature endpoint ++ ['\n'] ++ (['\n'] ++
                (Text.join "\n\n" ((next :: endpoints).map fun endpoint =>
                  ClassFile.service.member feature endpoint) ++ ['\n'])) := by
            simp [Text.join]
          have hbehind := happend hbreak (ih hrest)
          rw [List.nil_append] at hbehind
          rw [htext]
          exact happend hfirst hbehind

theorem sheet_members (h : ∀ endpoint ∈ endpoints, endpoint.Detectable) :
    Sheet (Text.join "\n\n" (endpoints.map fun endpoint =>
      ClassFile.service.member feature endpoint) ++ ['\n']) (endpoints.map (·.key)) := by
  have hmembers := members_induction Sheet.append sheet_break fun endpoint hmem =>
    (h endpoint hmem).sheet_member feature
  rwa [← List.map_eq_flatMap] at hmembers

/-- The members between two line breaks. -/
theorem sheet_memberBlock (h : ∀ endpoint ∈ endpoints, endpoint.Detectable) :
    Sheet (memberBlock "\n\n" (endpoints.map fun endpoint =>
      ClassFile.service.member feature endpoint)) (endpoints.map (·.key)) := by
  have htext : memberBlock "\n\n" (endpoints.map fun endpoint =>
      ClassFile.service.member feature endpoint) = ['\n'] ++ (Text.join "\n\n"
        (endpoints.map fun endpoint => ClassFile.service.member feature endpoint) ++ ['\n']) := rfl
  rw [htext]
  exact sheet_break.append (sheet_members h)

theorem sheet_importBlock {paths : List Text} (h : ∀ path ∈ paths, Consists isPathChar path) :
    Sheet (importBlock paths) [] := by
  unfold importBlock
  split
  · exact Sheet.nil
  · next hne =>
    have htext : renderImports paths ++ ("\n\n" : Text) = importLines paths ++ ['\n'] := by
      have hclauses : paths.map importClause ≠ [] := by simpa using hne
      have hbreaks : ("\n\n" : Text) = ['\n'] ++ ['\n'] := rfl
      rw [importLines, Text.lines_eq_join hclauses, renderImports, hbreaks, List.append_assoc]
    rw [htext]
    exact (Sheet.importLines h).append sheet_break

/-- The imports of a class file are paths. -/
theorem ClassFile.imports_pathChars (file : ClassFile) (hfeature : feature.Plain)
    (h : ∀ endpoint ∈ endpoints, endpoint.Plain) :
    ∀ path ∈ file.imports feature endpoints, Consists isPathChar path := by
  intro path hpath
  rcases List.mem_append.1 (List.mem_eraseDups.1 hpath) with hpath | hpath
  · exact hfeature.spells.fixedImports file path hpath
  · exact (mem_modelImports feature h path hpath).consists hfeature

/-- The characters of lines without annotations. -/
def isUnmarked (c : Char) : Bool := !(c == '@' || c == '\n' || c == '\r')

theorem AsciiWordy.unmarked {name : Text} (h : AsciiWordy name) : Consists isUnmarked name := by
  refine h.consists.mono fun c hc => ?_
  have hne : ∀ d : Char, isAsciiWordChar d = false → (c == d) = false := by
    intro d hd
    rw [beq_eq_false_iff_ne]
    rintro rfl
    simp [hd] at hc
  simp [isUnmarked, hne '@' (by decide), hne '\n' (by decide), hne '\r' (by decide)]

/-- The opening of the service's class has no annotation of an endpoint. -/
theorem sheet_opening (hfeature : feature.Plain) : Sheet (ClassFile.service.opening feature) [] := by
  have hname := hfeature.name.unmarked
  have hclass := hfeature.serviceClass.unmarked
  have hline : ∀ {line : Text}, Consists isUnmarked line →
      Reads (line ++ ['\n']) [] ∧ '\n' ∉ line ∧ '\r' ∉ line := by
    intro line hline
    have hat : '@' ∉ line := hline.not_mem (by decide)
    exact ⟨reads_of_not_mem (by simpa using hat), hline.not_mem (by decide),
      hline.not_mem (by decide)⟩
  have hcreate : Consists isUnmarked
      ("  factory " ++ feature.serviceClass ++ "(Dio dio) = _" ++ feature.serviceClass ++ ";") :=
    (((Consists.append (.literal (by decide)) hclass).append (.literal (by decide))).append
      hclass).append (.literal (by decide))
  have hblank : Reads "  " [] := reads_of_not_mem (by decide)
  unfold ClassFile.opening
  refine Sheet.lines ?_
  simp only [List.forall_mem_cons]
  exact ⟨hline ((Consists.append (.literal (by decide)) hname).append (.literal (by decide))),
    hline (by decide),
    hline ((Consists.append (.literal (by decide)) hname).append (.literal (by decide))),
    ⟨reads_mark (by decide) (by decide), by decide, by decide⟩,
    ⟨reads_mark (by decide) (by decide), by decide, by decide⟩,
    hline ((Consists.append (.literal (by decide)) hclass).append (.literal (by decide))),
    ⟨hblank.append (reads_mark (by decide) (by decide)), by decide, by decide⟩,
    hline hcreate, hline (by decide), List.forall_mem_nil _⟩

/-- The text of a service file in front of its members. -/
def serviceHead (feature : Feature) (endpoints : List Endpoint) : Text :=
  importBlock (ClassFile.service.imports feature endpoints) ++ ClassFile.service.opening feature

theorem ClassFile.service_render (feature : Feature) (endpoints : List Endpoint) :
    ClassFile.service.render feature endpoints = serviceHead feature endpoints ++
      (Text.join "\n\n" (endpoints.map fun endpoint =>
        ClassFile.service.member feature endpoint) ++ ['\n']) ++ "\x7d\n" := by
  unfold ClassFile.render serviceHead
  have hclose : ("\n\x7d\n" : Text) = ['\n'] ++ "\x7d\n" := rfl
  rw [hclose]
  simp only [List.append_assoc]

theorem sheet_serviceHead (hfeature : feature.Plain)
    (h : ∀ endpoint ∈ endpoints, endpoint.Plain) : Sheet (serviceHead feature endpoints) [] :=
  (sheet_importBlock (ClassFile.service.imports_pathChars hfeature h)).append (sheet_opening hfeature)

/-- A rendered service file is read as the keys of its endpoints, but those with empty paths. -/
theorem annotatedKeys_render_eq (hfeature : feature.Plain)
    (h : ∀ endpoint ∈ endpoints, endpoint.Plain ∧ '"' ∉ endpoint.path) :
    annotatedKeys (ClassFile.service.render feature endpoints) =
      endpoints.flatMap Endpoint.readKeys := by
  have hbreak : Reads ['\n'] [] := reads_of_not_mem (by decide)
  have hmembers := members_induction Reads.append hbreak fun endpoint hmem =>
    (h endpoint hmem).1.reads_member (h endpoint hmem).2 feature
  have hhead := (sheet_serviceHead hfeature fun endpoint hmem => (h endpoint hmem).1).reads
  rw [ClassFile.service_render]
  exact ((hhead.append hmembers).append_plain (reads_of_not_mem (by decide))).annotatedKeys

theorem annotatedKeys_render (hfeature : feature.Plain)
    (h : ∀ endpoint ∈ endpoints, endpoint.Readable) :
    annotatedKeys (ClassFile.service.render feature endpoints) = endpoints.map (·.key) := by
  rw [annotatedKeys_render_eq hfeature fun endpoint hmem =>
    ⟨(h endpoint hmem).toPlain, (h endpoint hmem).path_quote⟩, List.map_eq_flatMap]
  exact List.flatMap_congr fun endpoint hmem => if_neg (h endpoint hmem).path_ne

theorem annotatedKeys_render_subset (hfeature : feature.Plain)
    (h : ∀ endpoint ∈ endpoints, endpoint.Plain ∧ '"' ∉ endpoint.path) :
    annotatedKeys (ClassFile.service.render feature endpoints) ⊆ endpoints.map (·.key) := by
  rw [annotatedKeys_render_eq hfeature h]
  intro key hkey
  obtain ⟨endpoint, hmem, hread⟩ := List.mem_flatMap.1 hkey
  unfold Endpoint.readKeys at hread
  split at hread
  · cases hread
  · rw [List.mem_singleton.1 hread]
    exact List.mem_map_of_mem hmem

theorem sheet_render (hfeature : feature.Plain) (h : ∀ endpoint ∈ endpoints, endpoint.Detectable) :
    ∃ front, ClassFile.service.render feature endpoints = front ++ "\x7d\n" ∧
      Sheet front (endpoints.map (·.key)) :=
  ⟨_, ClassFile.service_render feature endpoints,
    (sheet_serviceHead hfeature fun endpoint hmem => (h endpoint hmem).toPlain).append
      (sheet_members h)⟩

/-- A service file with new members is read as the keys it had and those of the new endpoints. -/
theorem Sheet.insert {front : Text} (hsheet : Sheet front keys) (hfeature : feature.Plain)
    (h : ∀ endpoint ∈ endpoints, endpoint.Detectable) :
    ∃ front', ClassFile.service.insert feature (front ++ "\x7d\n") endpoints =
      .ok (front' ++ "\x7d\n") ∧ Sheet front' (keys ++ endpoints.map (·.key)) := by
  have hpaths : ∀ path ∈ feature.modelImports endpoints, Consists isPathChar path := fun path hpath =>
    (mem_modelImports feature (fun endpoint hendpoint => (h endpoint hendpoint).toPlain) path
      hpath).consists hfeature
  obtain ⟨front', himports, hfront'⟩ := hsheet.insertImports hpaths
  have hend : ClassFile.service.splitEnd feature (front' ++ "\x7d\n") = .ok (front', "\x7d\n") :=
    (ClassFile.splitEnd_of_ne (by decide)).2 ⟨rfl, ['\n'], rfl, by decide⟩
  refine ⟨front' ++ memberBlock "\n\n" (endpoints.map fun endpoint =>
    ClassFile.service.member feature endpoint), ?_, hfront'.append (sheet_memberBlock h)⟩
  rw [ClassFile.insert_eq, himports, hend, Except.map, List.append_assoc]

end Scaffold
