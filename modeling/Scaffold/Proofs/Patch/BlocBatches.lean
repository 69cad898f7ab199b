import Scaffold.Proofs.Patch.ClassBatches
import Scaffold.Proofs.Patch.Rows

/-!
# Handlers of a bloc in batches

The rows of a bloc, its handlers and the imports that they need may come in batches:
`BlocStyle.insert_append`.
-/

namespace Scaffold

open Anchor

/-- The two ways in which a bloc hands events on: case by case, or by the class of the event. -/
inductive BlocStyle
  | unions
  | plain
  deriving DecidableEq

namespace BlocStyle

/-- The style of a bloc. -/
def ofContent (content : Text) : BlocStyle := if handsOnCases content then unions else plain

/-- The lines behind which rows go in. -/
def anchor : BlocStyle → Anchor
  | unions => .whenCase
  | plain => .registration

/-- The name by which the handler of an endpoint is found. -/
def handlerName : BlocStyle → Endpoint → Text
  | unions => Endpoint.handlerName
  | plain => Endpoint.plainHandler

/-- The line that hands the event of an endpoint on. -/
def row : BlocStyle → Endpoint → Text
  | unions => whenCase
  | plain => plainRegistration

/-- The handler of an endpoint. -/
def handler (feature : Feature) : BlocStyle → Endpoint → Text
  | unions => blocHandler feature
  | plain => plainBlocHandler feature

/-- The lines that hand events on, as they go in behind others. -/
def rows (style : BlocStyle) (endpoints : List Endpoint) : Text :=
  preceded "\n" (endpoints.map style.row)

/-- The handlers, as they go in at the end of the class. -/
def handlers (style : BlocStyle) (feature : Feature) (endpoints : List Endpoint) : Text :=
  memberBlock "\n\n" (endpoints.map (style.handler feature))

/-- Puts imports, rows and handlers for the endpoints into a bloc. -/
def insert (style : BlocStyle) (feature : Feature) (content : Text) (endpoints : List Endpoint) :
    Except MissingAnchor Text := do
  let content := insertImports content (feature.modelImports endpoints)
  let content ← insertAfterLast content style.anchor (style.rows endpoints)
  insertIntoClass content feature.blocClass (endpoints.map (style.handler feature)) "\n\n"

end BlocStyle

theorem extendBloc_eq (feature : Feature) (content : Text) (endpoints : List Endpoint) :
    extendBloc feature content endpoints =
      match lacking content (BlocStyle.ofContent content).handlerName endpoints with
      | [] => .ok content
      | new => (BlocStyle.ofContent content).insert feature content new := by
  unfold extendBloc BlocStyle.ofContent
  cases handsOnCases content <;> rfl

variable {style : BlocStyle} {feature : Feature} {endpoint : Endpoint}
  {B C endpoints new : List Endpoint} {a b s q u v x y text content result : Text}
  {paths missing : List Text} {head foot : Text}

namespace BlocStyle

theorem wholeLines (style : BlocStyle) : style.anchor.WholeLines := by
  cases style with
  | unions => exact .inl rfl
  | plain => exact .inr rfl

theorem rows_append (style : BlocStyle) (B C : List Endpoint) :
    style.rows (B ++ C) = style.rows B ++ style.rows C := by
  simp [rows, preceded]

theorem code_row (h : endpoint.Plain) : Consists isCodeChar (style.row endpoint) := by
  cases style with
  | unions => exact code_whenCase h
  | plain => exact code_plainRegistration h

theorem code_handler (style : BlocStyle) (hfeature : feature.Plain) (h : endpoint.Plain) :
    Consists isCodeChar (style.handler feature endpoint) := by
  cases style with
  | unions => exact code_blocHandler hfeature h
  | plain => exact code_plainBlocHandler hfeature h

/-! ### Rows -/

theorem braceless_row (h : endpoint.Plain) : Consists isBraceless (style.row endpoint) := by
  cases style with
  | unions => exact consists_whenCase (h.fills takesTokens_isBraceless)
  | plain =>
      exact consists_plainRegistration takesTokens_isBraceless
        (takesTokens_isBraceless.of_asciiWordy h.plainEvent)

/-- No row has a blank behind an `s`, so none names a class. -/
theorem avoids_row (h : endpoint.Plain) : Text.Avoids "s " (style.row endpoint) := by
  have hend : ∀ {a b : Text}, Text.Avoids "s " a → ' ' ∉ b → Text.Avoids "s " (a ++ b) :=
    fun ha hb => ha.append_of_end (by decide) hb
  have hword : ∀ {name : Text}, AsciiWordy name → ' ' ∉ name := fun hname =>
    hname.consists.not_mem (by decide)
  cases style with
  | unions =>
      have hnames : Text.Avoids "s " endpoint.callArguments := by
        rw [endpoint.callArguments_eq]
        refine avoids_commas (by decide) (by decide) (by decide) fun part hpart => ?_
        obtain ⟨argument, hargument, rfl⟩ := List.mem_map.1 hpart
        exact Text.avoids_of_not_mem (c := ' ') (by decide)
          (hword (h.argument argument hargument).1)
      have hemit : Text.Avoids "s " (joinNonempty [endpoint.callArguments, "emit"]) := by
        refine avoids_commas (by decide) (by decide) (by decide) fun part hpart => ?_
        have hpart := List.mem_of_mem_filter hpart
        simp only [List.mem_cons, List.not_mem_nil, or_false] at hpart
        rcases hpart with rfl | rfl
        · exact hnames
        · exact .literal (by decide)
      have hrow : Text.Avoids "s " (whenCase endpoint) := by
        unfold whenCase
        refine hend ((hend (hend (((hend (.literal (by decide)) (hword h.eventName)).append_of_head
          (.literal (by decide)) ?_ |>.append_of_last hnames ?_).append_of_head
          (.literal (by decide)) ?_) (hword h.handlerName)) (by decide)).append_of_last hemit ?_)
          (by decide)
        · rintro c ⟨⟩
          decide
        · intro c hc
          rw [List.getLast?_append_of_ne_nil _ (by decide)] at hc
          obtain rfl : '(' = c := Option.some.inj hc
          decide
        · rintro c ⟨⟩
          decide
        · intro c hc
          rw [List.getLast?_append_of_ne_nil _ (by decide)] at hc
          obtain rfl : '(' = c := Option.some.inj hc
          decide
      exact hrow
  | plain =>
      have hrow : Text.Avoids "s " (plainRegistration endpoint) := by
        unfold plainRegistration
        exact hend (hend (hend (hend (.literal (by decide)) (hword h.plainEvent)) (by decide))
          (hword h.plainHandler)) (by decide)
      exact hrow

theorem breaksLine_rows (style : BlocStyle) (hne : endpoints ≠ []) (rest : Text) :
    BreaksLine (style.rows endpoints ++ rest) := by
  obtain ⟨endpoint, endpoints, rfl⟩ := List.exists_cons_of_ne_nil hne
  rintro c ⟨⟩
  rfl

theorem rows_ne_nil (hne : endpoints ≠ []) : style.rows endpoints ≠ [] := by
  obtain ⟨endpoint, endpoints, rfl⟩ := List.exists_cons_of_ne_nil hne
  simp [rows, preceded]

theorem consists_rows {accepts : Char → Bool} (hbreak : accepts '\n' = true)
    (h : ∀ endpoint ∈ endpoints, Consists accepts (style.row endpoint)) :
    Consists accepts (style.rows endpoints) := by
  intro c hc
  obtain ⟨part, hpart, hc⟩ := List.mem_flatMap.1 hc
  obtain ⟨endpoint, hendpoint, rfl⟩ := List.mem_map.1 hpart
  rcases List.mem_append.1 hc with hc | hc
  · obtain rfl := List.mem_singleton.1 hc
    exact hbreak
  · exact h endpoint hendpoint c hc

theorem avoids_rows (h : ∀ endpoint ∈ endpoints, endpoint.Plain) :
    Text.Avoids "s " (style.rows endpoints) := by
  induction endpoints with
  | nil => exact Text.avoids_of_not_mem (c := 's') (by decide) (by simp [rows, preceded])
  | cons endpoint endpoints ih =>
      have heq : style.rows (endpoint :: endpoints) =
          ("\n" ++ style.row endpoint) ++ style.rows endpoints := by
        simp [rows, preceded]
      have hrow : Text.Avoids "s " ("\n" ++ style.row endpoint) :=
        (.literal (by decide) : Text.Avoids "s " "\n").append_of_last
          (avoids_row (h endpoint (by simp)))
          (by rintro c ⟨⟩; decide)
      rw [heq]
      by_cases hne : endpoints = []
      · subst hne
        simpa [rows, preceded] using hrow
      · refine hrow.append_of_head (ih fun other hother => h other (by simp [hother])) fun c hc => ?_
        have hbreaks := breaksLine_rows style hne [] c (by rwa [List.append_nil])
        rw [hbreaks]
        decide

theorem foreign_rows (hplain : ∀ endpoint ∈ endpoints, endpoint.Plain) (hne : endpoints ≠ [])
    {rest : Text} (hrest : BreaksLine rest) : Foreign feature (style.rows endpoints) rest := by
  have hcode : Consists isCodeChar (style.rows endpoints) :=
    consists_rows (by decide) fun endpoint hendpoint => code_row (hplain endpoint hendpoint)
  exact {
    ne_nil := rows_ne_nil hne
    breaks := by simpa using breaksLine_rows style hne []
    joint := .inr hrest
    no_quote := hcode.not_mem (by decide)
    no_path := fun path hpath => hpath.avoids_of_slash (hcode.not_mem (by decide)) }

theorem cut_rows (h : style.anchor.Cut a b) (hplain : ∀ endpoint ∈ endpoints, endpoint.Plain)
    (hnames : ∀ endpoint ∈ endpoints, endpoint.methodName ≠ []) (hne : endpoints ≠ []) :
    style.anchor.Cut (a ++ style.rows endpoints) b := by
  cases style with
  | unions => exact cut_whenCases h hplain hnames hne
  | plain => exact cut_registrations h hplain hne

/-! ### Handlers -/

theorem foreign_handlers (hfeature : feature.Plain)
    (hplain : ∀ endpoint ∈ endpoints, endpoint.Plain) (rest : Text) :
    Foreign feature (style.handlers feature endpoints) rest := by
  refine foreign_memberBlock (fun part hpart => ?_) hfeature rest
  obtain ⟨endpoint, hendpoint, rfl⟩ := List.mem_map.1 hpart
  have hcode := code_handler style hfeature (hplain endpoint hendpoint)
  exact ⟨hcode.not_mem (by decide), fun path hpath =>
    hpath.avoids_of_slash (hcode.not_mem (by decide))⟩

theorem balanced_handler (hfeature : feature.Plain) (h : endpoint.Plain) :
    Balanced (style.handler feature endpoint) := by
  have hword : ∀ {name : Text}, AsciiWordy name → Consists isBraceless name :=
    takesTokens_isBraceless.of_asciiWordy
  have hmethod := hword h.methodName
  have hfield := hword h.stateField
  have hparameters := takesTokens_isBraceless.of_signature (h.handlerParameters hfeature)
  have hcall := takesTokens_isBraceless.of_signature h.callArguments
  have hhandler := hword h.handlerName
  have hevent := hword h.plainEvent
  have hplain := hword h.plainHandler
  have hbase := hword h.baseName
  have hemitter := takesTokens_isBraceless.of_signature hfeature.emitterParameter
  have harguments := takesTokens_isBraceless.eventArguments h
  have hblock : ∀ {text : Text} (head inner : Text), text = head ++ ('\x7b' :: (inner ++ ['\x7d'])) →
      Consists isBraceless head → Consists isBraceless inner → Balanced text := by
    rintro text head inner rfl hhead hinner
    exact (Balanced.of_consists hhead).append (Balanced.of_consists hinner).braces
  -- a handler is a head and one block, with no brace in either
  have hopen : (") async \x7b\n" : Text) = ") async " ++ ['\x7b'] ++ "\n" := by
    repeat rw [String.toList_ofList]
    rfl
  have hclose : ("  \x7d" : Text) = "  " ++ ['\x7d'] := Text.literal_append rfl
  cases style with
  | unions =>
      have hhandler : Balanced (blocHandler feature endpoint) := by
        unfold blocHandler Endpoint.call
        rw [hopen, hclose]
        refine hblock ("  Future<void> " ++ (endpoint.handlerName ++ ("(" ++
          (joinNonempty [endpoint.typedParameters, emitterParameter feature] ++ ") async "))))
          ("\n" ++ ("    emit(state.copyWith(isLoading: true, error: const Error.none()));\n" ++
            ("\n" ++ ("    final result = await _useCases." ++ (endpoint.methodName ++ ("(" ++
            (endpoint.callArguments ++ (")" ++ (";\n" ++ ("\n" ++ ("    result.fold(\n" ++
            ("      (error) => emit(state.copyWith(\n" ++ ("        isLoading: false,\n" ++
            ("        error: error,\n" ++ ("      )),\n" ++
            ("      (response) => emit(state.copyWith(\n" ++ ("        isLoading: false,\n" ++
            ("        " ++ (endpoint.stateField ++ (": response,\n" ++
            ("        error: const Error.none(),\n" ++ ("      )),\n" ++ ("    );\n" ++
            "  "))))))))))))))))))))))) ?_ ?_ ?_
        · simp -implicitDefEqProofs only [List.append_assoc, List.cons_append, List.nil_append]
        · simp only [Consists.append_iff]
          and_intros
          all_goals first | exact .literal (by decide) | assumption
        · simp only [Consists.append_iff]
          and_intros
          all_goals first | exact .literal (by decide) | assumption
      exact hhandler
  | plain =>
      have hhandler : Balanced (plainBlocHandler feature endpoint) := by
        unfold plainBlocHandler
        rw [hopen, hclose]
        refine hblock ("  Future<void> " ++ (endpoint.plainHandler ++ ("(" ++
          (endpoint.plainEvent ++ (" event, " ++ (emitterParameter feature ++ ") async "))))))
          ("\n" ++ ("    emit(" ++ (endpoint.baseName ++ ("LoadingState());\n" ++ ("\n" ++
            ("    final result = await _useCases." ++ (endpoint.methodName ++ ("(" ++
            (eventArguments endpoint ++ (");\n" ++ ("\n" ++ ("    result.fold(\n" ++
            ("      (error) => emit(" ++ (endpoint.baseName ++ ("ErrorState(error.toString())),\n" ++
            ("      (response) => emit(" ++ (endpoint.baseName ++ ("SuccessState(response)),\n" ++
            ("    );\n" ++ "  "))))))))))))))))))) ?_ ?_ ?_
        · simp -implicitDefEqProofs only [List.append_assoc, List.cons_append, List.nil_append]
        · simp only [Consists.append_iff]
          and_intros
          all_goals first | exact .literal (by decide) | assumption
        · simp only [Consists.append_iff]
          and_intros
          all_goals first | exact .literal (by decide) | assumption
      exact hhandler

theorem cut_handlers (h : style.anchor.Cut a (s ++ '\x7d' :: q)) (hin : style.anchor.Cut a s)
    (hfeature : feature.Plain) (hplain : ∀ endpoint ∈ endpoints, endpoint.Plain)
    (hne : endpoints ≠ []) :
    style.anchor.Cut a (s ++ (style.handlers feature endpoints ++ '\x7d' :: q)) := by
  cases style with
  | unions => exact cut_blocHandlers h hin hfeature hplain hne
  | plain => exact cut_plainBlocHandlers h hin hfeature hplain hne

end BlocStyle

/-! ## The three places -/

/-- A bloc cut where rows go in and where handlers go in. No import stands in the lines of these
places, and the part in front of the second place has its last row at the first one. -/
structure BlocPlaces (style : BlocStyle) (feature : Feature) (a s q : Text) : Prop where
  cut : style.anchor.Cut a (s ++ q)
  inner : style.anchor.Cut a s
  ends : splitClassEnd (a ++ (s ++ q)) feature.blocClass = .ok (a ++ s, q)
  line_row : Text.Avoids importToken (lineEnd a)
  line_end : Text.Avoids importToken (lineAt (a ++ s) q)

theorem Anchor.Cut.breaksLine {anchor : Anchor} (h : anchor.Cut a b) (hlines : anchor.WholeLines) :
    BreaksLine b := by
  obtain ⟨front, matched, -, -, -, -, hmatched, -⟩ := splitAfterLast?_iff.1 h
  exact after?_breaksLine hlines hmatched

/-- A match of a whole line does not end with the line break. -/
theorem Anchor.Cut.mid_line {anchor : Anchor} (h : anchor.Cut a b) (hlines : anchor.WholeLines) :
    startsLineAfter true a = false := by
  obtain ⟨front, matched, ha, -, -, -, hafter, -⟩ := splitAfterLast?_iff.1 h
  obtain ⟨matched', -, heq, hend⟩ := after?_eq_some hafter
  obtain rfl := List.append_cancel_right heq
  rw [ha, startsLineAfter_append]
  exact hend hlines _

theorem isPhrase_bloc (hfeature : feature.Plain) : IsPhrase ("class " ++ feature.blocClass) :=
  isPhrase_class ⟨feature.pascal ++ "Blo", 'c', by simp [Feature.blocClass], by decide⟩
    (hfeature.blocClass.consists.not_mem (by decide))

/-- Rows move the end of the class, or are behind it. -/
theorem BlocStyle.moved_rows (hfeature : feature.Plain)
    (hplain : ∀ endpoint ∈ endpoints, endpoint.Plain) (hne : endpoints ≠ [])
    (hcut : style.anchor.Cut a b) :
    Moved a (style.rows endpoints) b (splitClassEnd (a ++ b) feature.blocClass).toOption
      (splitClassEnd (a ++ (style.rows endpoints ++ b)) feature.blocClass).toOption := by
  have hbreaks := hcut.breaksLine style.wholeLines
  have hbraceless : Consists isBraceless (style.rows endpoints) :=
    consists_rows (by decide) fun endpoint hendpoint => braceless_row (hplain endpoint hendpoint)
  have havoids : Text.Avoids ("class " ++ feature.blocClass) (style.rows endpoints) := by
    intro hin
    exact avoids_rows hplain (List.IsInfix.trans ⟨"clas", feature.blocClass, rfl⟩ hin)
  exact moved_splitClassEnd (isPhrase_bloc hfeature) havoids (rows_ne_nil hne)
    (hbraceless.not_mem (by decide)) (hbraceless.not_mem (by decide)) (.inr hbreaks)
    (.inr (breaksLine_rows _ hne _)) (.inr hbreaks)

theorem insertAfterLast_eq {anchor : Anchor} (h : anchor.Cut a b) (addition : Text) :
    insertAfterLast (a ++ b) anchor addition = .ok (a ++ (addition ++ b)) := by
  unfold Anchor.Cut at h
  unfold insertAfterLast
  rw [h]
  simp

theorem insertIntoClass_eq {name : Text} (h : splitClassEnd (a ++ b) name = .ok (a, b))
    (members : List Text) (separator : Text) :
    insertIntoClass (a ++ b) name members separator =
      .ok (a ++ (memberBlock separator members ++ b)) := by
  unfold insertIntoClass
  rw [h]
  simp [bind, Except.bind]

namespace BlocPlaces

variable {X Z : Text}

theorem exists_brace (h : BlocPlaces style feature a s q) : ∃ rest, q = '\x7d' :: rest :=
  exists_brace_of_splitClassEnd h.ends

theorem breaksLine (h : BlocPlaces style feature a s q) (rest : Text) : BreaksLine (s ++ rest) := by
  have hbreaks := h.cut.breaksLine style.wholeLines
  obtain ⟨brace, hq⟩ := h.exists_brace
  cases s with
  | nil =>
      have := hbreaks '\x7d' (by rw [hq]; rfl)
      exact absurd this (by decide)
  | cons c s => exact hbreaks

theorem ne_nil (h : BlocPlaces style feature a s q) : s ≠ [] := by
  rintro rfl
  obtain ⟨brace, hq⟩ := h.exists_brace
  have := h.breaksLine q '\x7d' (by rw [hq]; rfl)
  exact absurd this (by decide)

/-- Import lines move the end of the class, or are behind it. -/
theorem moved_classEnd (h : ImportGap u head foot v) (hfeature : feature.Plain)
    (hpaths : ∀ path ∈ missing, Consists isPathChar path) :
    Moved u (gapLines head foot missing) v (splitClassEnd (u ++ v) feature.blocClass).toOption
      (splitClassEnd (u ++ (gapLines head foot missing ++ v)) feature.blocClass).toOption := by
  have hline : '\n' ∉ feature.blocClass := hfeature.blocClass.consists.not_mem (by decide)
  by_cases hnone : gapLines head foot missing = []
  · rw [hnone]
    exact .of_nil fun hcut => splitClassEnd_eq_ok_append (toOption_eq_some_iff.1 hcut)
  · exact moved_splitClassEnd (isPhrase_bloc hfeature) (avoids_class_gapLines h hline hpaths) hnone
      (not_mem_gapLines h hpaths (by decide) (by decide))
      (not_mem_gapLines h hpaths (by decide) (by decide)) h.lineJoint h.lineJoint_before
      (.inl (h.lineStart_lines hpaths))

/-- Rows leave the end of the class where it is. -/
theorem ends_rows (h : BlocPlaces style feature a s q) (hfeature : feature.Plain)
    (hplain : ∀ endpoint ∈ endpoints, endpoint.Plain) (hne : endpoints ≠ []) :
    splitClassEnd (a ++ (style.rows endpoints ++ (s ++ q))) feature.blocClass =
      .ok (a ++ (style.rows endpoints ++ s), q) := by
  have hmoved := BlocStyle.moved_rows hfeature hplain hne h.cut
  rw [h.ends] at hmoved
  generalize hcut : (splitClassEnd (a ++ (style.rows endpoints ++ (s ++ q)))
    feature.blocClass).toOption = cut at hmoved
  generalize hparts : (Except.ok (a ++ s, q) : Except MissingAnchor (Text × Text)).toOption =
    parts at hmoved
  cases hmoved with
  | none => cases hparts
  | @left a' b' hb ha =>
      obtain ⟨rfl, -⟩ := Prod.mk.inj (Option.some.inj hparts)
      have := congrArg List.length ha
      have hpos : 0 < s.length := List.length_pos_iff.2 h.ne_nil
      simp only [List.length_append] at this
      omega
  | @right a' b' hb =>
      obtain ⟨hs, rfl⟩ := Prod.mk.inj (Option.some.inj hparts)
      obtain rfl := List.append_cancel_left hs
      exact toOption_eq_some_iff.1 hcut

/-- What a bloc with its imports becomes. -/
theorem insert_eq (h : BlocPlaces style feature a s q) (hfeature : feature.Plain)
    (hplain : ∀ endpoint ∈ endpoints, endpoint.Plain)
    (hne : endpoints ≠ [])
    (himports : insertImports content (feature.modelImports endpoints) = a ++ (s ++ q)) :
    style.insert feature content endpoints = .ok (a ++ (style.rows endpoints ++
      (s ++ (style.handlers feature endpoints ++ q)))) := by
  have hends := h.ends_rows hfeature hplain hne
  have hrows := insertAfterLast_eq h.cut (style.rows endpoints)
  have hsplit : a ++ (style.rows endpoints ++ (s ++ q)) = a ++ (style.rows endpoints ++ s) ++ q := by
    simp
  unfold BlocStyle.insert
  rw [himports]
  dsimp only
  rw [hrows, hsplit]
  rw [hsplit] at hends
  have hclass := insertIntoClass_eq hends (endpoints.map (style.handler feature)) "\n\n"
  refine hclass.trans ?_
  unfold BlocStyle.handlers
  simp

/-- What a bloc with its imports becomes when rows and handlers have been put in before. -/
theorem insert_behind (h : BlocPlaces style feature a s q) (hfeature : feature.Plain)
    (hB : ∀ endpoint ∈ B, endpoint.Plain) (hC : ∀ endpoint ∈ C, endpoint.Plain)
    (hnames : ∀ endpoint ∈ B, endpoint.methodName ≠ []) (hBne : B ≠ []) (hCne : C ≠ [])
    (himports : insertImports content (feature.modelImports C) =
      a ++ (style.rows B ++ (s ++ (style.handlers feature B ++ q)))) :
    style.insert feature content C = .ok (a ++ (style.rows (B ++ C) ++
      (s ++ (style.handlers feature (B ++ C) ++ q)))) := by
  have hplain : ∀ endpoint ∈ B ++ C, endpoint.Plain := List.forall_mem_append.2 ⟨hB, hC⟩
  have hends := h.ends_rows hfeature hplain (by simp [hBne])
  obtain ⟨brace, hq⟩ := h.exists_brace
  -- the last row is the last one put in, and the class still ends behind the handlers
  have hcut : style.anchor.Cut (a ++ style.rows B)
      (s ++ (style.handlers feature B ++ q)) := by
    have hcut := h.cut
    rw [hq] at hcut ⊢
    exact BlocStyle.cut_rows (BlocStyle.cut_handlers hcut h.inner hfeature hB hBne) hB hnames hBne
  have hrows := insertAfterLast_eq hcut (style.rows C)
  have hblock : Balanced (style.handlers feature B) := by
    refine .memberBlock fun part hpart => ?_
    obtain ⟨endpoint, hendpoint, rfl⟩ := List.mem_map.1 hpart
    exact BlocStyle.balanced_handler hfeature (hB endpoint hendpoint)
  have hword := hfeature.blocClass
  have hsplit : a ++ (style.rows (B ++ C) ++ (s ++ q)) = a ++ (style.rows (B ++ C) ++ s) ++ q := by
    simp
  rw [hsplit] at hends
  have hbehind := splitClassEnd_block (isPhrase_bloc hfeature) (hword.consists.not_mem (by decide)) hblock
    hends
  rw [← List.append_assoc] at hbehind
  have hclass := insertIntoClass_eq hbehind (C.map (style.handler feature)) "\n\n"
  have htext : a ++ style.rows B ++ (style.rows C ++ (s ++ (style.handlers feature B ++ q))) =
      a ++ (style.rows (B ++ C) ++ s) ++ style.handlers feature B ++ q := by
    rw [BlocStyle.rows_append]
    simp
  unfold BlocStyle.insert
  rw [himports]
  dsimp only
  rw [← List.append_assoc, hrows, htext]
  refine hclass.trans ?_
  have hhandlers : memberBlock "\n\n" (B.map (style.handler feature)) ++
      memberBlock "\n\n" (C.map (style.handler feature)) =
        memberBlock "\n\n" ((B ++ C).map (style.handler feature)) := by
    rw [List.map_append]
    exact memberBlock_append (by simpa using hBne) (by simpa using hCne)
  unfold BlocStyle.handlers
  rw [← hhandlers]
  simp

/-! ### Imports around rows and handlers -/

/-- The imports lead from one text to another, whatever rows and handlers have been put in before. -/
structure ImportsLead (feature : Feature) (paths : List Text) (a s q a' s' q' : Text) : Prop where
  alone : insertImports (a ++ (s ++ q)) paths = a' ++ (s' ++ q')
  through : ∀ X Z, (∀ rest, BreaksLine rest → Foreign feature X rest) →
    (∀ rest, Foreign feature Z rest) →
    insertImports (a ++ (X ++ (s ++ (Z ++ q)))) paths = a' ++ (X ++ (s' ++ (Z ++ q')))

/-- Which imports are missing does not depend on rows and handlers. -/
theorem missingImports_eq (h : BlocPlaces style feature a s q) (hfeature : feature.Plain)
    (hpaths : ∀ path ∈ paths, IsModelImport feature path)
    (hX : ∀ rest, BreaksLine rest → Foreign feature X rest) (hZ : ∀ rest, Foreign feature Z rest) :
    missingImports (a ++ (X ++ (s ++ (Z ++ q)))) paths =
      missingImports (a ++ (s ++ q)) paths := by
  obtain ⟨brace, hq⟩ := h.exists_brace
  have hqhead : ∀ c ∈ q.head?, isPathChar c = false := by
    rw [hq]
    rintro c ⟨⟩
    decide
  have hshead : ∀ c ∈ (s ++ (Z ++ q)).head?, isPathChar c = false := by
    intro c hc
    rw [h.breaksLine (Z ++ q) c hc]
    decide
  rw [(hX _ (h.breaksLine (Z ++ q))).missingImports hfeature hpaths hshead,
    ← List.append_assoc, (hZ q).missingImports hfeature hpaths hqhead, List.append_assoc]

/-- The imports go in behind the class. -/
theorem imports_behind (h : BlocPlaces style feature a s (x ++ v)) (hfeature : feature.Plain)
    (hpaths : ∀ path ∈ paths, IsModelImport feature path)
    (hgap : ImportGap (a ++ s ++ x) head foot v) (hx : x ≠ [])
    (hmissing : missingImports (a ++ (s ++ (x ++ v))) paths = missing)
    (hends : splitClassEnd (a ++ s ++ x ++ (gapLines head foot missing ++ v)) feature.blocClass =
      .ok (a ++ s, x ++ (gapLines head foot missing ++ v))) :
    BlocPlaces style feature a s (x ++ (gapLines head foot missing ++ v)) ∧
      ImportsLead feature paths a s (x ++ v) a s (x ++ (gapLines head foot missing ++ v)) := by
  have hconsists : ∀ path ∈ missing, Consists isPathChar path := fun path hpath =>
    (hpaths path (mem_missingImports.1 (hmissing ▸ hpath)).1).consists hfeature
  refine ⟨⟨?_, h.inner, ?_, h.line_row, ?_⟩, ⟨?_, fun X Z hX hZ => ?_⟩⟩
  · have hcut := h.cut
    rw [← List.append_assoc] at hcut ⊢
    refine hcut.lines_behind style.wholeLines (hgap.inert_lines hconsists) ?_ (by simp [hx])
    rw [← List.append_assoc]
    exact hgap.place_lines
  · simpa using hends
  · rw [lineAt_of_lineJoint hx hgap.lineJoint_before hgap.lineJoint]
    exact h.line_end
  · have htext := hgap.insertImports_eq paths
    simp only [List.append_assoc, hmissing] at htext
    exact htext
  · have hgap' := hgap.insert_front (y := Z) hx h.line_end
    rw [List.append_assoc] at hgap'
    have hgap'' := hgap'.insert_front (y := X) (by simp [hx]) (by
      rw [List.append_assoc, lineAt_of_breaksLine (h.breaksLine _)]
      exact h.line_row)
    have hsame := h.missingImports_eq hfeature hpaths hX hZ
    have htext := hgap''.insertImports_eq paths
    simp only [List.append_assoc, hsame, hmissing] at htext
    exact htext

/-- The imports go in between the rows and the end of the class. -/
theorem imports_between (h : BlocPlaces style feature a (x ++ y) q) (hfeature : feature.Plain)
    (hpaths : ∀ path ∈ paths, IsModelImport feature path)
    (hgap : ImportGap (a ++ x) head foot (y ++ q)) (hx : x ≠ [])
    (hmissing : missingImports (a ++ (x ++ y ++ q)) paths = missing)
    (hends : splitClassEnd (a ++ x ++ (gapLines head foot missing ++ (y ++ q))) feature.blocClass =
      .ok (a ++ x ++ (gapLines head foot missing ++ y), q)) :
    BlocPlaces style feature a (x ++ (gapLines head foot missing ++ y)) q ∧
      ImportsLead feature paths a (x ++ y) q a (x ++ (gapLines head foot missing ++ y)) q := by
  have hconsists : ∀ path ∈ missing, Consists isPathChar path := fun path hpath =>
    (hpaths path (mem_missingImports.1 (hmissing ▸ hpath)).1).consists hfeature
  have hlines := style.wholeLines
  have hinert := hgap.inert_lines hconsists
  obtain ⟨brace, hq⟩ := h.exists_brace
  have hyq : y ++ q ≠ [] := by simp [hq]
  have hstart := hgap.lineStart hyq
  have hbreaks : ∀ rest : Text, BreaksLine (x ++ rest) := by
    intro rest
    obtain ⟨c, x, rfl⟩ := List.exists_cons_of_ne_nil hx
    have hbreaks := h.breaksLine rest
    exact hbreaks
  refine ⟨⟨?_, ?_, ?_, h.line_row, ?_⟩, ⟨?_, fun X Z hX hZ => ?_⟩⟩
  · have hcut := h.cut
    rw [List.append_assoc] at hcut
    simpa using hcut.lines_behind hlines hinert (.inl hstart) hx
  · exact h.inner.lines_behind hlines hinert (.inl hstart) hx
  · simpa using hends
  · have hline := h.line_end
    rw [← List.append_assoc, ← lineAt_lines_before hstart hinert.ends_line] at hline
    simpa using hline
  · have htext := hgap.insertImports_eq paths
    simp only [List.append_assoc] at htext hmissing ⊢
    rw [htext, hmissing]
  · have hgap' := hgap.insert_behind (hZ q).avoids (hZ q).ne_nil (hZ q).breaks (hZ q).joint
      (by simp [hx]) hyq
    have hgap'' := hgap'.insert_front (y := X) hx (by
      rw [lineAt_of_breaksLine (hbreaks _)]
      exact h.line_row)
    have hsame := h.missingImports_eq hfeature hpaths hX hZ
    have htext := hgap''.insertImports_eq paths
    simp only [List.append_assoc] at htext hsame hmissing ⊢
    rw [htext, hsame, hmissing]

/-- The imports go in in front of the end of the last row. -/
theorem imports_before (h : BlocPlaces style feature (u ++ x) s q) (hfeature : feature.Plain)
    (hpaths : ∀ path ∈ paths, IsModelImport feature path)
    (hgap : ImportGap u head foot (x ++ s ++ q)) (hx : x ≠ [])
    (hmissing : missingImports (u ++ x ++ (s ++ q)) paths = missing)
    (hends : splitClassEnd (u ++ (gapLines head foot missing ++ (x ++ s ++ q))) feature.blocClass =
      .ok (u ++ (gapLines head foot missing ++ (x ++ s)), q)) :
    BlocPlaces style feature (u ++ (gapLines head foot missing ++ x)) s q ∧
      ImportsLead feature paths (u ++ x) s q (u ++ (gapLines head foot missing ++ x)) s q := by
  have hconsists : ∀ path ∈ missing, Consists isPathChar path := fun path hpath =>
    (hpaths path (mem_missingImports.1 (hmissing ▸ hpath)).1).consists hfeature
  have hlines := style.wholeLines
  have hinert := hgap.inert_lines hconsists
  obtain ⟨brace, hq⟩ := h.exists_brace
  have hstart := hgap.lineStart (by simp [hq])
  refine ⟨⟨?_, ?_, ?_, ?_, ?_⟩, ⟨?_, fun X Z hX hZ => ?_⟩⟩
  · exact h.cut.lines_before hlines hinert (.inl hstart) hx
  · exact h.inner.lines_before hlines hinert (.inl hstart) hx
  · simpa using hends
  · have hline := h.line_row
    have hstart' : startsLineAfter true (u ++ gapLines head foot missing) = true := by
      rw [startsLineAfter_append, hstart, hinert.ends_line]
    rwa [← List.append_assoc, lineEnd_of_lineStart hstart', ← lineEnd_of_lineStart hstart x]
  · have hline := h.line_end
    rw [List.append_assoc, ← lineAt_lines_before hstart hinert.ends_line] at hline
    simpa using hline
  · have htext := hgap.insertImports_eq paths
    simp only [List.append_assoc] at htext hmissing ⊢
    rw [htext, hmissing]
  · have hgap' := hgap.insert_behind (hZ q).avoids (hZ q).ne_nil (hZ q).breaks (hZ q).joint
      (by simp [hx]) (by simp [hq])
    rw [List.append_assoc] at hgap'
    have hX' := hX _ (h.breaksLine (Z ++ q))
    have hgap'' := hgap'.insert_behind hX'.avoids hX'.ne_nil hX'.breaks hX'.joint (by simp [hx])
      (by simp [hx])
    have hsame := h.missingImports_eq hfeature hpaths hX hZ
    have htext := hgap''.insertImports_eq paths
    simp only [List.append_assoc] at htext hsame hmissing ⊢
    rw [htext, hsame, hmissing]

/-- Imports leave the places for rows and handlers, and come in at the same place when rows and
handlers have been put in before. -/
theorem exists_importsLead (h : BlocPlaces style feature a s q) (hfeature : feature.Plain)
    (hpaths : ∀ path ∈ paths, IsModelImport feature path) :
    ∃ a' s' q', BlocPlaces style feature a' s' q' ∧ ImportsLead feature paths a s q a' s' q' := by
  obtain ⟨u, head, foot, v, heq, hgap⟩ := exists_importGap (a ++ (s ++ q))
  generalize hmissing : missingImports (a ++ (s ++ q)) paths = missing
  have hchars : ∀ path ∈ missing, Consists isPathChar path := fun path hpath =>
    (hpaths path (mem_missingImports.1 (hmissing ▸ hpath)).1).consists hfeature
  have hends := moved_classEnd hgap hfeature hchars
  rw [← heq, h.ends] at hends
  generalize hcut : (splitClassEnd (u ++ (gapLines head foot missing ++ v))
    feature.blocClass).toOption = cut at hends
  generalize hparts : (Except.ok (a ++ s, q) : Except MissingAnchor (Text × Text)).toOption =
    parts at hends
  cases hends with
  | none => cases hparts
  | @left p x hx hu =>
      obtain ⟨rfl, hq⟩ := Prod.mk.inj (Option.some.inj hparts)
      subst hu hq
      have hcut := toOption_eq_some_iff.1 hcut
      exact ⟨_, _, _, h.imports_behind hfeature hpaths hgap hx hmissing hcut⟩
  | @right y b hv =>
      obtain ⟨hp, rfl⟩ := Prod.mk.inj (Option.some.inj hparts)
      subst hv
      have hcut := toOption_eq_some_iff.1 hcut
      have hstart : startsLineAfter true u = true := by
        obtain ⟨brace, hq⟩ := h.exists_brace
        exact hgap.lineStart (by simp [hq])
      rcases cut_cases hp.symm with ⟨x, hx, rfl, rfl⟩ | ⟨x, rfl, rfl⟩
      · exact ⟨_, _, _, h.imports_between hfeature hpaths hgap hx hmissing hcut⟩
      · have hx : x ≠ [] := by
          rintro rfl
          have hmid := h.cut.mid_line style.wholeLines
          rw [List.append_nil, hstart] at hmid
          cases hmid
        exact ⟨_, _, _, h.imports_before hfeature hpaths hgap hx hmissing hcut⟩

end BlocPlaces

/-! ## Batches -/

namespace BlocStyle

/-- The class ends behind the last row, which is also the last row of the part in front of its end;
in the plain style, the line of that row holds no import. -/
def Settled (style : BlocStyle) (feature : Feature) (content : Text) : Prop :=
  ∀ a b p q, content = a ++ b → style.anchor.Cut a b →
    splitClassEnd content feature.blocClass = .ok (p, q) →
    (∃ s, p = a ++ s ∧ style.anchor.Cut a s) ∧
      (style = plain → Text.Avoids importToken (lineAt a b))

end BlocStyle

/-- Every line with an import ends with a semicolon, and has no braces. -/
def TidyImports (content : Text) : Prop :=
  ∀ line ∈ Text.splitOn '\n' content, importToken <:+: line →
    line.getLast? = some ';' ∧ '\x7b' ∉ line ∧ '\x7d' ∉ line

/-- No import stands in the line of a closing brace. -/
theorem TidyImports.avoids_brace (h : TidyImports (a ++ '\x7d' :: b)) :
    Text.Avoids importToken (lineAt a ('\x7d' :: b)) := by
  intro hin
  have hbrace := (h _ (lineAt_mem _ _) hin).2.2
  refine hbrace ?_
  unfold lineAt
  simp

/-- No import stands in the line of a branch. -/
theorem TidyImports.avoids_branch (h : TidyImports (a ++ b)) (hcut : Anchor.whenCase.Cut a b) :
    Text.Avoids importToken (lineEnd a) := by
  intro hin
  have hline := lineAt_mem a b
  rw [lineAt_of_breaksLine (hcut.breaksLine (.inl rfl))] at hline
  have hlast := (h _ hline hin).1
  obtain ⟨front, matched, ha, -, -, -, hafter, -⟩ := splitAfterLast?_iff.1 hcut
  obtain ⟨-, head, parameters, arrow, arguments, blanks, -, -, -, -, hblanks, hmatched⟩ :=
    after?_whenCase_eq_some hafter
  -- the line ends with a comma and blanks
  have hne : lineEnd a ≠ [] := fun hnil => by
    rw [hnil] at hlast
    cases hlast
  obtain ⟨first, hfirst, -⟩ := exists_lineEnd a
  have hsemicolon : a.getLast? = some ';' := by
    rw [hfirst, List.getLast?_append_of_ne_nil _ hne, hlast]
  have hmem : ';' ∈ ',' :: blanks := by
    rw [ha, List.append_cancel_right hmatched, ← List.append_assoc,
      List.getLast?_append_of_ne_nil _ (by simp), List.getLast?_cons_cons] at hsemicolon
    exact List.mem_of_getLast? hsemicolon
  rcases List.mem_cons.1 hmem with hcomma | hblank
  · exact absurd hcomma (by decide)
  · exact absurd (hblanks _ hblank) (by decide)

theorem exists_cut_of_insertAfterLast {anchor : Anchor} {addition : Text}
    (h : insertAfterLast content anchor addition = .ok result) :
    ∃ a b, content = a ++ b ∧ anchor.Cut a b ∧ result = a ++ (addition ++ b) := by
  unfold insertAfterLast at h
  split at h
  · cases h
  · next a b hcut =>
    obtain rfl := Except.ok.inj h
    exact ⟨a, b, splitAfterLast?_eq_some_append hcut, cut_of_eq hcut, by simp⟩

theorem exists_classEnd_of_insertIntoClass {name separator : Text} {members : List Text}
    (h : insertIntoClass content name members separator = .ok result) :
    ∃ p q, splitClassEnd content name = .ok (p, q) := by
  unfold insertIntoClass at h
  obtain ⟨⟨p, q⟩, hsplit, -⟩ := bind_eq_ok.1 h
  exact ⟨p, q, hsplit⟩

theorem Moved.exists_ok {ε : Type} {cut cut' : Except ε (Text × Text)} {parts : Text × Text}
    (h : Moved u x v cut.toOption cut'.toOption) (hcut : cut' = .ok parts) :
    ∃ parts, cut = .ok parts := by
  subst hcut
  cases cut with
  | ok parts => exact ⟨parts, rfl⟩
  | error e => cases h

namespace BlocStyle

/-- A bloc that can be completed has all its places. -/
theorem exists_places (hfeature : feature.Plain) (hplain : ∀ endpoint ∈ endpoints, endpoint.Plain)
    (hne : endpoints ≠ []) (htidy : TidyImports content) (hsettled : style.Settled feature content)
    (h : style.insert feature content endpoints = .ok result) :
    ∃ a s q, content = a ++ (s ++ q) ∧ BlocPlaces style feature a s q := by
  have hlines := style.wholeLines
  unfold insert at h
  obtain ⟨c, hrows, hclass⟩ := bind_eq_ok.1 h
  obtain ⟨a₂, b₂, hcontent, hcut₂, rfl⟩ := exists_cut_of_insertAfterLast hrows
  obtain ⟨p₂, q₂, hends₂⟩ := exists_classEnd_of_insertIntoClass hclass
  obtain ⟨u, head, foot, v, rfl, hgap⟩ := exists_importGap content
  have hmissing : ∀ path ∈ missingImports (u ++ v) (feature.modelImports endpoints),
      Consists isPathChar path := fun path hpath =>
    (mem_modelImports feature hplain path (mem_missingImports.1 hpath).1).consists hfeature
  rw [hgap.insertImports_eq] at hcontent
  -- the class ends in the text with imports, and in the text without
  have hmoved := moved_rows hfeature hplain hne hcut₂
  obtain ⟨parts₁, hends₁⟩ := hmoved.exists_ok hends₂
  rw [← hcontent] at hends₁
  obtain ⟨⟨p, q⟩, hends⟩ := (BlocPlaces.moved_classEnd hgap hfeature hmissing).exists_ok hends₁
  -- so does the last row
  have hshift := shifted_lines hlines (hgap.inert_lines hmissing) hgap.place_lines
  unfold Anchor.Cut at hcut₂
  rw [hcontent, hcut₂] at hshift
  obtain ⟨⟨a, b⟩, hcut⟩ : ∃ parts, style.anchor.splitAfterLast? true 0 (u ++ v) = some parts := by
    cases hcut : style.anchor.splitAfterLast? true 0 (u ++ v) with
    | some parts => exact ⟨parts, rfl⟩
    | none =>
        rw [hcut] at hshift
        cases hshift
  have htext := splitAfterLast?_eq_some_append hcut
  obtain ⟨⟨s, rfl, hinner⟩, hline⟩ := hsettled a b p q htext (cut_of_eq hcut) hends
  have hsplit := splitClassEnd_eq_ok_append hends
  obtain rfl : b = s ++ q := by
    rw [htext, List.append_assoc] at hsplit
    exact List.append_cancel_left hsplit
  rw [htext] at hends htidy ⊢
  obtain ⟨brace, rfl⟩ := exists_brace_of_splitClassEnd hends
  have hcut := cut_of_eq hcut
  refine ⟨a, s, _, rfl, hcut, hinner, hends, ?_, ?_⟩
  · cases style with
    | unions => exact htidy.avoids_branch hcut
    | plain =>
        have hline := hline rfl
        rwa [lineAt_of_breaksLine (hcut.breaksLine hlines)] at hline
  · rw [← List.append_assoc] at htidy
    exact htidy.avoids_brace

/-- Rows, handlers and imports may be put into a bloc in batches. -/
theorem insert_append (hfeature : feature.Plain) (hB : ∀ endpoint ∈ B, endpoint.Plain)
    (hC : ∀ endpoint ∈ C, endpoint.Plain) (hnames : ∀ endpoint ∈ B, endpoint.methodName ≠ [])
    (hBne : B ≠ []) (hCne : C ≠ []) (htidy : TidyImports content)
    (hsettled : style.Settled feature content)
    (h : style.insert feature content (B ++ C) = .ok result) :
    ∃ middle, style.insert feature content B = .ok middle ∧
      style.insert feature middle C = .ok result := by
  have hplain : ∀ endpoint ∈ B ++ C, endpoint.Plain := List.forall_mem_append.2 ⟨hB, hC⟩
  have hne : B ++ C ≠ [] := by simp [hBne]
  have hpathsB := mem_modelImports feature hB
  have hpathsC := mem_modelImports feature hC
  obtain ⟨a, s, q, rfl, hplaces⟩ := exists_places hfeature hplain hne htidy hsettled h
  -- the places after the first imports, and after all of them
  obtain ⟨a₁, s₁, q₁, hplaces₁, hlead₁⟩ := hplaces.exists_importsLead hfeature hpathsB
  obtain ⟨a₂, s₂, q₂, hplaces₂, hlead₂⟩ := hplaces₁.exists_importsLead hfeature hpathsC
  have hall := insertImports_modelImports (a ++ (s ++ q)) hfeature hB hC
  rw [hlead₁.alone, hlead₂.alone] at hall
  rw [hplaces₂.insert_eq hfeature hplain hne hall] at h
  refine ⟨_, hplaces₁.insert_eq hfeature hB hBne hlead₁.alone, ?_⟩
  rw [← h]
  exact hplaces₂.insert_behind hfeature hB hC hnames hBne hCne (hlead₂.through _ _
    (fun rest hrest => foreign_rows hB hBne hrest) (foreign_handlers hfeature hB))

end BlocStyle

end Scaffold
