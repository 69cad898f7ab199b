import Scaffold.Project.Generation
import Scaffold.Proofs.Patch.Styles
import Scaffold.Proofs.Project.SourceFiles

/-!
# Extending a file in batches

Endpoints may be added to a file in batches, whatever else the file holds
(`SourceFile.extend_append`): what has been put in for the first ones does not lead the next ones
to another place.
-/

namespace Scaffold

open Anchor

variable {source : SourceFile} {feature : Feature} {B C endpoints : List Endpoint}
  {content middle result : Text}

/-! ## Lists that are put in -/

section

variable {α : Type} {insert : Text → List α → Except MissingAnchor Text} {items others : List α}

/-- Puts items into a content, if there are any. -/
def completeWith (insert : Text → List α → Except MissingAnchor Text) (content : Text) :
    List α → Except MissingAnchor Text
  | [] => .ok content
  | item :: items => insert content (item :: items)

/-- Items that are there are put in. -/
theorem completeWith_of_ne_nil (h : items ≠ []) :
    completeWith insert content items = insert content items := by
  obtain ⟨item, items, rfl⟩ := List.exists_cons_of_ne_nil h
  rfl

/-- If items may be put in in batches, they may also where one batch is empty. -/
theorem completeWith_append
    (hinsert : items ≠ [] → others ≠ [] → insert content (items ++ others) = .ok result →
      ∃ middle, insert content items = .ok middle ∧ insert middle others = .ok result)
    (h : completeWith insert content (items ++ others) = .ok result) :
    ∃ middle, completeWith insert content items = .ok middle ∧
      completeWith insert middle others = .ok result := by
  by_cases hitems : items = []
  · subst hitems
    exact ⟨content, rfl, h⟩
  by_cases hothers : others = []
  · subst hothers
    rw [List.append_nil] at h
    exact ⟨result, h, rfl⟩
  rw [completeWith_of_ne_nil (by simp [hitems])] at h
  rw [completeWith_of_ne_nil hitems]
  obtain ⟨middle, hmiddle, hresult⟩ := hinsert hitems hothers h
  exact ⟨middle, hmiddle, by rwa [completeWith_of_ne_nil hothers]⟩

end

/-- What two batches lack is what each of them lacks. -/
theorem lacking_append (content : Text) (name : Endpoint → Text) (B C : List Endpoint) :
    lacking content name (B ++ C) = lacking content name B ++ lacking content name C :=
  List.filter_append ..

/-- What is lacking is one of the endpoints. -/
theorem mem_of_mem_lacking {name : Endpoint → Text} {endpoint : Endpoint}
    (h : endpoint ∈ lacking content name endpoints) : endpoint ∈ endpoints :=
  List.mem_of_mem_filter h

/-- Contents with the same members for the endpoints lack the same of them. -/
theorem lacking_congr {name : Endpoint → Text}
    (h : ∀ endpoint ∈ endpoints, hasMember middle (name endpoint) = hasMember content (name endpoint)) :
    lacking middle name endpoints = lacking content name endpoints :=
  List.filter_congr fun endpoint hendpoint => by rw [h endpoint hendpoint]

/-! ## What is looked for -/

namespace SourceFile

/-- The answers of the search for what an endpoint needs in a file. -/
def answers (feature : Feature) (content : Text) (endpoint : Endpoint) : SourceFile → List Bool
  | ofClass _ => [hasMember content endpoint.methodName]
  | event =>
    if usesUnions content then [hasMember content endpoint.eventName]
    else [declaresClass content endpoint.plainEvent]
  | state =>
    if usesUnions content then [hasMember content endpoint.stateField]
    else (plainStates feature endpoint).map fun state => declaresClass content state.1
  | bloc => [hasMember content ((BlocStyle.ofContent content).handlerName endpoint)]

/-- The bloc is settled; nothing is asked of the other files. -/
def Settled (feature : Feature) (content : Text) : SourceFile → Prop
  | bloc => (BlocStyle.ofContent content).Settled feature content
  | _ => True

end SourceFile

/-! ## Events and states -/

/-- The events are completed with what they lack, in their style. -/
theorem extendEvents_eq (feature : Feature) (content : Text) (endpoints : List Endpoint) :
    extendEvents feature content endpoints =
      if usesUnions content then
        completeWith (fun content new =>
          insertAfterLast content .eventCase (preceded "\n\n" (new.map (eventCase feature))))
          content (lacking content Endpoint.eventName endpoints)
      else
        completeWith (fun content new => appendDeclarations content (new.map (plainEventClass feature)))
          content (endpoints.filter fun endpoint => !declaresClass content endpoint.plainEvent) := by
  unfold extendEvents
  split
  · cases lacking content Endpoint.eventName endpoints <;> rfl
  · cases endpoints.filter fun endpoint => !declaresClass content endpoint.plainEvent <;> rfl

/-- The state is completed with what it lacks, in its style. -/
theorem extendState_eq (feature : Feature) (content : Text) (endpoints : List Endpoint) :
    extendState feature content endpoints =
      if usesUnions content then
        completeWith (fun content new =>
          insertAfterLast content .stateFields (preceded "\n" (new.map stateField)))
          content (lacking content Endpoint.stateField endpoints)
      else
        completeWith (fun content new => appendDeclarations content (new.map (·.2)))
          content ((endpoints.flatMap (plainStates feature)).filter fun state =>
            !declaresClass content state.1) := by
  unfold extendState
  split
  · cases lacking content Endpoint.stateField endpoints <;> rfl
  · dsimp only
    cases (endpoints.flatMap (plainStates feature)).filter fun state =>
      !declaresClass content state.1 <;> rfl

/-- A class file is completed with the methods that it lacks. -/
theorem ClassFile.extend_eq (file : ClassFile) (feature : Feature) (content : Text)
    (endpoints : List Endpoint) : file.extend feature content endpoints =
      completeWith (file.insert feature) content (lacking content Endpoint.methodName endpoints) := by
  unfold ClassFile.extend
  cases lacking content Endpoint.methodName endpoints <;> rfl

/-- The bloc is completed with the handlers that it lacks, in its style. -/
theorem extendBloc_eq_completeWith (feature : Feature) (content : Text)
    (endpoints : List Endpoint) : extendBloc feature content endpoints =
      completeWith ((BlocStyle.ofContent content).insert feature) content
        (lacking content (BlocStyle.ofContent content).handlerName endpoints) := by
  rw [extendBloc_eq]
  cases lacking content (BlocStyle.ofContent content).handlerName endpoints <;> rfl

/-- The last match of the events ends with a semicolon. -/
theorem Anchor.Cut.getLast?_eventCase {a b : Text} (h : Anchor.eventCase.Cut a b) :
    a.getLast? = some ';' := by
  obtain ⟨front, matched, ha, -, -, -, hafter, -⟩ := splitAfterLast?_iff.1 h
  rw [after?_eventCase] at hafter
  obtain ⟨middle, hword, hend⟩ := Option.bind_eq_some_iff.1 hafter
  obtain ⟨before, -, rfl⟩ := afterChar?_eq_some hend
  rw [Text.after?_eq_some_iff] at hword
  have hmatched : matched ++ b = "const factory" ++ before ++ [';'] ++ b := by
    rw [hword]
    simp
  rw [ha, List.append_cancel_right hmatched, ← List.append_assoc]
  exact List.getLast?_concat ..

/-- The last match of the fields ends where a line does. -/
theorem Anchor.Cut.breaksLine_stateFields {a b : Text} (h : Anchor.stateFields.Cut a b) :
    BreaksLine b := by
  obtain ⟨front, matched, -, -, -, -, hafter, -⟩ := splitAfterLast?_iff.1 h
  simp only [after?, Option.bind_eq_bind, Option.bind_eq_some_iff] at hafter
  obtain ⟨_, _, _, _, _, _, hend⟩ := hafter
  obtain ⟨before, -, hcloses⟩ := fromBlockEnd?_eq_some hend
  intro c hc
  obtain ⟨rest, rfl⟩ := List.head?_eq_some_iff.1 hc
  unfold closesBlock at hcloses
  split at hcloses
  · next heq => exact (List.cons.inj (by assumption : c :: rest = '\n' :: _)).1
  · cases hcloses

/-- Cases of events may be put in in batches. -/
theorem insert_events_append (hfeature : feature.Plain) (hB : ∀ endpoint ∈ B, endpoint.Plain)
    (hBne : B ≠ [])
    (h : insertAfterLast content .eventCase (preceded "\n\n" ((B ++ C).map (eventCase feature))) =
      .ok result) :
    ∃ middle, insertAfterLast content .eventCase (preceded "\n\n" (B.map (eventCase feature))) =
        .ok middle ∧
      insertAfterLast middle .eventCase (preceded "\n\n" (C.map (eventCase feature))) = .ok result := by
  obtain ⟨a, b, rfl, hcut, rfl⟩ := exists_cut_of_insertAfterLast h
  refine ⟨_, insertAfterLast_eq hcut _, ?_⟩
  rw [← List.append_assoc, insertAfterLast_eq (cut_eventCases hcut hfeature hB hBne)]
  simp [preceded]

/-- Fields of the state may be put in in batches. -/
theorem insert_fields_append (hB : ∀ endpoint ∈ B, endpoint.Plain) (hBne : B ≠ [])
    (h : insertAfterLast content .stateFields (preceded "\n" ((B ++ C).map stateField)) =
      .ok result) :
    ∃ middle, insertAfterLast content .stateFields (preceded "\n" (B.map stateField)) =
        .ok middle ∧
      insertAfterLast middle .stateFields (preceded "\n" (C.map stateField)) = .ok result := by
  obtain ⟨a, b, rfl, hcut, rfl⟩ := exists_cut_of_insertAfterLast h
  refine ⟨_, insertAfterLast_eq hcut _, ?_⟩
  rw [← List.append_assoc, insertAfterLast_eq (cut_stateFields hcut hB hBne)]
  simp [preceded]

/-! ## The files -/

/-- A class file may be extended in batches, if the first batch does not change what the second one
lacks. -/
theorem ClassFile.extend_batches {file : ClassFile} (hfeature : feature.Plain)
    (hB : ∀ endpoint ∈ B, endpoint.Quiet) (hC : ∀ endpoint ∈ C, endpoint.Quiet)
    (htidy : TidyImports content) (hstart : content.head? ≠ some '\x7d')
    (hsame : ∀ middle, file.extend feature content B = .ok middle → ∀ endpoint ∈ C,
      hasMember middle endpoint.methodName = hasMember content endpoint.methodName)
    (h : file.extend feature content (B ++ C) = .ok result) :
    ∃ middle, file.extend feature content B = .ok middle ∧
      file.extend feature middle C = .ok result := by
  have hplace : ∀ p q, file.splitEnd feature content = .ok (p, q) →
      p ≠ [] ∧ Text.Avoids importToken (lineAt p q) := by
    intro p q hsplit
    obtain rfl := splitEnd_append hsplit
    obtain ⟨brace, rfl⟩ := exists_brace_of_splitEnd hsplit
    refine ⟨?_, htidy.avoids_brace⟩
    rintro rfl
    exact hstart rfl
  rw [extend_eq, lacking_append] at h
  obtain ⟨middle, hmiddle, hresult⟩ := completeWith_append (fun hnew hnew' => insert_append hfeature
    (fun endpoint hmem => hB endpoint (mem_of_mem_lacking hmem))
    (fun endpoint hmem => hC endpoint (mem_of_mem_lacking hmem)) hnew hnew' hplace) h
  rw [← extend_eq] at hmiddle
  refine ⟨middle, hmiddle, ?_⟩
  rw [extend_eq, lacking_congr (hsame middle hmiddle)]
  exact hresult

/-- The events may be extended in batches, in both styles. -/
theorem extendEvents_append (hfeature : feature.Plain) (hB : ∀ endpoint ∈ B, endpoint.Plain)
    (hsame : ∀ middle, extendEvents feature content B = .ok middle → ∀ endpoint ∈ C,
      SourceFile.event.answers feature middle endpoint =
        SourceFile.event.answers feature content endpoint)
    (h : extendEvents feature content (B ++ C) = .ok result) :
    ∃ middle, extendEvents feature content B = .ok middle ∧
      extendEvents feature middle C = .ok result := by
  cases hunions : usesUnions content with
  | true =>
      have hevents := fun endpoints => extendEvents_eq feature content endpoints
      simp only [hunions, if_true] at hevents
      rw [hevents, lacking_append] at h
      obtain ⟨middle, hmiddle, hresult⟩ := completeWith_append (fun hne _ hinsert =>
        insert_events_append hfeature (fun endpoint hmem => hB endpoint (mem_of_mem_lacking hmem)) hne
          hinsert) h
      have hstyle : usesUnions middle = true := by
        by_cases hne : lacking content Endpoint.eventName B = []
        · rw [hne] at hmiddle
          rwa [← Except.ok.inj hmiddle]
        · rw [completeWith_of_ne_nil hne] at hmiddle
          obtain ⟨a, b, rfl, hcut, rfl⟩ := exists_cut_of_insertAfterLast hmiddle
          exact usesUnions_insert (.inr hcut.getLast?_eventCase) hunions
      rw [← hevents] at hmiddle
      refine ⟨middle, hmiddle, ?_⟩
      have hnames : ∀ endpoint ∈ C,
          hasMember middle endpoint.eventName = hasMember content endpoint.eventName := by
        intro endpoint hendpoint
        have hanswers := hsame middle hmiddle endpoint hendpoint
        unfold SourceFile.answers at hanswers
        rw [hstyle, hunions] at hanswers
        exact (List.cons.inj hanswers).1
      rw [extendEvents_eq, hstyle, if_pos rfl, lacking_congr hnames]
      exact hresult
  | false =>
      have hevents := fun endpoints => extendEvents_eq feature content endpoints
      simp only [hunions, Bool.false_eq_true, if_false] at hevents
      rw [hevents, List.filter_append] at h
      have hplain : ∀ declaration ∈ (B.filter fun endpoint =>
          !declaresClass content endpoint.plainEvent).map (plainEventClass feature),
          PlainDeclaration declaration := by
        intro declaration hmem
        obtain ⟨endpoint, hendpoint, rfl⟩ := List.mem_map.1 hmem
        exact plainDeclaration_event hfeature (hB endpoint (List.mem_of_mem_filter hendpoint))
      obtain ⟨middle, hmiddle, hresult⟩ := completeWith_append (fun hne hne' hinsert => by
        rw [List.map_append] at hinsert
        exact appendDeclarations_append (fun declaration hmem => (hplain declaration hmem).closed)
          (by simpa using hne) (by simpa using hne') hinsert) h
      have hstyle : usesUnions middle = false := by
        by_cases hne : (B.filter fun endpoint => !declaresClass content endpoint.plainEvent) = []
        · rw [hne] at hmiddle
          rwa [← Except.ok.inj hmiddle]
        · rw [completeWith_of_ne_nil hne] at hmiddle
          rw [usesUnions_appendDeclarations hplain (by simpa using hne) hmiddle, hunions]
      rw [← hevents] at hmiddle
      refine ⟨middle, hmiddle, ?_⟩
      have hnames : (C.filter fun endpoint => !declaresClass middle endpoint.plainEvent) =
          C.filter fun endpoint => !declaresClass content endpoint.plainEvent := by
        refine List.filter_congr fun endpoint hendpoint => ?_
        have hanswers := hsame middle hmiddle endpoint hendpoint
        unfold SourceFile.answers at hanswers
        rw [hstyle, hunions] at hanswers
        rw [(List.cons.inj hanswers).1]
      rw [extendEvents_eq, hstyle, if_neg (by decide), hnames]
      exact hresult

/-- The state may be extended in batches, in both styles. -/
theorem extendState_append (hfeature : feature.Plain) (hB : ∀ endpoint ∈ B, endpoint.Plain)
    (hsame : ∀ middle, extendState feature content B = .ok middle → ∀ endpoint ∈ C,
      SourceFile.state.answers feature middle endpoint =
        SourceFile.state.answers feature content endpoint)
    (h : extendState feature content (B ++ C) = .ok result) :
    ∃ middle, extendState feature content B = .ok middle ∧
      extendState feature middle C = .ok result := by
  cases hunions : usesUnions content with
  | true =>
      have hstates := fun endpoints => extendState_eq feature content endpoints
      simp only [hunions, if_true] at hstates
      rw [hstates, lacking_append] at h
      obtain ⟨middle, hmiddle, hresult⟩ := completeWith_append (fun hne _ hinsert =>
        insert_fields_append (fun endpoint hmem => hB endpoint (mem_of_mem_lacking hmem)) hne
          hinsert) h
      have hstyle : usesUnions middle = true := by
        by_cases hne : lacking content Endpoint.stateField B = []
        · rw [hne] at hmiddle
          rwa [← Except.ok.inj hmiddle]
        · rw [completeWith_of_ne_nil hne] at hmiddle
          obtain ⟨a, b, rfl, hcut, rfl⟩ := exists_cut_of_insertAfterLast hmiddle
          exact usesUnions_insert (.inl hcut.breaksLine_stateFields) hunions
      rw [← hstates] at hmiddle
      refine ⟨middle, hmiddle, ?_⟩
      have hnames : ∀ endpoint ∈ C,
          hasMember middle endpoint.stateField = hasMember content endpoint.stateField := by
        intro endpoint hendpoint
        have hanswers := hsame middle hmiddle endpoint hendpoint
        unfold SourceFile.answers at hanswers
        rw [hstyle, hunions] at hanswers
        exact (List.cons.inj hanswers).1
      rw [extendState_eq, hstyle, if_pos rfl, lacking_congr hnames]
      exact hresult
  | false =>
      have hstates := fun endpoints => extendState_eq feature content endpoints
      simp only [hunions, Bool.false_eq_true, if_false] at hstates
      rw [hstates, List.flatMap_append, List.filter_append] at h
      have hplain : ∀ declaration ∈ ((B.flatMap (plainStates feature)).filter fun state =>
          !declaresClass content state.1).map (·.2), PlainDeclaration declaration := by
        intro declaration hmem
        obtain ⟨state, hstate, rfl⟩ := List.mem_map.1 hmem
        obtain ⟨endpoint, hendpoint, hstate⟩ := List.mem_flatMap.1 (List.mem_of_mem_filter hstate)
        exact plainDeclaration_states hfeature (hB endpoint hendpoint) state hstate
      obtain ⟨middle, hmiddle, hresult⟩ := completeWith_append (fun hne hne' hinsert => by
        rw [List.map_append] at hinsert
        exact appendDeclarations_append (fun declaration hmem => (hplain declaration hmem).closed)
          (by simpa using hne) (by simpa using hne') hinsert) h
      have hstyle : usesUnions middle = false := by
        by_cases hne : ((B.flatMap (plainStates feature)).filter fun state =>
            !declaresClass content state.1) = []
        · rw [hne] at hmiddle
          rwa [← Except.ok.inj hmiddle]
        · rw [completeWith_of_ne_nil hne] at hmiddle
          rw [usesUnions_appendDeclarations hplain (by simpa using hne) hmiddle, hunions]
      rw [← hstates] at hmiddle
      refine ⟨middle, hmiddle, ?_⟩
      have hnames : ((C.flatMap (plainStates feature)).filter fun state =>
          !declaresClass middle state.1) = (C.flatMap (plainStates feature)).filter fun state =>
            !declaresClass content state.1 := by
        refine List.filter_congr fun state hstate => ?_
        obtain ⟨endpoint, hendpoint, hstate⟩ := List.mem_flatMap.1 hstate
        have hanswers := hsame middle hmiddle endpoint hendpoint
        unfold SourceFile.answers at hanswers
        rw [hstyle, hunions] at hanswers
        simp only [Bool.false_eq_true, if_false] at hanswers
        rw [List.map_inj_left.1 hanswers state hstate]
      rw [extendState_eq, hstyle, if_neg (by decide), hnames]
      exact hresult

/-- A settled bloc may be extended in batches, in both styles. -/
theorem extendBloc_append (hfeature : feature.Plain) (hB : ∀ endpoint ∈ B, endpoint.Plain)
    (hC : ∀ endpoint ∈ C, endpoint.Plain) (hnames : ∀ endpoint ∈ B, endpoint.methodName ≠ [])
    (htidy : TidyImports content) (hsettled : SourceFile.bloc.Settled feature content)
    (hsame : ∀ middle, extendBloc feature content B = .ok middle → ∀ endpoint ∈ C,
      SourceFile.bloc.answers feature middle endpoint =
        SourceFile.bloc.answers feature content endpoint)
    (h : extendBloc feature content (B ++ C) = .ok result) :
    ∃ middle, extendBloc feature content B = .ok middle ∧
      extendBloc feature middle C = .ok result := by
  have hnew : ∀ endpoint ∈ lacking content (BlocStyle.ofContent content).handlerName B,
      endpoint.Plain := fun endpoint hmem => hB endpoint (mem_of_mem_lacking hmem)
  rw [extendBloc_eq_completeWith, lacking_append] at h
  obtain ⟨middle, hmiddle, hresult⟩ := completeWith_append (fun hne hne' =>
    BlocStyle.insert_append hfeature hnew
      (fun endpoint hmem => hC endpoint (mem_of_mem_lacking hmem))
      (fun endpoint hmem => hnames endpoint (mem_of_mem_lacking hmem)) hne hne' htidy hsettled) h
  -- the bloc has kept its style
  have hstyle : BlocStyle.ofContent middle = BlocStyle.ofContent content := by
    by_cases hne : lacking content (BlocStyle.ofContent content).handlerName B = []
    · rw [hne] at hmiddle
      rw [Except.ok.inj hmiddle]
    · rw [completeWith_of_ne_nil hne] at hmiddle
      exact BlocStyle.ofContent_insert hfeature hnew hne rfl hmiddle
  rw [← extendBloc_eq_completeWith] at hmiddle
  refine ⟨middle, hmiddle, ?_⟩
  have hnames : ∀ endpoint ∈ C, hasMember middle ((BlocStyle.ofContent content).handlerName endpoint) =
      hasMember content ((BlocStyle.ofContent content).handlerName endpoint) := by
    intro endpoint hendpoint
    have hanswers := hsame middle hmiddle endpoint hendpoint
    unfold SourceFile.answers at hanswers
    rw [hstyle] at hanswers
    exact (List.cons.inj hanswers).1
  rw [extendBloc_eq_completeWith, hstyle, lacking_congr hnames]
  exact hresult

/-- Endpoints may be added to a file in batches: if they can be added all at once, the first ones
can be added and then the others, and the file is the same. -/
theorem SourceFile.extend_append (hfeature : feature.Plain)
    (hB : ∀ endpoint ∈ B, endpoint.Quiet) (hC : ∀ endpoint ∈ C, endpoint.Quiet)
    (hnames : ∀ endpoint ∈ B, endpoint.methodName ≠ []) (htidy : TidyImports content)
    (hstart : content.head? ≠ some '\x7d') (hsettled : source.Settled feature content)
    (hsame : ∀ middle, (source.part feature B).extend content = .ok middle → ∀ endpoint ∈ C,
      source.answers feature middle endpoint = source.answers feature content endpoint)
    (h : (source.part feature (B ++ C)).extend content = .ok result) :
    ∃ middle, (source.part feature B).extend content = .ok middle ∧
      (source.part feature C).extend middle = .ok result := by
  have hplainB : ∀ endpoint ∈ B, endpoint.Plain := fun endpoint hmem => (hB endpoint hmem).toPlain
  have hplainC : ∀ endpoint ∈ C, endpoint.Plain := fun endpoint hmem => (hC endpoint hmem).toPlain
  cases source with
  | ofClass file =>
      exact ClassFile.extend_batches hfeature hB hC htidy hstart (fun middle hmiddle endpoint hmem =>
        (List.cons.inj (hsame middle hmiddle endpoint hmem)).1) h
  | event => exact extendEvents_append hfeature hplainB hsame h
  | state => exact extendState_append hfeature hplainB hsame h
  | bloc => exact extendBloc_append hfeature hplainB hplainC hnames htidy hsettled hsame h

/-! ## Files by hand -/

/-- What the two cuts of a text say of its bloc. -/
theorem BlocStyle.settled_of_eq {style : BlocStyle} {a b s q : Text}
    (hcut : style.anchor.splitAfterLast? true 0 content = some (a, b))
    (hends : splitClassEnd content feature.blocClass = .ok (a ++ s, q)) (hinner : style.anchor.Cut a s)
    (hline : style = plain → Text.Avoids importToken (lineAt a b)) : style.Settled feature content := by
  intro a' b' p' q' heq hcut' hends'
  subst heq
  unfold Anchor.Cut at hcut'
  rw [hcut] at hcut'
  obtain ⟨rfl, rfl⟩ := Prod.mk.inj (Option.some.inj hcut')
  rw [hends] at hends'
  obtain ⟨rfl, -⟩ := Prod.mk.inj (Except.ok.inj hends')
  exact ⟨⟨s, rfl, hinner⟩, hline⟩

/-- The feature whose bloc is extended below. -/
def newsFeature : Feature := ⟨"shop", "news", "model"⟩

/-- A request without a model. -/
def readEndpoint : Endpoint where
  path := "/news/new"
  method := "get"
  operationId := some "read"

/-- A request whose answer has a model. -/
def listEndpoint : Endpoint where
  path := "/news"
  method := "get"
  operationId := some "list"
  responses := [("200", { schema := some [(.text "type", .scalar (.text "object"))] })]

/-- A bloc with the given lines. -/
def blocByHand (rows : List Text) : Text :=
  Text.lines ("class NewsBloc \x7b" :: rows)

/-- The feature is named by ASCII words. -/
theorem newsFeature_plain : newsFeature.Plain := ⟨by decide, by decide, by decide⟩

/-- The request without a model writes nothing that is taken for an import. -/
theorem readEndpoint_quiet : readEndpoint.Quiet where
  method_mem := by decide
  type_mem := by decide
  methodName := by decide
  parameterName := by decide
  path_quote := by decide
  path_package := by decide +kernel

/-- The request with a model writes nothing that is taken for an import. -/
theorem listEndpoint_quiet : listEndpoint.Quiet where
  method_mem := by decide
  type_mem := by decide
  methodName := by decide
  parameterName := by decide
  path_quote := by decide
  path_package := by decide +kernel

/-- A document has the request without a model. -/
theorem readEndpoint_extracted : Extracted readEndpoint := by
  refine ⟨.map [(.text "paths", .map [(.text "/news/new", .map [(.text "get",
    .map [(.text "operationId", .scalar (.text "read"))])])])], _, rfl, ?_⟩
  exact List.mem_singleton.2 rfl

/-- A document has the request with a model. -/
theorem listEndpoint_extracted : Extracted listEndpoint := by
  refine ⟨.map [(.text "paths", .map [(.text "/news", .map [(.text "get",
    .map [(.text "operationId", .scalar (.text "list")),
      (.text "responses", .map [(.text "200", .map [(.text "content",
        .map [(.text "application/json", .map [(.text "schema",
          .map [(.text "type", .scalar (.text "object"))])])])])])])])])], _, rfl, ?_⟩
  exact List.mem_singleton.2 rfl

/-- What succeeds has a result. -/
theorem exists_of_isOk {answer : Except MissingAnchor Text} (h : answer.isOk = true) :
    ∃ result, answer = .ok result := by
  cases answer with
  | ok result => exact ⟨result, rfl⟩
  | error e => cases h

/-- A bloc by hand with one registration. -/
def oldBloc : Text := blocByHand ["  on<Old>(old);", "\x7d"]

/-- The bloc up to its registration. -/
def oldFront : Text := "class NewsBloc \x7b\n  on<Old>(old);"

/-- A bloc whose registration names the text that starts an import. -/
def quotingBloc : Text := blocByHand ["  on<Old>(old('import '));", "\x7d"]

/-- A bloc that ends right behind what looks like a registration. -/
def closingBloc : Text := blocByHand ["  on<Old>(old);", "  on<Last>(last);\x7d"]

/-- The first bloc is settled: it is cut behind its registration, and nothing on the lines around is
an import. -/
theorem oldBloc_settled : SourceFile.bloc.Settled newsFeature oldBloc := by
  refine BlocStyle.settled_of_eq (a := oldFront) (b := "\n\x7d\n") (s := "\n") (q := "\x7d\n")
    ?_ ?_ ?_ fun _ => ?_
  · decide +kernel
  · decide +kernel
  · unfold Anchor.Cut
    decide +kernel
  · decide +kernel

/-- The two requests can be added to the blocs, and the first one does not answer the search for the
second one. Two of the blocs are not the same when it comes later. -/
theorem extend_byHand :
    (∀ content ∈ [oldBloc, quotingBloc, closingBloc],
      ((SourceFile.bloc.part newsFeature ([readEndpoint] ++ [listEndpoint])).extend content).isOk ∧
      ((SourceFile.bloc.part newsFeature [readEndpoint]).extend content).toOption.all
        (fun middle => decide (SourceFile.bloc.answers newsFeature middle listEndpoint =
          SourceFile.bloc.answers newsFeature content listEndpoint)) = true) ∧
    ∀ content ∈ [quotingBloc, closingBloc],
      ((SourceFile.bloc.part newsFeature [readEndpoint]).extend content >>=
          (SourceFile.bloc.part newsFeature [listEndpoint]).extend) ≠
        (SourceFile.bloc.part newsFeature ([readEndpoint] ++ [listEndpoint])).extend content := by
  decide +kernel

/-- The imports of all three blocs are in order. -/
theorem tidyImports_byHand : ∀ content ∈ [oldBloc, quotingBloc, closingBloc],
    TidyImports content ∧ content.head? ≠ some '\x7d' := by
  unfold TidyImports
  decide +kernel

/-- The first endpoint brings none of the second one's members into the three blocs. -/
theorem answers_byHand (hmem : content ∈ [oldBloc, quotingBloc, closingBloc]) (middle : Text)
    (h : (SourceFile.bloc.part newsFeature [readEndpoint]).extend content = .ok middle) :
    ∀ endpoint ∈ [listEndpoint], SourceFile.bloc.answers newsFeature middle endpoint =
      SourceFile.bloc.answers newsFeature content endpoint := by
  have hall := (extend_byHand.1 content hmem).2
  rw [h] at hall
  exact List.forall_mem_singleton.2 (of_decide_eq_true hall)

/-- A bloc by hand, extended by one request and then by another one. -/
theorem extend_append_byHand :
    ∃ result middle, (SourceFile.bloc.part newsFeature ([readEndpoint] ++ [listEndpoint])).extend
        oldBloc = .ok result ∧
      (SourceFile.bloc.part newsFeature [readEndpoint]).extend oldBloc = .ok middle ∧
      (SourceFile.bloc.part newsFeature [listEndpoint]).extend middle = .ok result := by
  have hmem : oldBloc ∈ [oldBloc, quotingBloc, closingBloc] := List.mem_cons_self
  obtain ⟨htidy, hstart⟩ := tidyImports_byHand oldBloc hmem
  obtain ⟨result, hresult⟩ := exists_of_isOk (extend_byHand.1 oldBloc hmem).1
  obtain ⟨middle, hmiddle, hnext⟩ := SourceFile.extend_append newsFeature_plain
    (List.forall_mem_singleton.2 readEndpoint_quiet)
    (List.forall_mem_singleton.2 listEndpoint_quiet) (List.forall_mem_singleton.2 (by decide))
    htidy hstart oldBloc_settled (answers_byHand hmem) hresult
  exact ⟨result, middle, hresult, hmiddle, hnext⟩

/-- In these two blocs a second batch is put elsewhere than it is together with the first one,
though their imports are tidy, nothing new is taken for present and the class ends behind the last
registration. -/
theorem extend_append_fails :
    (newsFeature.Plain ∧ (∀ endpoint ∈ [readEndpoint, listEndpoint],
      Extracted endpoint ∧ endpoint.Quiet ∧ '"' ∉ endpoint.path ∧ endpoint.methodName ≠ []) ∧
      readEndpoint.methodName ≠ listEndpoint.methodName) ∧
    ∀ content ∈ [quotingBloc, closingBloc],
      (TidyImports content ∧ content.head? ≠ some '\x7d' ∧
        (∀ middle, (SourceFile.bloc.part newsFeature [readEndpoint]).extend content = .ok middle →
          ∀ endpoint ∈ [listEndpoint], SourceFile.bloc.answers newsFeature middle endpoint =
            SourceFile.bloc.answers newsFeature content endpoint) ∧
        ∃ a s q, (BlocStyle.ofContent content).anchor.Cut a (s ++ q) ∧
          splitClassEnd content newsFeature.blocClass = .ok (a ++ s, q)) ∧
      ((SourceFile.bloc.part newsFeature ([readEndpoint] ++ [listEndpoint])).extend content).isOk ∧
      ((SourceFile.bloc.part newsFeature [readEndpoint]).extend content >>=
          (SourceFile.bloc.part newsFeature [listEndpoint]).extend) ≠
        (SourceFile.bloc.part newsFeature ([readEndpoint] ++ [listEndpoint])).extend content := by
  refine ⟨⟨newsFeature_plain, ?_, by decide⟩, fun content hcontent => ?_⟩
  · exact List.forall_mem_cons.2 ⟨⟨readEndpoint_extracted, readEndpoint_quiet, by decide, by decide⟩,
      List.forall_mem_singleton.2 ⟨listEndpoint_extracted, listEndpoint_quiet, by decide, by decide⟩⟩
  have hmem : content ∈ [oldBloc, quotingBloc, closingBloc] := List.mem_cons_of_mem _ hcontent
  obtain ⟨htidy, hstart⟩ := tidyImports_byHand content hmem
  refine ⟨⟨htidy, hstart, answers_byHand hmem, ?_⟩, (extend_byHand.1 content hmem).1,
    extend_byHand.2 content hcontent⟩
  -- where the last registration and the class end
  obtain rfl | rfl : content = quotingBloc ∨ content = closingBloc := by simpa using hcontent
  · refine ⟨"class NewsBloc \x7b\n  on<Old>(old('import '));", "\n", "\x7d\n", ?_, ?_⟩
    · unfold Anchor.Cut
      decide +kernel
    · decide +kernel
  · refine ⟨oldFront, "\n  on<Last>(last);", "\x7d\n", ?_, ?_⟩
    · unfold Anchor.Cut
      decide +kernel
    · decide +kernel

end Scaffold
