import Scaffold.Proofs.Dart.MemberNames

/-!
# Names that generated files declare

Each generated file declares the names of its endpoints, one for each, and nothing else
(`ClassFile.declared_render`, `declared_renderEvent`, `declared_renderState`,
`declared_renderBloc`).
-/

namespace Scaffold

open MemberKind

variable {feature : Feature} {endpoint : Endpoint} {endpoints : List Endpoint} {kind : MemberKind}

/-! ## Openings -/

/-- A line with the feature's name between two literals. -/
theorem Feature.Lined.flush_name (h : feature.Lined) {c : Char} {start last : List Char}
    (hc : c ≠ ' ') (hstart : '\n' ∉ c :: start) (hlast : Text.Avoids "  " last) :
    Flush ((String.ofList (c :: start) : Text) ++ feature.name ++ (String.ofList last : Text)) := by
  rw [String.toList_ofList, String.toList_ofList, List.append_assoc]
  refine Flush.of_append (fun hpre => ?_) hstart ?_
  · obtain ⟨more, hmore⟩ := hpre
    exact hc (List.cons.inj hmore).1.symm
  · refine Text.Avoids.append_of_last (Text.avoids_of_not_mem (c := ' ') (by decide) ?_) hlast ?_
    · exact h.not_mem_name (by decide) (by decide)
    · intro c hc hblank
      have hmem := List.mem_of_getLast? hc
      have hc : c = ' ' := by
        revert hblank
        simp
      exact h.not_mem_name (by decide) (by decide) (hc ▸ hmem)

/-- Lines that declare nothing make a text that declares nothing. -/
theorem declared_lines_eq_nil {lines : List Text} (h : ∀ line ∈ lines, kind.declared line = []) :
    kind.declared (Text.lines lines) = [] := by
  rw [declared_lines, List.flatMap_eq_nil_iff]
  exact h

/-- A line that declares nothing makes a text that declares nothing. -/
theorem declared_of_line {line : Text} (h : '\n' ∉ line) (hline : kind.declared? line = none) :
    kind.declared line = [] := by
  rw [declared_line h, hline]
  rfl

/-- An ASCII word breaks no line and opens no type. -/
theorem not_mem_of_word {text : Text} (h : AsciiWordy text) : '\n' ∉ text ∧ '<' ∉ text :=
  ⟨h.wordy.not_mem (by decide) (by decide), h.wordy.not_mem (by decide) (by decide)⟩

/-- The head of an implementation declares no method. -/
theorem declared_implementation {interface parameter field : Text} (hinterface : AsciiWordy interface)
    (hparameter : AsciiWordy parameter) (hfield : AsciiWordy field) :
    method.declared (ClassFile.implementation interface parameter field) = [] := by
  obtain ⟨hbreak, hangle⟩ := not_mem_of_word hinterface
  obtain ⟨hbreak', -⟩ := not_mem_of_word hparameter
  obtain ⟨hbreak'', hangle''⟩ := not_mem_of_word hfield
  have hcreate : '\n' ∉ "  " ++ interface ++ "Impl(this." ++ field ++ ");" ∧
      '<' ∉ "  " ++ interface ++ "Impl(this." ++ field ++ ");" := by
    repeat rw [String.toList_ofList]
    simp only [List.mem_append, not_or]
    exact ⟨⟨⟨⟨⟨by decide, hbreak⟩, by decide⟩, hbreak''⟩, by decide⟩,
      ⟨⟨⟨by decide, hangle⟩, by decide⟩, hangle''⟩, by decide⟩
  have hmark : '\n' ∉ "@Injectable(as: " ++ interface ++ ")" := by
    repeat rw [String.toList_ofList]
    simp only [List.mem_append, not_or]
    exact ⟨⟨by decide, hbreak⟩, by decide⟩
  have hclass : '\n' ∉ "class " ++ interface ++ "Impl implements " ++ interface ++ " \x7b" := by
    repeat rw [String.toList_ofList]
    simp only [List.mem_append, not_or]
    exact ⟨⟨⟨⟨by decide, hbreak⟩, by decide⟩, hbreak⟩, by decide⟩
  have hfinal : '\n' ∉ "  final " ++ parameter ++ " " ++ field ++ ";" := by
    repeat rw [String.toList_ofList]
    simp only [List.mem_append, not_or]
    exact ⟨⟨⟨⟨by decide, hbreak'⟩, by decide⟩, hbreak''⟩, by decide⟩
  refine declared_lines_eq_nil ?_
  simp only [List.forall_mem_cons]
  exact ⟨declared_of_line hmark rfl, declared_of_line hclass rfl,
    declared_of_line hcreate.1 (declared?_of_not_mem (by decide) hcreate.2), declared_nil method,
    declared_of_line hfinal rfl, declared_nil method, List.forall_mem_nil _⟩

/-- The opening of a class file declares no method. -/
theorem ClassFile.declared_opening (file : ClassFile) (h : feature.Lined) :
    method.declared (file.opening feature) = [] := by
  have hword : ∀ {name : Text}, AsciiWordy name → '\n' ∉ name := fun h => (not_mem_of_word h).1
  have hclass : ∀ {name : Text}, AsciiWordy name →
      method.declared ("abstract class " ++ name ++ " \x7b") = [] := by
    intro name hname
    refine declared_of_line ?_ rfl
    repeat rw [String.toList_ofList]
    simp only [List.mem_append, not_or]
    exact ⟨⟨by decide, hword hname⟩, by decide⟩
  have hname : ∀ {ending : Text}, AsciiWordy ending → AsciiWordy (feature.pascal ++ ending) :=
    fun hending => h.pascal.append hending
  cases file with
  | service =>
      have hfactory : '\n' ∉ "  factory " ++ feature.serviceClass ++ "(Dio dio) = _" ++
          feature.serviceClass ++ ";" := by
        have hservice := hword (hname (by decide : AsciiWordy "RemoteService"))
        repeat rw [String.toList_ofList]
        simp only [List.mem_append, not_or]
        exact ⟨⟨⟨⟨by decide, hservice⟩, by decide⟩, hservice⟩, by decide⟩
      refine declared_lines_eq_nil ?_
      simp only [List.forall_mem_cons]
      exact ⟨(h.flush_name (by decide) (by decide) (by decide)).declares method, declared_nil method,
        (h.flush_name (by decide) (by decide) (by decide)).declares method, by decide, by decide,
        hclass (hname (by decide)), by decide, declared_of_line hfactory rfl, declared_nil method,
        List.forall_mem_nil _⟩
  | source =>
      refine declared_lines_eq_nil ?_
      simp only [List.forall_mem_cons]
      exact ⟨(h.flush_name (by decide) (by decide) (by decide)).declares method,
        hclass (hname (by decide)), List.forall_mem_nil _⟩
  | sourceImpl =>
      exact declared_implementation (hname (by decide)) (hname (by decide))
        (h.camel.append (by decide))
  | repositoryImpl =>
      exact declared_implementation (hname (by decide)) (hname (by decide)) (by decide)
  | repository =>
      refine declared_lines_eq_nil ?_
      simp only [List.forall_mem_cons]
      exact ⟨(h.flush_name (by decide) (by decide) (by decide)).declares method,
        hclass (hname (by decide)), List.forall_mem_nil _⟩
  | useCases =>
      obtain ⟨hbreak, hangle⟩ := not_mem_of_word (hname (by decide : AsciiWordy "UseCases"))
      have hcreate : '\n' ∉ "  " ++ feature.useCasesClass ++ "(this.repository);" ∧
          '<' ∉ "  " ++ feature.useCasesClass ++ "(this.repository);" := by
        repeat rw [String.toList_ofList]
        simp only [List.mem_append, not_or]
        exact ⟨⟨⟨by decide, hbreak⟩, by decide⟩, ⟨by decide, hangle⟩, by decide⟩
      have hopen : '\n' ∉ "class " ++ feature.useCasesClass ++ " \x7b" := by
        repeat rw [String.toList_ofList]
        simp only [List.mem_append, not_or]
        exact ⟨⟨by decide, hbreak⟩, by decide⟩
      have hfinal : '\n' ∉ "  final " ++ feature.repositoryClass ++ " repository;" := by
        repeat rw [String.toList_ofList]
        simp only [List.mem_append, not_or]
        exact ⟨⟨by decide, hword (hname (by decide))⟩, by decide⟩
      refine declared_lines_eq_nil ?_
      simp only [List.forall_mem_cons]
      exact ⟨by decide, declared_of_line hopen rfl,
        declared_of_line hcreate.1 (declared?_of_not_mem (by decide) hcreate.2),
        declared_nil method, declared_of_line hfinal rfl, declared_nil method,
        List.forall_mem_nil _⟩

/-! ## Class files -/

/-- The end of every generated file. -/
theorem declared_close (kind : MemberKind) (front : Text) :
    kind.declared (front ++ "\n\x7d\n") = kind.declared front := by
  have hclose : ("\n\x7d\n" : Text) = '\n' :: ("\x7d" ++ '\n' :: []) := rfl
  have hbrace : kind.declared? "\x7d" = none := by
    cases kind <;> rfl
  rw [hclose, declared_break, declared_skip (by decide) hbrace, declared_nil, List.append_nil]

/-- All that a class file imports has paths of imports. -/
theorem ClassFile.importPaths (file : ClassFile) (h : feature.Lined)
    (hlined : ∀ endpoint ∈ endpoints, endpoint.Lined) :
    ∀ path ∈ file.imports feature endpoints, IsImportPath path := by
  intro path hpath
  rcases List.mem_append.1 (List.mem_eraseDups.1 hpath) with hpath | hpath
  · exact h.importPath_fixed file path hpath
  · exact h.importPath_model hlined path hpath

/-- A class file declares the methods of its endpoints. -/
theorem ClassFile.declared_render (file : ClassFile) (h : feature.Lined)
    (hlined : ∀ endpoint ∈ endpoints, endpoint.Lined) :
    method.declared (file.render feature endpoints) = endpoints.map (·.methodName) := by
  have hopening : (file.opening feature).getLast? = some '\n' ∧
      method.declared (file.opening feature) = [] := by
    refine ⟨?_, file.declared_opening h⟩
    cases file with
    | sourceImpl => exact Text.getLast?_lines (List.cons_ne_nil _ _)
    | repositoryImpl => exact Text.getLast?_lines (List.cons_ne_nil _ _)
    | _ => exact Text.getLast?_lines (List.cons_ne_nil _ _)
  have hmembers : (endpoints.map fun endpoint => file.member feature endpoint).flatMap
      method.declared = endpoints.map (·.methodName) := by
    rw [List.flatMap_map, ← List.flatMap_pure_eq_map]
    exact List.flatMap_congr fun endpoint hendpoint =>
      file.declared_member h (hlined endpoint hendpoint)
  unfold render
  rw [declared_close, List.append_assoc, declared_importBlock (file.importPaths h hlined),
    declared_append_of_break hopening.1, hopening.2, declared_join (.inr rfl), hmembers,
    List.nil_append]

/-! ## Names of members -/

/-- The event is named by a word. -/
theorem isWord_eventName (h : endpoint.Lined) : IsWord endpoint.eventName :=
  ⟨List.append_ne_nil_of_right_ne_nil _ (by decide),
    List.forall_mem_append.2 ⟨h.name.word, by decide⟩⟩

/-- The field of the state is named by a word. -/
theorem isWord_stateField (h : endpoint.Lined) : IsWord endpoint.stateField :=
  ⟨List.append_ne_nil_of_right_ne_nil _ (by decide),
    List.forall_mem_append.2 ⟨h.name.word, by decide⟩⟩

/-- The handler is named by a word. -/
theorem isWord_handlerName (h : endpoint.Lined) : IsWord endpoint.handlerName :=
  ⟨List.append_ne_nil_of_left_ne_nil (by decide : ("_" : Text) ≠ []) _, List.forall_mem_append.2
    ⟨(by decide : ∀ c ∈ ("_" : Text), isWordChar c = true), h.name.word⟩⟩

/-! ## Events -/

/-- The opening of a part of the bloc file declares nothing. -/
theorem declared_partOpening (kind : MemberKind) (h : feature.Lined) {className : Text}
    (hclass : AsciiWordy className) (rest : Text) :
    kind.declared (partOpening feature className ++ rest) = kind.declared rest := by
  have hbreak := (not_mem_of_word hclass).1
  have hline : '\n' ∉ "class " ++ className ++ " with _$" ++ className ++ " \x7b" := by
    repeat rw [String.toList_ofList]
    simp only [List.mem_append, not_or]
    exact ⟨⟨⟨⟨by decide, hbreak⟩, by decide⟩, hbreak⟩, by decide⟩
  have hnone : kind.declared? ("class " ++ className ++ " with _$" ++ className ++ " \x7b") = none := by
    cases kind <;> rfl
  have hmark : kind.declared "@freezed" = [] := by
    cases kind <;> decide
  have hopening : kind.declared (partOpening feature className) = [] := by
    refine declared_lines_eq_nil ?_
    simp only [List.forall_mem_cons]
    exact ⟨(h.flush_name (by decide) (by decide) (by decide)).declares kind, declared_nil kind, hmark,
      declared_of_line hline hnone, List.forall_mem_nil _⟩
  have hlast : (partOpening feature className).getLast? = some '\n' := Text.getLast?_lines (List.cons_ne_nil _ _)
  rw [declared_append_of_break hlast, hopening, List.nil_append]

/-- The case of an event declares the event. -/
theorem declared_eventCase (hfeature : feature.Lined) (h : endpoint.Lined) :
    event.declared (eventCase feature endpoint) = [endpoint.eventName] := by
  -- the name declared is the last word in front of the mark, which stands behind a dot
  have hclass : AsciiWordy feature.eventClass := hfeature.pascal.append (by decide)
  have hevent := isWord_eventName h
  have hhead : ∀ c ∈ feature.eventClass ++ "." ++ endpoint.eventName, event.stops c = false := by
    have hdot : ∀ c ∈ (".".toList : Text), event.stops c = false := by decide
    exact List.forall_mem_append.2
      ⟨List.forall_mem_append.2 ⟨hclass.wordy.head event, hdot⟩, hevent.wordy.head event⟩
  have hlast : lastWord (feature.eventClass ++ "." ++ endpoint.eventName) = endpoint.eventName := by
    rw [List.append_assoc]
    exact lastWord_append (by decide) hevent.word
  have htext : eventCase feature endpoint = event.lead ++ ((feature.eventClass ++ "." ++
      endpoint.eventName) ++ (event.mark ++ (endpoint.namedParameters ++ (") = " ++
        (endpoint.eventName.pascal ++ ";"))))) := by
    unfold eventCase
    simp only [List.append_assoc]
    rfl
  have hline : Consists isLineChar (eventCase feature endpoint) :=
    consists_eventCase h.fills hclass.wordy.line h.namedParameters h.pascal
  rw [declared_line (hline.not_mem (by decide)), htext, declared?_eq hhead, hlast]
  rfl

/-- The file of the events declares one event for each endpoint. -/
theorem declared_renderEvent (h : feature.Lined)
    (hlined : ∀ endpoint ∈ endpoints, endpoint.Lined) :
    event.declared (renderEvent feature endpoints) = endpoints.map (·.eventName) := by
  have hclass : AsciiWordy feature.eventClass := h.pascal.append (by decide)
  unfold renderEvent
  rw [declared_close, declared_partOpening event h hclass,
    declared_join (.inr rfl), List.flatMap_map, ← List.flatMap_pure_eq_map]
  exact List.flatMap_congr fun endpoint hendpoint =>
    declared_eventCase h (hlined endpoint hendpoint)

/-! ## The state -/

/-- A field of the state declares its name. -/
theorem declared_stateField (h : endpoint.Lined) :
    field.declared (stateField endpoint) = [endpoint.stateField] := by
  have hname := isWord_stateField h
  have htype : ∀ c ∈ stateFieldType endpoint, field.stops c = false := by
    have hoptional : ∀ c ∈ ("?".toList : Text), field.stops c = false := by decide
    unfold stateFieldType
    split
    · exact h.returnType.head field
    · exact List.forall_mem_append.2 ⟨h.returnType.head field, hoptional⟩
  have hhead : ∀ c ∈ "null) " ++ stateFieldType endpoint ++ " " ++ endpoint.stateField,
      field.stops c = false := by
    have hopen : ∀ c ∈ ("null) ".toList : Text), field.stops c = false := by decide
    have hblank : ∀ c ∈ (" ".toList : Text), field.stops c = false := by decide
    exact List.forall_mem_append.2 ⟨List.forall_mem_append.2 ⟨List.forall_mem_append.2
      ⟨hopen, htype⟩, hblank⟩, hname.wordy.head field⟩
  have hlast : lastWord ("null) " ++ stateFieldType endpoint ++ " " ++ endpoint.stateField) =
      endpoint.stateField := by
    rw [List.append_assoc]
    exact lastWord_append (by decide) hname.word
  have htext : stateField endpoint = field.lead ++ (("null) " ++ stateFieldType endpoint ++ " " ++
      endpoint.stateField) ++ (field.mark ++ ([] : Text))) := by
    unfold stateField
    simp only [List.append_assoc]
    rfl
  have hline : Consists isLineChar (stateField endpoint) := consists_stateField h.fills
  rw [declared_line (hline.not_mem (by decide)), htext, declared?_eq hhead, hlast]
  rfl

/-- The fields that every state has. -/
def commonFieldNames : List Text := ["isLoading", "error"]

/-- The file of the state declares the common fields and one field for each endpoint. -/
theorem declared_renderState (h : feature.Lined)
    (hlined : ∀ endpoint ∈ endpoints, endpoint.Lined) :
    field.declared (renderState feature endpoints) =
      commonFieldNames ++ endpoints.map (·.stateField) := by
  have hclass : AsciiWordy feature.stateClass := h.pascal.append (by decide)
  have hbreak := (not_mem_of_word hclass).1
  have hopen : '\n' ∉ "  const factory " ++ feature.stateClass ++ "(\x7b" := by
    repeat rw [String.toList_ofList]
    simp only [List.mem_append, not_or]
    exact ⟨⟨by decide, hbreak⟩, by decide⟩
  have hend : '\n' ∉ "  \x7d) = _" ++ feature.stateClass ++ ";" := by
    repeat rw [String.toList_ofList]
    simp only [List.mem_append, not_or]
    exact ⟨⟨by decide, hbreak⟩, by decide⟩
  -- the opening, the line of the factory, the fields, and the line that closes it
  have htext : renderState feature endpoints = partOpening feature feature.stateClass ++
      (("  const factory " ++ feature.stateClass ++ "(\x7b") ++ '\n' ::
        (Text.join "\n" (commonStateFields ++ endpoints.map stateField) ++
          '\n' :: ("  \x7d) = _" ++ feature.stateClass ++ ";"))) ++ "\n\x7d\n" := by
    have hfirst : ("(\x7b\n" : Text) = "(\x7b" ++ ['\n'] := Text.literal_append rfl
    have hlast : ("\n  \x7d) = _" : Text) = ['\n'] ++ "  \x7d) = _" := rfl
    have hclose : (";\n\x7d\n" : Text) = ";" ++ "\n\x7d\n" := Text.literal_append rfl
    unfold renderState
    rw [hfirst, hlast, hclose]
    simp -implicitDefEqProofs only [List.append_assoc, List.cons_append, List.nil_append]
  have hcommon : commonStateFields.flatMap field.declared = commonFieldNames := by
    unfold commonStateFields commonFieldNames
    repeat rw [String.toList_ofList]
    decide
  have hfields : (endpoints.map stateField).flatMap field.declared =
      endpoints.map (·.stateField) := by
    rw [List.flatMap_map, ← List.flatMap_pure_eq_map]
    exact List.flatMap_congr fun endpoint hendpoint => declared_stateField (hlined endpoint hendpoint)
  rw [htext, declared_close, declared_partOpening field h hclass, declared_skip hopen rfl,
    declared_break, declared_join (.inl rfl), List.flatMap_append, hcommon, hfields,
    declared_of_line hend rfl, List.append_nil]

/-! ## The bloc -/

/-- What a branch of the bloc declares. -/
def branchNames (kind : MemberKind) (endpoint : Endpoint) : List Text :=
  if kind = branch then [endpoint.eventName] else []

/-- What a handler of the bloc declares. -/
def handlerNames (kind : MemberKind) (endpoint : Endpoint) : List Text :=
  if kind = method then [endpoint.handlerName] else []

/-- A branch declares its event and no method. -/
theorem declared_whenCase (hkind : kind = branch ∨ kind = method) (h : endpoint.Lined) :
    kind.declared (whenCase endpoint) = branchNames kind endpoint := by
  have hname := isWord_eventName h
  have htext : whenCase endpoint = branch.lead ++ (endpoint.eventName ++ (branch.mark ++
      (endpoint.callArguments ++ (") => " ++ (endpoint.handlerName ++ ("(" ++
        (joinNonempty [endpoint.callArguments, "emit"] ++ "),"))))))) := by
    unfold whenCase
    simp only [List.append_assoc]
    rfl
  have hline : Consists isLineChar (whenCase endpoint) := consists_whenCase h.fills
  rw [declared_line (hline.not_mem (by decide)), htext]
  rcases hkind with rfl | rfl
  · rw [declared?_eq (hname.wordy.head branch), lastWord_of_word hname.word]
    rfl
  · rfl

/-- A handler declares itself and no branch: of its lines only the head declares something. -/
theorem declared_blocHandler (hkind : kind = branch ∨ kind = method) (hfeature : feature.Lined)
    (h : endpoint.Lined) :
    kind.declared (blocHandler feature endpoint) = handlerNames kind endpoint := by
  have hname := isWord_handlerName h
  have hstate : AsciiWordy feature.stateClass := hfeature.pascal.append (by decide)
  have hparameters := h.fills.handlerParameters hstate.wordy.line
  have hcall : Consists isLineChar ("    final result = await _useCases." ++ (endpoint.call ++ ";")) :=
    .append (.literal (by decide)) (h.fills.call.append (.literal (by decide)))
  have hfield : Consists isLineChar ("        " ++ (endpoint.stateField ++ ": response,")) :=
    .append (.literal (by decide)) (h.fills.stateField.append (.literal (by decide)))
  -- the head of the handler, and the lines behind it
  generalize htitle : "  Future<void> " ++ (endpoint.handlerName ++ ("(" ++
    (joinNonempty [endpoint.typedParameters, emitterParameter feature] ++ ") async \x7b"))) = title
  have htext : blocHandler feature endpoint ++ '\n' :: [] = title ++ '\n' :: (Text.lines
      ["    emit(state.copyWith(isLoading: true, error: const Error.none()));", []] ++
      (("    final result = await _useCases." ++ (endpoint.call ++ ";")) ++ '\n' :: (Text.lines
      ([[], "    result.fold(", "      (error) => emit(state.copyWith(", "        isLoading: false,",
        "        error: error,", "      )),", "      (response) => emit(state.copyWith(",
        "        isLoading: false,"] : List Text) ++ (("        " ++ (endpoint.stateField ++ ": response,")) ++
      '\n' :: (Text.lines ["        error: const Error.none(),", "      )),", "    );", "  \x7d"] ++
        []))))) := by
    rw [← htitle]
    have hasync : (") async \x7b\n" : Text) = ") async \x7b" ++ ['\n'] := Text.literal_append rfl
    have hemit : ("    emit(state.copyWith(isLoading: true, error: const Error.none()));\n" : Text) =
      "    emit(state.copyWith(isLoading: true, error: const Error.none()));" ++ ['\n'] :=
      Text.literal_append rfl
    have hbreak : ("\n" : Text) = ['\n'] := rfl
    have hend : (";\n" : Text) = ";" ++ ['\n'] := Text.literal_append rfl
    have hfold : ("    result.fold(\n" : Text) = "    result.fold(" ++ ['\n'] :=
      Text.literal_append rfl
    have herror : ("      (error) => emit(state.copyWith(\n" : Text) =
      "      (error) => emit(state.copyWith(" ++ ['\n'] := Text.literal_append rfl
    have hloading : ("        isLoading: false,\n" : Text) =
      "        isLoading: false," ++ ['\n'] := Text.literal_append rfl
    have hfailed : ("        error: error,\n" : Text) = "        error: error," ++ ['\n'] :=
      Text.literal_append rfl
    have hclose : ("      )),\n" : Text) = "      ))," ++ ['\n'] := Text.literal_append rfl
    have hresponse : ("      (response) => emit(state.copyWith(\n" : Text) =
      "      (response) => emit(state.copyWith(" ++ ['\n'] := Text.literal_append rfl
    have hvalue : (": response,\n" : Text) = ": response," ++ ['\n'] := Text.literal_append rfl
    have hnone : ("        error: const Error.none(),\n" : Text) =
      "        error: const Error.none()," ++ ['\n'] := Text.literal_append rfl
    have hdone : ("    );\n" : Text) = "    );" ++ ['\n'] := Text.literal_append rfl
    unfold blocHandler
    rw [hasync, hemit, hbreak, hend, hfold, herror, hloading, hfailed, hclose, hresponse, hvalue,
      hnone, hdone]
    simp -implicitDefEqProofs only [List.append_assoc, List.cons_append, List.nil_append, Text.lines_cons,
      Text.lines_nil, List.append_nil]
  have hlines : Consists isLineChar title := by
    rw [← htitle]
    simp only [Consists.append_iff]
    exact ⟨.literal (by decide), hname.wordy.line, .literal (by decide), hparameters,
      .literal (by decide)⟩
  have hopening : ∀ line ∈ (["    emit(state.copyWith(isLoading: true, error: const Error.none()));",
      []] : List Text), '\n' ∉ line ∧ kind.declared? line = none := by
    repeat rw [String.toList_ofList]
    rcases hkind with rfl | rfl <;> decide
  have hmiddle : ∀ line ∈ ([[], "    result.fold(", "      (error) => emit(state.copyWith(",
      "        isLoading: false,", "        error: error,", "      )),",
      "      (response) => emit(state.copyWith(", "        isLoading: false,"] : List Text),
      '\n' ∉ line ∧ kind.declared? line = none := by
    repeat rw [String.toList_ofList]
    rcases hkind with rfl | rfl <;> decide
  have hending : ∀ line ∈ (["        error: const Error.none(),", "      )),", "    );",
      "  \x7d"] : List Text), '\n' ∉ line ∧ kind.declared? line = none := by
    repeat rw [String.toList_ofList]
    rcases hkind with rfl | rfl <;> decide
  have hcallNone : kind.declared? ("    final result = await _useCases." ++ (endpoint.call ++ ";")) =
      none := by
    repeat rw [String.toList_ofList]
    rcases hkind with rfl | rfl <;> rfl
  have hfieldNone : kind.declared? ("        " ++ (endpoint.stateField ++ ": response,")) = none := by
    rcases hkind with rfl | rfl
    · exact declared?_of_not_mark ((isWord_stateField h).wordy.head branch) (by decide) (by decide)
    · rfl
  have htitleNames : (kind.declared? title).toList = handlerNames kind endpoint := by
    rw [← htitle]
    rcases hkind with rfl | rfl
    · rfl
    · have hhead : ∀ c ∈ ("void> " : Text) ++ endpoint.handlerName, method.stops c = false := by
        have hvoid : ∀ c ∈ ("void> " : Text), method.stops c = false := by decide
        exact List.forall_mem_append.2 ⟨hvoid, hname.wordy.head method⟩
      have hlast : lastWord (("void> " : Text) ++ endpoint.handlerName) = endpoint.handlerName :=
        lastWord_append (a := "void>") (by decide) hname.word
      have htitle : ("  Future<void> " : Text) ++ (endpoint.handlerName ++ ("(" ++
          (joinNonempty [endpoint.typedParameters, emitterParameter feature] ++ ") async \x7b"))) =
          method.lead ++ ((("void> " : Text) ++ endpoint.handlerName) ++ (method.mark ++
          (joinNonempty [endpoint.typedParameters, emitterParameter feature] ++ ") async \x7b"))) := by
        simp only [List.append_assoc]
        rfl
      rw [htitle, declared?_eq hhead, hlast]
      rfl
  rw [← List.append_nil (kind.declared (blocHandler feature endpoint)), ← declared_nil kind,
    ← declared_break, htext, declared_break, declared_line (hlines.not_mem (by decide)), htitleNames,
    declared_lines_append hopening, declared_skip (hcall.not_mem (by decide)) hcallNone,
    declared_lines_append hmiddle, declared_skip (hfield.not_mem (by decide)) hfieldNone,
    declared_lines_append hending, declared_nil, List.append_nil]

/-- The opening of the bloc declares neither branches nor handlers. -/
theorem declared_blocOpening (hkind : kind = branch ∨ kind = method) (h : feature.Lined) :
    kind.declared (blocOpening feature) = [] := by
  have hbloc : AsciiWordy feature.blocClass := h.pascal.append (by decide)
  have hevent : AsciiWordy feature.eventClass := h.pascal.append (by decide)
  have hstate : AsciiWordy feature.stateClass := h.pascal.append (by decide)
  have hopen : '\n' ∉ "class " ++ feature.blocClass ++ " extends Bloc<" ++ feature.eventClass ++
      ", " ++ feature.stateClass ++ "> \x7b" := by
    repeat rw [String.toList_ofList]
    simp only [List.mem_append, not_or]
    exact ⟨⟨⟨⟨⟨⟨by decide, (not_mem_of_word hbloc).1⟩, by decide⟩, (not_mem_of_word hevent).1⟩,
      by decide⟩, (not_mem_of_word hstate).1⟩, by decide⟩
  have hcreate : kind.declared ("  " ++ feature.blocClass ++ "(this._useCases) : super(const " ++
      feature.stateClass ++ "()) \x7b") = [] := by
    refine declared_of_line ?_ ?_
    · repeat rw [String.toList_ofList]
      simp only [List.mem_append, not_or]
      exact ⟨⟨⟨⟨by decide, (not_mem_of_word hbloc).1⟩, by decide⟩, (not_mem_of_word hstate).1⟩,
        by decide⟩
    · rcases hkind with rfl | rfl
      · refine declared?_of_no_lead fun hpre => ?_
        have hblank : ("      " : Text) <+: feature.blocClass ++ ("(this._useCases) : super(const " ++
            (feature.stateClass ++ "()) \x7b")) := by
          rw [List.append_assoc, List.append_assoc, List.append_assoc] at hpre
          exact (List.prefix_append_right_inj "  ".toList).1 hpre
        obtain ⟨c, rest, hcons⟩ : ∃ c rest, feature.blocClass = c :: rest :=
          List.exists_cons_of_ne_nil (List.append_ne_nil_of_right_ne_nil _ (by decide))
        rw [hcons] at hblank
        obtain ⟨more, hmore⟩ := hblank
        have hc : ' ' = c := (List.cons.inj hmore).1
        exact hbloc.wordy.not_mem (c := ' ') (by decide) (by decide)
          (by rw [hcons, hc]; exact List.mem_cons_self)
      · refine declared?_of_not_mem (c := '<') (by decide) ?_
        repeat rw [String.toList_ofList]
        simp only [List.mem_append, not_or]
        exact ⟨⟨⟨⟨by decide, (not_mem_of_word hbloc).2⟩, by decide⟩, (not_mem_of_word hstate).2⟩,
          by decide⟩
  have hregister : '\n' ∉ "    on<" ++ feature.eventClass ++ ">((event, emit) async \x7b" := by
    repeat rw [String.toList_ofList]
    simp only [List.mem_append, not_or]
    exact ⟨⟨by decide, (not_mem_of_word hevent).1⟩, by decide⟩
  refine declared_lines_eq_nil ?_
  simp only [List.forall_mem_cons]
  refine ⟨(h.flush_name (by decide) (by decide) (by decide)).declares kind,
    (h.flush_name (by decide) (by decide) (by decide)).declares kind,
    (h.flush_name (by decide) (by decide) (by decide)).declares kind, declared_nil kind,
    (Flush.of_line (by decide) (by decide)).declares kind,
    declared_of_line hopen (by rcases hkind with rfl | rfl <;> rfl), hcreate,
    declared_of_line hregister (by rcases hkind with rfl | rfl <;> rfl),
    by rcases hkind with rfl | rfl <;> decide, List.forall_mem_nil _⟩

/-- The bloc declares what its branches and its handlers declare. -/
theorem declared_renderBloc (hkind : kind = branch ∨ kind = method) (h : feature.Lined)
    (hlined : ∀ endpoint ∈ endpoints, endpoint.Lined) :
    kind.declared (renderBloc feature endpoints) =
      endpoints.flatMap (branchNames kind) ++ endpoints.flatMap (handlerNames kind) := by
  have hpaths : ∀ path ∈ blocImports feature endpoints, IsImportPath path := by
    intro path hpath
    rcases List.mem_append.1 (List.mem_eraseDups.1 hpath) with hpath | hpath
    · exact h.importPath_bloc path hpath
    · exact h.importPath_model hlined path hpath
  have huseCases : AsciiWordy feature.useCasesClass := h.pascal.append (by decide)
  have hfinal : '\n' ∉ "  final " ++ (feature.useCasesClass ++ " _useCases;") := by
    repeat rw [String.toList_ofList]
    simp only [List.mem_append, not_or]
    exact ⟨by decide, (not_mem_of_word huseCases).1, by decide⟩
  have hmiddle : blocMiddle feature = '\n' :: (Text.lines ["      );", "    \x7d);", "  \x7d", []] ++
      (("  final " ++ (feature.useCasesClass ++ " _useCases;")) ++ '\n' :: (['\n'] : Text))) := by
    have hfirst : ("\n      );\n    \x7d);\n  \x7d\n\n  final " : Text) =
      '\n' :: (Text.lines ["      );", "    \x7d);", "  \x7d", []] ++ "  final ") := by
      repeat rw [String.toList_ofList]
      rfl
    have hlast : (" _useCases;\n\n" : Text) = " _useCases;" ++ '\n' :: ['\n'] :=
      Text.literal_append rfl
    unfold blocMiddle
    rw [hfirst, hlast]
    simp -implicitDefEqProofs only [List.append_assoc, List.cons_append]
  have hlines : ∀ line ∈ (["      );", "    \x7d);", "  \x7d", []] : List Text),
      '\n' ∉ line ∧ kind.declared? line = none := by
    repeat rw [String.toList_ofList]
    rcases hkind with rfl | rfl <;> decide
  have hfinalNone : kind.declared? ("  final " ++ (feature.useCasesClass ++ " _useCases;")) = none := by
    repeat rw [String.toList_ofList]
    rcases hkind with rfl | rfl <;> rfl
  have hopening : (blocOpening feature).getLast? = some '\n' := Text.getLast?_lines (List.cons_ne_nil _ _)
  have hcases : (endpoints.map whenCase).flatMap kind.declared =
      endpoints.flatMap (branchNames kind) := by
    rw [List.flatMap_map]
    exact List.flatMap_congr fun endpoint hendpoint =>
      declared_whenCase hkind (hlined endpoint hendpoint)
  have hhandlers : (endpoints.map (blocHandler feature)).flatMap kind.declared =
      endpoints.flatMap (handlerNames kind) := by
    rw [List.flatMap_map]
    exact List.flatMap_congr fun endpoint hendpoint =>
      declared_blocHandler hkind h (hlined endpoint hendpoint)
  unfold renderBloc
  rw [declared_close]
  simp only [List.append_assoc]
  rw [declared_importBlock hpaths, declared_append_of_break hopening, declared_blocOpening hkind h,
    hmiddle, List.cons_append, declared_break, declared_join (.inl rfl), hcases, List.append_assoc,
    declared_lines_append hlines, List.append_assoc, List.cons_append,
    declared_skip hfinal hfinalNone, List.singleton_append, declared_break_cons,
    declared_join (.inr rfl), hhandlers, List.nil_append]

end Scaffold
