import Scaffold.Proofs.Patch.Anchors

/-!
# Rows of members

Members that are put in behind the last match of their anchor end with the last match of the new
text, so that the next ones go in behind them: `cut_eventCases`, `cut_whenCases`,
`cut_registrations` and `cut_stateFields`. Handlers that are put in behind it, at the end of the
class, have no match (`Anchor.Cut.handlers`).
-/

namespace Scaffold

open Anchor

variable {feature : Feature} {endpoint : Endpoint} {endpoints : List Endpoint} {a b text rest : Text}
  {anchor : Anchor} {lineStart : Bool}

theorem preceded_map (separator : Text) (render : Endpoint → Text) (endpoints : List Endpoint) :
    preceded separator (endpoints.map render) =
      endpoints.flatMap fun endpoint => separator ++ render endpoint := by
  simp [preceded, List.flatMap_map]

/-! ## Cases of the events -/

/-- What stands between the two ends of the match that a case is. -/
def eventCaseBody (feature : Feature) (endpoint : Endpoint) : Text :=
  " " ++ feature.eventClass ++ "." ++ endpoint.eventName ++ "(" ++ endpoint.namedParameters ++
    ") = " ++ endpoint.eventName.pascal

theorem eventCase_eq (feature : Feature) (endpoint : Endpoint) :
    eventCase feature endpoint =
      "  " ++ ("const factory" ++ (eventCaseBody feature endpoint ++ [';'])) := by
  have hhead : ("  const factory " : Text) = "  " ++ ("const factory" ++ " ") := by
    repeat rw [String.toList_ofList]
    rfl
  have hlast : (";" : Text) = [';'] := rfl
  unfold eventCase eventCaseBody
  rw [hhead, hlast]
  simp only [List.append_assoc]

theorem not_mem_eventCaseBody (hfeature : feature.Plain) (h : endpoint.Plain) :
    ';' ∉ eventCaseBody feature endpoint := by
  have hword : ∀ {name : Text}, AsciiWordy name → ';' ∉ name := fun hname =>
    hname.consists.not_mem (by decide)
  have hparameters : ';' ∉ endpoint.namedParameters := h.namedParameters.not_mem (by decide)
  have hclass := hword hfeature.eventClass
  have hname := hword h.eventName
  have hvariant := hword h.eventName.pascal
  unfold eventCaseBody
  simp only [List.mem_append, hparameters, hclass, hname, hvariant]
  decide

theorem cut_eventCases (h : Anchor.eventCase.Cut a b) (hfeature : feature.Plain)
    (hplain : ∀ endpoint ∈ endpoints, endpoint.Plain) (hne : endpoints ≠ []) :
    Anchor.eventCase.Cut (a ++ preceded "\n\n" (endpoints.map (eventCase feature))) b := by
  have hany : ∀ {text : Text} {lineStart lineStart' : Bool}, Anchor.eventCase.Idle lineStart text →
      Anchor.eventCase.Idle lineStart' text := by
    intro text lineStart lineStart' hidle
    rw [idle_iff] at hidle ⊢
    intro a b hab
    rw [after?_of_not_wholeLines (by rintro (h | h) <;> cases h)]
    exact hidle a b hab
  unfold Cut
  rw [List.append_assoc, preceded_map]
  refine splitAfterLast?_insert h ?_ fun hidle => ?_
  · intro lineStart left matched _ _ hmatched
    refine carries_eventCase ?_ _ _
    rw [after?_eventCase] at hmatched
    obtain ⟨middle, hword, hend⟩ := Option.bind_eq_some_iff.1 hmatched
    obtain ⟨before, -, rfl⟩ := afterChar?_eq_some hend
    rw [Text.after?_eq_some_iff] at hword
    have hlast : matched ++ b = "const factory" ++ before ++ [';'] ++ b := by
      rw [hword]
      simp
    simp [List.append_cancel_right hlast]
  · refine splitAfterLast?_row (fun _ => True) hne trivial (fun _ _ _ => hany hidle)
      (fun _ _ _ _ => trivial) fun endpoint hendpoint lineStart rest _ => ?_
    refine ⟨"\n\n  ", "const factory" ++ (eventCaseBody feature endpoint ++ [';']), ?_, by simp, ?_,
      ?_⟩
    · rw [eventCase_eq]
      rfl
    · rw [after?_eventCase, List.append_assoc, Text.after?_append, Option.bind_some,
        List.append_assoc]
      exact afterChar?_append (not_mem_eventCaseBody hfeature (hplain endpoint hendpoint)) rest
    · intro first left hfirst hleft
      obtain ⟨c, left, rfl⟩ := List.exists_cons_of_ne_nil hleft
      have hmem : c ∈ ("\n\n  " : Text) := by rw [hfirst]; simp
      refine after?_eventCase_of_ne fun hc => ?_
      rw [hc] at hmem
      exact absurd hmem (by decide)

/-! ## Branches -/

theorem after?_breaksLine (hlines : anchor.WholeLines)
    (h : anchor.after? lineStart text = some rest) : BreaksLine rest := by
  have hdrop : ∀ {accepts : Char → Bool} {text rest : Text} {c : Char},
      text.dropWhile accepts = c :: rest → accepts c = false := by
    intro accepts text rest c hcons
    have hne : text.dropWhile accepts ≠ [] := by simp [hcons]
    have := List.head_dropWhile_not accepts hne
    simpa [hcons] using this
  cases lineStart with
  | false =>
      rw [after?_of_mid_line hlines] at h
      cases h
  | true =>
      rcases hlines with rfl | rfl
      · rw [after?_whenCase] at h
        obtain ⟨r₁, -, h₁⟩ := Option.bind_eq_some_iff.1 h
        obtain ⟨r₂, -, h₂⟩ := Option.bind_eq_some_iff.1 h₁
        obtain ⟨r₃, -, h₃⟩ := Option.bind_eq_some_iff.1 h₂
        obtain ⟨r₄, -, h₄⟩ := Option.bind_eq_some_iff.1 h₃
        obtain ⟨r₅, -, hend⟩ := Option.bind_eq_some_iff.1 h₄
        rw [atLineEnd?] at hend
        split at hend
        · obtain rfl := Option.some.inj hend
          simp [BreaksLine]
        · split at hend
          · next hc =>
            obtain rfl := Option.some.inj hend
            simp [BreaksLine, hc]
          · cases hend
      · obtain ⟨r₁, -, h₁⟩ := Option.bind_eq_some_iff.1 h
        obtain ⟨r₂, -, h₂⟩ := Option.bind_eq_some_iff.1 h₁
        obtain ⟨r₃, -, h₃⟩ := Option.bind_eq_some_iff.1 h₂
        obtain ⟨r₄, -, hend⟩ := Option.bind_eq_some_iff.1 h₃
        obtain ⟨htext, -⟩ := afterCallLine?_eq_some hend
        have hrest : rest = r₄.dropWhile (· != '\n') := by
          have := List.takeWhile_append_dropWhile (p := fun c => c != '\n') (l := r₄)
          rw [← this, List.takeWhile_append_dropWhile] at htext
          exact (List.append_cancel_left (this.trans htext)).symm
        intro c hc
        obtain ⟨rest', hcons⟩ := List.head?_eq_some_iff.1 hc
        rw [hrest] at hcons
        simpa using hdrop hcons

/-- A match of whole lines ends where its line does, whatever the next lines are. -/
theorem carries_match {matched : Text} (hlines : anchor.WholeLines)
    (h : anchor.after? lineStart (matched ++ b) = some b) (hrest : BreaksLine rest) (left : Text) :
    anchor.Carries (left ++ matched) b rest := by
  have hb := after?_breaksLine hlines h
  rcases hlines with rfl | rfl
  · refine carries_whenCase ?_ hb hrest
    obtain ⟨-, head, parameters, arrow, arguments, blanks, -, -, -, -, -, heq⟩ :=
      after?_whenCase_eq_some h
    rw [List.append_cancel_right heq]
    simp only [List.count_append, List.count_cons_self]
    omega
  · exact carries_registration hb hrest

/-- A branch as its parts between parentheses. -/
theorem whenCase_eq (endpoint : Endpoint) (rest : Text) :
    whenCase endpoint ++ rest = "        " ++ (endpoint.eventName ++ (": (" ++
      (endpoint.callArguments ++ ')' :: (" => _" ++ (endpoint.methodName ++ ("(" ++
        (joinNonempty [endpoint.callArguments, "emit"] ++ ')' :: ("," ++ rest)))))))) := by
  have harrow : ∀ text, (") => " ++ (endpoint.handlerName ++ text) : Text) =
      ')' :: (" => _" ++ (endpoint.methodName ++ text)) := fun _ => rfl
  have hclose : ("),") ++ rest = ')' :: ("," ++ rest : Text) := rfl
  unfold whenCase
  simp only [List.append_assoc, harrow, hclose, List.cons_append]

theorem not_mem_emitArguments (h : endpoint.Plain) :
    ')' ∉ joinNonempty [endpoint.callArguments, "emit"] := by
  refine (Endpoint.Plain.joinNonempty ?_).not_mem (by decide)
  simpa using ⟨h.callArguments, by decide⟩

theorem after?_whenCase_append (h : endpoint.Plain) (hne : endpoint.methodName ≠ [])
    (hrest : BreaksLine rest) :
    after? .whenCase true (whenCase endpoint ++ rest) = some rest := by
  have hword : ∀ {name : Text}, AsciiWordy name → ∀ c ∈ name, isWordChar c = true :=
    fun hname c hc => isWordChar_of_ascii (hname c hc)
  have hevent : endpoint.eventName ≠ [] := by simp [Endpoint.eventName]
  have hhead : ∀ text, branchHead? ("        " ++ (endpoint.eventName ++ (": (" ++ text))) =
      some text := by
    intro text
    have hstart : ∀ c ∈ (endpoint.eventName ++ (": (" ++ text) : Text).head?,
        isIndent c = false := by
      intro c hc
      obtain ⟨d, name, hd⟩ := List.exists_cons_of_ne_nil hevent
      rw [hd] at hc
      obtain rfl : d = c := by simpa using hc
      exact isIndent_of_isWordChar (hword h.eventName d (by simp [hd]))
    have hcolon : ∀ c ∈ (": (" ++ text : Text).head?, isWordChar c = false := by
      rintro c ⟨⟩
      decide
    unfold branchHead?
    rw [afterRun?_append (by simp) (by decide) hstart, Option.bind_some,
      afterRun?_append hevent (hword h.eventName) hcolon, Option.bind_some, Text.after?_append]
  have harrow : ∀ text, branchArrow? (" => _" ++ (endpoint.methodName ++ ("(" ++ text))) =
      some text := by
    intro text
    have hopen : ∀ c ∈ ("(" ++ text : Text).head?, isWordChar c = false := by
      rintro c ⟨⟩
      decide
    unfold branchArrow?
    rw [Text.after?_append, Option.bind_some, afterRun?_append hne (hword h.methodName) hopen,
      Option.bind_some, Text.after?_append]
  rw [whenCase_eq, after?_whenCase, hhead, Option.bind_some,
    afterChar?_append (h.callArguments.not_mem (by decide)), Option.bind_some, harrow,
    Option.bind_some, afterChar?_append (not_mem_emitArguments h), Option.bind_some]
  unfold branchEnd?
  rw [Text.after?_append, Option.bind_some, hrest.atLineEnd?]

/-- Lines that are matches of whole lines go in behind the last match. -/
theorem cut_lines {render : Endpoint → Text} (hlines : anchor.WholeLines) (h : anchor.Cut a b)
    (hmatch : ∀ endpoint ∈ endpoints, ∀ rest, BreaksLine rest →
      anchor.after? true (render endpoint ++ rest) = some rest)
    (hrender : ∀ endpoint ∈ endpoints, render endpoint ≠ []) (hne : endpoints ≠ []) :
    anchor.Cut (a ++ preceded "\n" (endpoints.map render)) b := by
  have hbreaks : ∀ text, BreaksLine ("\n" ++ text : Text) := by
    rintro text c ⟨⟩
    rfl
  have hb : BreaksLine b := by
    obtain ⟨front, matched, -, -, -, -, hmatched, -⟩ := splitAfterLast?_iff.1 h
    exact after?_breaksLine hlines hmatched
  have hends : ∀ endpoint ∈ endpoints, ∀ lineStart,
      startsLineAfter lineStart ("\n" ++ render endpoint) = false := by
    intro endpoint hendpoint lineStart
    have hmatched := hmatch endpoint hendpoint [] (by simp [BreaksLine])
    obtain ⟨matched, -, heq, hend⟩ := after?_eq_some hmatched
    rw [List.append_nil, List.append_nil] at heq
    rw [startsLineAfter_append, heq]
    exact hend hlines _
  unfold Cut
  rw [List.append_assoc, preceded_map]
  refine splitAfterLast?_insert h ?_ fun hidle => ?_
  · intro lineStart left matched _ _ hafter
    refine carries_match hlines hafter ?_ left
    cases endpoints with
    | nil => exact absurd rfl hne
    | cons endpoint endpoints =>
        rw [List.flatMap_cons, List.append_assoc, List.append_assoc]
        exact hbreaks _
  · have hidle' : anchor.Idle false b := by
      obtain ⟨front, matched, ha, -, -, hmatched, hafter, -⟩ := splitAfterLast?_iff.1 h
      obtain ⟨matched', -, heq, hend⟩ := after?_eq_some hafter
      obtain rfl := List.append_cancel_right heq
      rw [ha, startsLineAfter_append, hend hlines] at hidle
      exact hidle
    refine splitAfterLast?_row BreaksLine hne hb
      (fun endpoint hendpoint lineStart => by rw [hends endpoint hendpoint]; exact hidle')
      (fun endpoint _ rest _ => by rw [List.append_assoc]; exact hbreaks _) ?_
    intro endpoint hendpoint lineStart rest hrest
    refine ⟨"\n", render endpoint, rfl, hrender endpoint hendpoint,
      hmatch endpoint hendpoint rest hrest, ?_⟩
    intro first left hfirst hleft
    obtain ⟨c, left, rfl⟩ := List.exists_cons_of_ne_nil hleft
    have hmem : c ∈ ("\n" : Text) := by rw [hfirst]; simp
    obtain rfl := List.mem_singleton.1 hmem
    exact after?_of_not_indent hlines (by decide)

theorem cut_whenCases (h : Anchor.whenCase.Cut a b) (hplain : ∀ endpoint ∈ endpoints, endpoint.Plain)
    (hnames : ∀ endpoint ∈ endpoints, endpoint.methodName ≠ []) (hne : endpoints ≠ []) :
    Anchor.whenCase.Cut (a ++ preceded "\n" (endpoints.map whenCase)) b := by
  refine cut_lines (.inl rfl) h (fun endpoint hendpoint rest hrest =>
    after?_whenCase_append (hplain endpoint hendpoint) (hnames endpoint hendpoint) hrest) ?_ hne
  intro endpoint _
  unfold whenCase
  simp

/-! ## Registrations -/

theorem after?_plainRegistration (h : endpoint.Plain) (hrest : BreaksLine rest) :
    after? .registration true (plainRegistration endpoint ++ rest) = some rest := by
  have hword : ∀ {name : Text}, AsciiWordy name → ∀ c ∈ name, isWordChar c = true :=
    fun hname c hc => isWordChar_of_ascii (hname c hc)
  have hevent : endpoint.plainEvent ≠ [] := by simp [Endpoint.plainEvent]
  have heq : plainRegistration endpoint ++ rest =
      "    " ++ ("on<" ++ (endpoint.plainEvent ++ (">(" ++ ((endpoint.plainHandler ++ ");") ++
        rest)))) := by
    have hhead : ("    on<" : Text) = "    " ++ "on<" := Text.literal_append rfl
    unfold plainRegistration
    rw [hhead]
    simp only [List.append_assoc]
  have hstart : ∀ text, ∀ c ∈ ("on<" ++ text : Text).head?, isIndent c = false := by
    rintro text c ⟨⟩
    rfl
  have hclose : ∀ text, ∀ c ∈ (">(" ++ text : Text).head?, isWordChar c = false := by
    rintro text c ⟨⟩
    decide
  have hline : '\n' ∉ endpoint.plainHandler ++ ");" := by
    have hname : '\n' ∉ endpoint.plainHandler := h.plainHandler.consists.not_mem (by decide)
    simp only [List.mem_append, hname]
    decide
  rw [heq, after?_registration]
  unfold registrationLine?
  rw [afterRun?_append (by simp) (by decide) (hstart _), Option.bind_some, Text.after?_append,
    Option.bind_some, afterRun?_append hevent (hword h.plainEvent) (hclose _), Option.bind_some,
    Text.after?_append, Option.bind_some]
  have htake : (endpoint.plainHandler ++ ");" ++ rest).takeWhile (· != '\n') =
      endpoint.plainHandler ++ ");" := by
    rw [hrest.takeWhile, List.takeWhile_eq_self_iff]
    intro c hc
    rw [bne_iff_ne]
    rintro rfl
    exact hline hc
  unfold afterCallLine?
  rw [htake]
  dsimp only
  rw [List.drop_left' rfl]
  simp [Text.startsWith, isIndent]

theorem cut_registrations (h : Anchor.registration.Cut a b)
    (hplain : ∀ endpoint ∈ endpoints, endpoint.Plain) (hne : endpoints ≠ []) :
    Anchor.registration.Cut (a ++ preceded "\n" (endpoints.map plainRegistration)) b := by
  refine cut_lines (.inr rfl) h (fun endpoint hendpoint rest hrest =>
    after?_plainRegistration (hplain endpoint hendpoint) hrest) ?_ hne
  intro endpoint _
  unfold plainRegistration
  simp

/-! ## Fields of the state -/

theorem not_mem_stateField (h : endpoint.Plain) : '\x7d' ∉ stateField endpoint := by
  have htype : '\x7d' ∉ stateFieldType endpoint := h.stateFieldType.not_mem (by decide)
  have hname : '\x7d' ∉ endpoint.stateField := h.stateField.consists.not_mem (by decide)
  unfold stateField
  repeat rw [String.toList_ofList]
  simp only [List.mem_append, htype, hname]
  decide

theorem cut_stateFields (h : Anchor.stateFields.Cut a b)
    (hplain : ∀ endpoint ∈ endpoints, endpoint.Plain) (hne : endpoints ≠ []) :
    Anchor.stateFields.Cut (a ++ preceded "\n" (endpoints.map stateField)) b := by
  rw [preceded_map]
  refine cut_stateFields_lines h ?_ fun hmem => ?_
  · cases endpoints with
    | nil => exact absurd rfl hne
    | cons endpoint endpoints =>
        rintro c ⟨⟩
        rfl
  · obtain ⟨endpoint, hendpoint, hmem⟩ := List.mem_flatMap.1 hmem
    rcases List.mem_append.1 hmem with hmem | hmem
    · exact absurd hmem (by decide)
    · exact not_mem_stateField (hplain endpoint hendpoint) hmem

/-! ## Handlers at the end of the class -/

/-- Scanning from the start of a line passes over the lines without a match. -/
def Anchor.Silent (anchor : Anchor) (text : Text) : Prop :=
  ∀ rest, anchor.splitAfterLast? true 0 (text ++ rest) =
    behind text (anchor.splitAfterLast? true 0 rest)

theorem Anchor.Silent.nil : anchor.Silent [] := fun rest => by simp

theorem Anchor.Silent.append (ha : anchor.Silent a) (hb : anchor.Silent b) :
    anchor.Silent (a ++ b) := fun rest => by
  rw [List.append_assoc, ha, hb, behind_append]

theorem Anchor.Silent.flatten {pieces : List Text} (h : ∀ piece ∈ pieces, anchor.Silent piece) :
    anchor.Silent pieces.flatten := by
  induction pieces with
  | nil => exact .nil
  | cons piece pieces ih =>
      rw [List.flatten_cons]
      exact (h piece (by simp)).append (ih fun other hother => h other (by simp [hother]))

theorem Anchor.Silent.line {line : Text} (hlines : anchor.WholeLines) (hline : '\n' ∉ line)
    (h : ∀ rest, anchor.after? true (line ++ rest) = none) : anchor.Silent (line ++ ['\n']) :=
  fun rest => by
    rw [List.append_assoc]
    exact splitAfterLast?_line hlines hline (h _)

theorem Anchor.Silent.idle (h : anchor.Silent a) :
    anchor.Idle true (a ++ rest) ↔ anchor.Idle true rest := by
  unfold Idle
  rw [h rest, behind_eq_none_iff]

/-- What is no branch because of what follows the first word of its line. -/
theorem after?_of_word {word tail : Text} (indent : Text) (hindent : ∀ c ∈ indent, isIndent c = true)
    (hword : ∀ c ∈ word, isWordChar c = true) (hne : word ≠ [])
    (htail : ∀ c ∈ tail.head?, isWordChar c = false) (hopen : Text.after? ": (" tail = none) :
    after? .whenCase true (indent ++ (word ++ tail)) = none := by
  have hstart : ∀ c ∈ (word ++ tail).head?, isIndent c = false := by
    obtain ⟨d, word, rfl⟩ := List.exists_cons_of_ne_nil hne
    rintro c ⟨⟩
    exact isIndent_of_isWordChar (hword d (by simp))
  by_cases hnil : indent = []
  · subst hnil
    obtain ⟨d, word, rfl⟩ := List.exists_cons_of_ne_nil hne
    exact after?_of_not_indent (.inl rfl) (hstart d rfl)
  · rw [after?_whenCase, branchHead?, afterRun?_append hnil hindent hstart, Option.bind_some,
      afterRun?_append hne hword htail, Option.bind_some, hopen]
    rfl

/-- A literal that ends with its only line break. -/
theorem Anchor.Silent.literal {characters : List Char} (hlines : anchor.WholeLines)
    (hend : characters.getLast? = some '\n') (hline : '\n' ∉ characters.dropLast)
    (h : ∀ rest, anchor.after? true (characters ++ rest) = none) :
    anchor.Silent (String.ofList characters : Text) := by
  obtain ⟨line, rfl⟩ := List.getLast?_eq_some_iff.1 hend
  rw [List.dropLast_concat] at hline
  rw [String.toList_ofList]
  intro rest
  have hrest := h rest
  rw [List.append_assoc] at hrest ⊢
  exact splitAfterLast?_line hlines hline hrest

theorem blocHandler_eq (feature : Feature) (endpoint : Endpoint) :
    blocHandler feature endpoint ++ "\n" =
      [("  Future<void> " ++ (endpoint.handlerName ++ ("(" ++
          (joinNonempty [endpoint.typedParameters, emitterParameter feature] ++
            ") async \x7b"))) : Text) ++ "\n",
        "    emit(state.copyWith(isLoading: true, error: const Error.none()));\n",
        "\n",
        "    final result = await _useCases." ++ (endpoint.call ++ ";") ++ "\n",
        "\n",
        "    result.fold(\n",
        "      (error) => emit(state.copyWith(\n",
        "        isLoading: false,\n",
        "        error: error,\n",
        "      )),\n",
        "      (response) => emit(state.copyWith(\n",
        "        isLoading: false,\n",
        "        " ++ (endpoint.stateField ++ ": response,") ++ "\n",
        "        error: const Error.none(),\n",
        "      )),\n",
        "    );\n",
        "  \x7d" ++ "\n"].flatten := by
  have hopen : (") async \x7b\n" : Text) = ") async \x7b" ++ "\n" := Text.literal_append rfl
  have hcall : (";\n" : Text) = ";" ++ "\n" := Text.literal_append rfl
  have hresponse : (": response,\n" : Text) = ": response," ++ "\n" := Text.literal_append rfl
  unfold blocHandler
  rw [hopen, hcall, hresponse]
  simp only [List.flatten_cons, List.flatten_nil, List.append_assoc, List.append_nil]

theorem silent_blocHandler (hfeature : feature.Plain) (h : endpoint.Plain) :
    Anchor.whenCase.Silent (blocHandler feature endpoint ++ "\n") := by
  have hliteral : ∀ {characters : List Char}, characters.getLast? = some '\n' →
      '\n' ∉ characters.dropLast → (∀ rest, after? .whenCase true (characters ++ rest) = none) →
      Anchor.whenCase.Silent (String.ofList characters : Text) := Anchor.Silent.literal (.inl rfl)
  have hline : ∀ {line : Text}, '\n' ∉ line → (∀ rest, after? .whenCase true (line ++ rest) = none) →
      Anchor.whenCase.Silent (line ++ ['\n']) := Anchor.Silent.line (.inl rfl)
  have hhead : Anchor.whenCase.Silent (("  Future<void> " ++ (endpoint.handlerName ++ ("(" ++
      (joinNonempty [endpoint.typedParameters, emitterParameter feature] ++
        ") async \x7b"))) : Text) ++ "\n") := by
    have hname : '\n' ∉ endpoint.handlerName := h.handlerName.consists.not_mem (by decide)
    have hparameters : '\n' ∉ joinNonempty [endpoint.typedParameters, emitterParameter feature] :=
      (h.handlerParameters hfeature).not_mem (by decide)
    repeat rw [String.toList_ofList]
    refine hline ?_ fun rest => rfl
    simp only [List.mem_append, hname, hparameters]
    decide
  have hcall : Anchor.whenCase.Silent
      ("    final result = await _useCases." ++ (endpoint.call ++ ";") ++ "\n") := by
    have hname : '\n' ∉ endpoint.methodName := h.methodName.consists.not_mem (by decide)
    have harguments : '\n' ∉ endpoint.callArguments := h.callArguments.not_mem (by decide)
    unfold Endpoint.call
    repeat rw [String.toList_ofList]
    refine hline ?_ fun rest => rfl
    simp only [List.mem_append, hname, harguments]
    decide
  have hfield : Anchor.whenCase.Silent
      ("        " ++ (endpoint.stateField ++ ": response,") ++ "\n") := by
    repeat rw [String.toList_ofList]
    refine hline ?_ fun rest => ?_
    · have hname : '\n' ∉ endpoint.stateField := h.stateField.consists.not_mem (by decide)
      simp only [List.mem_append, hname]
      decide
    · rw [List.append_assoc, List.append_assoc]
      refine after?_of_word _ (by decide) (fun c hc => isWordChar_of_ascii (h.stateField c hc))
        (List.append_ne_nil_of_right_ne_nil _ (by decide)) ?_ rfl
      rintro c ⟨⟩
      decide
  rw [blocHandler_eq]
  refine Anchor.Silent.flatten ?_
  simp only [List.forall_mem_cons]
  refine ⟨hhead, hliteral rfl (by decide) fun _ => rfl, hliteral rfl (by decide) fun _ => rfl, hcall,
    hliteral rfl (by decide) fun _ => rfl, hliteral rfl (by decide) fun _ => rfl,
    hliteral rfl (by decide) fun _ => rfl, hliteral rfl (by decide) fun _ => rfl,
    hliteral rfl (by decide) fun _ => rfl, hliteral rfl (by decide) fun _ => rfl,
    hliteral rfl (by decide) fun _ => rfl, hliteral rfl (by decide) fun _ => rfl, hfield,
    hliteral rfl (by decide) fun _ => rfl, hliteral rfl (by decide) fun _ => rfl,
    hliteral rfl (by decide) fun _ => rfl, hline (by decide) fun _ => rfl, List.forall_mem_nil _⟩

theorem plainBlocHandler_eq (feature : Feature) (endpoint : Endpoint) :
    plainBlocHandler feature endpoint ++ "\n" =
      [("  Future<void> " ++ (endpoint.plainHandler ++ ("(" ++ (endpoint.plainEvent ++ (" event, " ++
          (emitterParameter feature ++ ") async \x7b"))))) : Text) ++ "\n",
        "    emit(" ++ (endpoint.baseName ++ "LoadingState());") ++ "\n",
        "\n",
        "    final result = await _useCases." ++ (endpoint.methodName ++ ("(" ++
          (eventArguments endpoint ++ ");"))) ++ "\n",
        "\n",
        "    result.fold(\n",
        "      (error) => emit(" ++ (endpoint.baseName ++ "ErrorState(error.toString())),") ++ "\n",
        "      (response) => emit(" ++ (endpoint.baseName ++ "SuccessState(response)),") ++ "\n",
        "    );\n",
        "  \x7d" ++ "\n"].flatten := by
  have hopen : (") async \x7b\n" : Text) = ") async \x7b" ++ "\n" := Text.literal_append rfl
  have hloading : ("LoadingState());\n" : Text) = "LoadingState());" ++ "\n" :=
    Text.literal_append rfl
  have hcall : (");\n" : Text) = ");" ++ "\n" := Text.literal_append rfl
  have herror : ("ErrorState(error.toString())),\n" : Text) =
    "ErrorState(error.toString()))," ++ "\n" := Text.literal_append rfl
  have hsuccess : ("SuccessState(response)),\n" : Text) = "SuccessState(response))," ++ "\n" :=
    Text.literal_append rfl
  unfold plainBlocHandler
  rw [hopen, hloading, hcall, herror, hsuccess]
  simp only [List.flatten_cons, List.flatten_nil, List.append_assoc, List.append_nil]

theorem silent_plainBlocHandler (hfeature : feature.Plain) (h : endpoint.Plain) :
    Anchor.registration.Silent (plainBlocHandler feature endpoint ++ "\n") := by
  have hline : ∀ {line : Text}, '\n' ∉ line →
      (∀ rest, after? .registration true (line ++ rest) = none) →
      Anchor.registration.Silent (line ++ ['\n']) := Anchor.Silent.line (.inr rfl)
  have hliteral : ∀ {characters : List Char}, characters.getLast? = some '\n' →
      '\n' ∉ characters.dropLast → (∀ rest, after? .registration true (characters ++ rest) = none) →
      Anchor.registration.Silent (String.ofList characters : Text) := Anchor.Silent.literal (.inr rfl)
  have hname : '\n' ∉ endpoint.plainHandler := h.plainHandler.consists.not_mem (by decide)
  have hevent : '\n' ∉ endpoint.plainEvent := h.plainEvent.consists.not_mem (by decide)
  have hmethod : '\n' ∉ endpoint.methodName := h.methodName.consists.not_mem (by decide)
  have hbase : '\n' ∉ endpoint.baseName := h.baseName.consists.not_mem (by decide)
  have hemitter : '\n' ∉ emitterParameter feature := hfeature.emitterParameter.not_mem (by decide)
  have harguments : '\n' ∉ eventArguments endpoint := h.eventArguments.not_mem (by decide)
  rw [plainBlocHandler_eq]
  refine Anchor.Silent.flatten ?_
  simp only [List.forall_mem_cons]
  refine ⟨?_, ?_, hliteral rfl (by decide) fun _ => rfl, ?_, hliteral rfl (by decide) fun _ => rfl,
    hliteral rfl (by decide) fun _ => rfl, ?_, ?_, hliteral rfl (by decide) fun _ => rfl,
    hline (by decide) fun _ => rfl, List.forall_mem_nil _⟩
  all_goals
    repeat rw [String.toList_ofList]
    refine hline ?_ fun _ => rfl
    simp only [List.mem_append, hname, hevent, hmethod, hbase, hemitter, harguments]
    decide

theorem Anchor.Silent.members {parts : List Text} (hlines : anchor.WholeLines)
    (h : ∀ part ∈ parts, anchor.Silent (part ++ "\n")) (hne : parts ≠ []) :
    anchor.Silent (Text.join "\n\n" parts ++ "\n") := by
  have hbreak : anchor.Silent ("\n" : Text) := fun rest =>
    splitAfterLast?_line (a := []) hlines (by simp) (after?_of_not_indent hlines (by decide))
  induction parts with
  | nil => exact absurd rfl hne
  | cons part parts ih =>
      by_cases hnil : parts = []
      · subst hnil
        simpa using h part (by simp)
      · have heq : Text.join "\n\n" (part :: parts) ++ "\n" =
            (part ++ "\n") ++ ("\n" ++ (Text.join "\n\n" parts ++ "\n")) := by
          have hseparator : ("\n\n" : Text) = "\n" ++ "\n" := Text.literal_append rfl
          rw [Text.join_cons part hnil, hseparator]
          simp only [List.append_assoc]
        rw [heq]
        exact (h part (by simp)).append (hbreak.append
          (ih (fun other hother => h other (by simp [hother])) hnil))

/-- A match that ends with `left` alone cannot be completed by a line behind it that closes a
parenthesis and then goes on as no branch does. -/
theorem after?_whenCase_of_closed {left head tail : Text} (h : after? .whenCase lineStart left = none)
    (hhead : ')' ∉ head) (harrow : branchArrow? tail = none) (hend : branchEnd? tail = none) :
    after? .whenCase lineStart (left ++ '\n' :: (head ++ ')' :: tail)) = none := by
  have hbreaks : BreaksLine ('\n' :: (head ++ ')' :: tail)) := by simp [BreaksLine]
  have hnil : BreaksLine [] := by simp [BreaksLine]
  have hclose : ∀ left₁ : Text, ')' ∉ left₁ →
      afterChar? ')' (left₁ ++ '\n' :: (head ++ ')' :: tail)) = some tail := by
    intro left₁ hleft₁
    have heq : left₁ ++ '\n' :: (head ++ ')' :: tail) = (left₁ ++ '\n' :: head) ++ ')' :: tail := by
      simp
    rw [heq]
    exact afterChar?_append (by simp [hleft₁, hhead]) tail
  cases lineStart with
  | false => rfl
  | true =>
      rw [after?_whenCase] at h ⊢
      rcases staysInLine_branchHead? left [] _ hnil hbreaks with ⟨-, h₁'⟩ | ⟨left₁, h₁, h₁'⟩
      · rw [h₁']
        rfl
      rw [List.append_nil] at h₁
      rw [h₁, Option.bind_some, List.append_nil] at h
      rw [h₁', Option.bind_some]
      by_cases hleft₁ : ')' ∈ left₁
      · obtain ⟨-, left₂, -, -, hlast⟩ := afterChar?_append_of_mem hleft₁
        have hlast₀ := hlast []
        rw [List.append_nil, List.append_nil] at hlast₀
        rw [hlast₀, Option.bind_some] at h
        rw [hlast, Option.bind_some]
        rcases staysInLine_branchArrow? left₂ [] _ hnil hbreaks with ⟨-, h₃'⟩ | ⟨left₃, h₃, h₃'⟩
        · rw [h₃']
          rfl
        rw [List.append_nil] at h₃
        rw [h₃, Option.bind_some, List.append_nil] at h
        rw [h₃', Option.bind_some]
        by_cases hleft₃ : ')' ∈ left₃
        · obtain ⟨-, left₄, -, -, hlast⟩ := afterChar?_append_of_mem hleft₃
          have hlast₀ := hlast []
          rw [List.append_nil, List.append_nil] at hlast₀
          rw [hlast₀, Option.bind_some] at h
          rw [hlast, Option.bind_some]
          rcases staysInLine_branchEnd? left₄ [] _ hnil hbreaks with ⟨-, h₅'⟩ | ⟨left₅, h₅, -⟩
          · exact h₅'
          · rw [List.append_nil] at h₅
            rw [h] at h₅
            cases h₅
        · rw [hclose left₃ hleft₃, Option.bind_some, hend]
      · rw [hclose left₁ hleft₁, Option.bind_some, harrow]
        rfl

/-- A block that goes in at a place from which on there is no match, where the text in front of the
place has the same last match on its own. -/
theorem Anchor.Cut.block {s q inner : Text} (hlines : anchor.WholeLines)
    (h : anchor.Cut a (s ++ '\x7d' :: q)) (hin : anchor.Cut a s) (hinner : anchor.Silent inner)
    (hclosed : ∀ lineStart left, anchor.after? lineStart left = none →
      anchor.after? lineStart (left ++ '\n' :: (inner ++ '\x7d' :: q)) = none) :
    anchor.Cut a (s ++ '\n' :: (inner ++ '\x7d' :: q)) := by
  obtain ⟨front, matched, ha, -, hscans, hne, hmatch, hidle⟩ := splitAfterLast?_iff.1 hin
  have hbreaks : BreaksLine (s ++ '\n' :: (inner ++ '\x7d' :: q)) := by
    have hs := after?_breaksLine hlines hmatch
    cases s with
    | nil => simp [BreaksLine]
    | cons c s => exact hs
  have hcarries := carries_match hlines hmatch hbreaks
  refine splitAfterLast?_iff.2 ⟨front, matched, ha, by rw [ha, List.append_assoc],
    hscans.congr fun left _ _ => (hcarries left).of_append, hne,
    (hcarries []).some _ [] hmatch, ?_⟩
  have hbehind : anchor.Idle true ('\x7d' :: q) := by
    obtain ⟨-, -, -, -, -, -, -, hidle⟩ := splitAfterLast?_iff.1 h
    rw [idle_cons_iff]
    exact ⟨after?_of_not_indent hlines (by decide), (idle_cons_iff.1 hidle.of_append).2⟩
  have hblock : ∀ lineStart, anchor.Idle lineStart ('\n' :: (inner ++ '\x7d' :: q)) := by
    intro lineStart
    rw [idle_cons_iff]
    exact ⟨after?_of_not_indent hlines (by decide), hinner.idle.2 hbehind⟩
  rw [idle_iff] at hidle ⊢
  intro first last hlast
  rcases List.append_eq_append_iff.1 hlast with ⟨mid, rfl, hmid⟩ | ⟨mid, rfl, rfl⟩
  · rw [startsLineAfter_append]
    exact idle_iff.1 (hblock _) mid last hmid
  · exact hclosed _ mid (hidle first mid rfl)

theorem exists_join_cons (separator part : Text) (parts : List Text) :
    ∃ tail, Text.join separator (part :: parts) = part ++ tail := by
  cases parts with
  | nil => exact ⟨[], by simp⟩
  | cons next parts => exact ⟨separator ++ Text.join separator (next :: parts), by simp [Text.join]⟩

theorem exists_blocHandler_tail (feature : Feature) (endpoint : Endpoint) :
    ∃ tail, blocHandler feature endpoint =
      ("  Future<void> " ++ (endpoint.handlerName ++ ("(" ++
        joinNonempty [endpoint.typedParameters, emitterParameter feature]))) ++
        ')' :: (" async" ++ tail) := by
  have hopen : (") async \x7b\n" : Text) = [')'] ++ (" async" ++ " \x7b\n") := rfl
  unfold blocHandler
  rw [hopen]
  refine ⟨?_, ?_⟩
  rotate_left
  · simp only [List.append_assoc, List.cons_append, List.nil_append]
    rfl

/-- Handlers at the end of a class have no branches and complete none in front of them. -/
theorem cut_blocHandlers {s q : Text} (h : Anchor.whenCase.Cut a (s ++ '\x7d' :: q))
    (hin : Anchor.whenCase.Cut a s) (hfeature : feature.Plain)
    (hplain : ∀ endpoint ∈ endpoints, endpoint.Plain) (hne : endpoints ≠ []) :
    Anchor.whenCase.Cut a
      (s ++ (memberBlock "\n\n" (endpoints.map (blocHandler feature)) ++ '\x7d' :: q)) := by
  have hinner : Anchor.whenCase.Silent
      (Text.join "\n\n" (endpoints.map (blocHandler feature)) ++ "\n") := by
    refine Anchor.Silent.members (.inl rfl) (fun part hpart => ?_) (by simpa using hne)
    obtain ⟨endpoint, hendpoint, rfl⟩ := List.mem_map.1 hpart
    exact silent_blocHandler hfeature (hplain endpoint hendpoint)
  refine Anchor.Cut.block (.inl rfl) h hin hinner fun lineStart left hleft => ?_
  -- the first handler closes its parameters, and no branch goes on like it
  obtain ⟨endpoint, endpoints, rfl⟩ := List.exists_cons_of_ne_nil hne
  obtain ⟨behind, hbehind⟩ :=
    exists_join_cons "\n\n" (blocHandler feature endpoint) (endpoints.map (blocHandler feature))
  obtain ⟨tail, htail⟩ := exists_blocHandler_tail feature endpoint
  have heq : Text.join "\n\n" ((endpoint :: endpoints).map (blocHandler feature)) ++ "\n" ++
      '\x7d' :: q = ("  Future<void> " ++ (endpoint.handlerName ++ ("(" ++
        joinNonempty [endpoint.typedParameters, emitterParameter feature]))) ++
        ')' :: (" async" ++ (tail ++ (behind ++ ("\n" ++ '\x7d' :: q)))) := by
    rw [List.map_cons, hbehind, htail]
    simp only [List.append_assoc, List.cons_append]
  have hclose : ∀ {text : Text}, Consists isSignatureChar text → ')' ∉ text := fun htext =>
    htext.not_mem (by decide)
  show after? .whenCase lineStart (left ++ '\n' ::
    (Text.join "\n\n" ((endpoint :: endpoints).map (blocHandler feature)) ++ "\n" ++ '\x7d' :: q)) =
      none
  rw [heq]
  refine after?_whenCase_of_closed hleft ?_ rfl rfl
  have hname := hclose (hplain endpoint (by simp)).handlerName.signature
  have hparameters := hclose ((hplain endpoint (by simp)).handlerParameters hfeature)
  simp only [List.mem_append, hname, hparameters]
  decide

/-- Handlers at the end of a class in the plain style register nothing. -/
theorem cut_plainBlocHandlers {s q : Text} (h : Anchor.registration.Cut a (s ++ '\x7d' :: q))
    (hin : Anchor.registration.Cut a s) (hfeature : feature.Plain)
    (hplain : ∀ endpoint ∈ endpoints, endpoint.Plain) (hne : endpoints ≠ []) :
    Anchor.registration.Cut a
      (s ++ (memberBlock "\n\n" (endpoints.map (plainBlocHandler feature)) ++ '\x7d' :: q)) := by
  have hinner : Anchor.registration.Silent
      (Text.join "\n\n" (endpoints.map (plainBlocHandler feature)) ++ "\n") := by
    refine Anchor.Silent.members (.inr rfl) (fun part hpart => ?_) (by simpa using hne)
    obtain ⟨endpoint, hendpoint, rfl⟩ := List.mem_map.1 hpart
    exact silent_plainBlocHandler hfeature (hplain endpoint hendpoint)
  refine Anchor.Cut.block (.inr rfl) h hin hinner fun lineStart left hleft => ?_
  have hnil : BreaksLine [] := by simp [BreaksLine]
  cases lineStart with
  | false => rfl
  | true =>
      rcases staysInLine_registrationLine? left [] _ hnil
        (by simp [BreaksLine] : BreaksLine ('\n' :: _)) with ⟨-, h'⟩ | ⟨left', h, -⟩
      · exact h'
      · rw [List.append_nil] at h
        rw [after?_registration, h] at hleft
        cases hleft

end Scaffold
