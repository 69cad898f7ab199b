import Scaffold.Proofs.Patch.RenderedBlocs
import Scaffold.Proofs.Patch.Seams

/-!
# Files that lack nothing

A file that has been extended by endpoints lacks nothing of them: extending it once more leaves it as
it is (`SourceFile.rests_extend`), and so it is with a file that has been rendered for them
(`SourceFile.rests_full`). Its text is read in between, which leaves no other line ends than line
feeds.
-/

namespace Scaffold

open Anchor

variable {feature : Feature} {endpoint : Endpoint} {endpoints : List Endpoint} {style : BlocStyle}
  {content result text name separator : Text} {members parts names : List Text}

/-! ## Gains -/

/-- The result has the members of the content and mentions the names. -/
structure Gains (content result : Text) (names : List Text) : Prop where
  keeps : KeepsMembers content result
  mentions : ∀ name ∈ names, Mentions result name

/-- A text that has gained the names which the content lacked lacks none when it is read. -/
theorem Gains.lacking_eq_nil {name : Endpoint → Text}
    (hwords : ∀ endpoint ∈ endpoints, IsWord (name endpoint))
    (h : Gains content result ((lacking content name endpoints).map name)) :
    lacking (universalNewlines result) name endpoints = [] := by
  refine List.filter_eq_nil_iff.2 fun endpoint hmem => ?_
  have hword := hwords endpoint hmem
  have hhas : hasMember result (name endpoint) = true := by
    cases hold : hasMember content (name endpoint) with
    | true => exact h.keeps _ hword hold
    | false =>
        have hlacks : endpoint ∈ lacking content name endpoints :=
          List.mem_filter.2 ⟨hmem, by simp [hold]⟩
        exact (h.mentions _ (List.mem_map_of_mem hlacks)).hasMember hword
  simp [hasMember_universalNewlines hword hhas]

/-- Putting in what is lacking leaves nothing lacking, if what is put in is gained. -/
theorem lacking_of_completeWith {insert : Text → List Endpoint → Except MissingAnchor Text}
    {name : Endpoint → Text} (hwords : ∀ endpoint ∈ endpoints, IsWord (name endpoint))
    (hgains : ∀ new ⊆ endpoints, new ≠ [] → insert content new = .ok result →
      Gains content result (new.map name))
    (h : completeWith insert content (lacking content name endpoints) = .ok result) :
    lacking (universalNewlines result) name endpoints = [] := by
  suffices hgains : Gains content result ((lacking content name endpoints).map name) from
    hgains.lacking_eq_nil hwords
  by_cases hnil : lacking content name endpoints = []
  · rw [hnil] at h ⊢
    obtain rfl := Except.ok.inj h
    exact ⟨.refl content, List.forall_mem_nil _⟩
  · rw [completeWith_of_ne_nil hnil] at h
    exact hgains _ (fun endpoint hmem => mem_of_mem_lacking hmem) hnil h

/-! ## What is put in is gained -/

theorem infix_preceded {part : Text} (h : part ∈ parts) (separator : Text) :
    part <:+: preceded separator parts := by
  obtain ⟨front, behind, rfl⟩ := List.append_of_mem h
  exact ⟨preceded separator front ++ separator, preceded separator behind, by simp [preceded]⟩

theorem infix_memberBlock {member : Text} (h : member ∈ members) (separator : Text) :
    member <:+: memberBlock separator members :=
  (Text.infix_join h).trans ⟨"\n", "\n", rfl⟩

theorem ClassFile.gains_insert {file : ClassFile} (hfeature : feature.Plain)
    (hplain : ∀ endpoint ∈ endpoints, endpoint.Plain) (hends : EndsImports content)
    (h : file.insert feature content endpoints = .ok result) :
    Gains content result (endpoints.map (·.methodName)) where
  keeps := keepsMembers_insert hfeature hplain hends h
  mentions := by
    rw [insert_eq] at h
    obtain ⟨⟨p, q⟩, -, rfl⟩ := map_eq_ok.1 h
    refine List.forall_mem_map.2 fun endpoint hmem => ?_
    have hmember := infix_memberBlock (List.mem_map_of_mem (f := file.member feature) hmem) "\n\n"
    exact (file.mentions_member feature endpoint).of_part (hmember.trans ⟨p, q, by simp⟩)

theorem gains_insertCases (hne : endpoints ≠ [])
    (h : insertAfterLast content .eventCase (preceded "\n\n" (endpoints.map (eventCase feature))) =
      .ok result) : Gains content result (endpoints.map (·.eventName)) where
  keeps := by
    refine keepsMembers_insertCases (fun a c hc => ?_) h
    have hcases : ∃ d, (a ++ preceded "\n\n" (endpoints.map (eventCase feature))).getLast? = some d ∧
        endsHead d = true := endsHead_eventCase a hne
    obtain ⟨d, hlast, hends⟩ := hcases
    obtain rfl : d = c := Option.some.inj (hlast.symm.trans hc)
    have hd : d = '\x7b' ∨ d = '\x7d' ∨ d = ';' := by simpa [endsHead, or_assoc] using hends
    rcases hd with rfl | rfl | rfl <;> decide
  mentions := by
    obtain ⟨a, b, rfl, -, rfl⟩ := exists_cut_of_insertAfterLast h
    refine List.forall_mem_map.2 fun endpoint hmem => ?_
    have hcase := infix_preceded (List.mem_map_of_mem (f := eventCase feature) hmem) "\n\n"
    exact (mentions_eventCase feature endpoint).of_part (hcase.trans ⟨a, b, by simp⟩)

theorem gains_insertFields
    (h : insertAfterLast content .stateFields (preceded "\n" (endpoints.map stateField)) =
      .ok result) : Gains content result (endpoints.map (·.stateField)) where
  keeps := keepsMembers_insertFields h
  mentions := by
    obtain ⟨a, b, rfl, -, rfl⟩ := exists_cut_of_insertAfterLast h
    refine List.forall_mem_map.2 fun endpoint hmem => ?_
    have hfield := infix_preceded (List.mem_map_of_mem (f := stateField) hmem) "\n"
    exact (mentions_stateField endpoint).of_part (hfield.trans ⟨a, b, by simp⟩)

namespace BlocStyle

/-- A handler mentions its name. -/
theorem mentions_handler (style : BlocStyle) (feature : Feature) (endpoint : Endpoint) :
    Mentions (style.handler feature endpoint) (style.handlerName endpoint) := by
  cases style with
  | unions =>
      have h : ∀ last : Text, Mentions (([] : Text) ++ "  Future<void> " ++ endpoint.handlerName ++
          "(" ++ last) endpoint.handlerName :=
        fun last => mentions_between [] endpoint.handlerName last (by decide) (by decide)
      show Mentions (blocHandler feature endpoint) endpoint.handlerName
      unfold blocHandler
      simpa only [List.append_assoc, List.nil_append] using h _
  | plain => exact mentions_plainBlocHandler feature endpoint

theorem gains_insert (hfeature : feature.Plain) (hplain : ∀ endpoint ∈ endpoints, endpoint.Plain)
    (hends : EndsImports content) (h : style.insert feature content endpoints = .ok result) :
    Gains content result (endpoints.map style.handlerName) where
  keeps := keepsMembers_insert hfeature hplain hends h
  mentions := by
    obtain ⟨middle, -, hclass⟩ := bind_eq_ok.1 h
    obtain ⟨p, q, hsplit⟩ := exists_classEnd_of_insertIntoClass hclass
    obtain rfl := splitClassEnd_eq_ok_append hsplit
    rw [insertIntoClass_eq hsplit] at hclass
    obtain rfl := Except.ok.inj hclass
    refine List.forall_mem_map.2 fun endpoint hmem => ?_
    have hhandler := infix_memberBlock (List.mem_map_of_mem (f := style.handler feature) hmem) "\n\n"
    exact (style.mentions_handler feature endpoint).of_part (hhandler.trans ⟨p, q, by simp⟩)

theorem isWord_handlerName (style : BlocStyle) (h : endpoint.Plain) :
    IsWord (style.handlerName endpoint) := by
  cases style with
  | unions => exact h.handlerName.isWord (by simp [Endpoint.handlerName])
  | plain => exact h.plainHandler.isWord (by simp [Endpoint.plainHandler])

end BlocStyle

/-! ## Declarations of the plain style -/

/-- What holds no brace stays in a text to which declarations are appended, and each declaration
stands in it. -/
theorem infix_appendDeclarations {declarations : List Text}
    (h : appendDeclarations content declarations = .ok result) :
    (∀ mark : Text, '\x7d' ∉ mark → mark <:+: content → mark <:+: result) ∧
      ∀ declaration ∈ declarations, declaration <:+: result := by
  obtain ⟨p, q, rfl, -, rfl⟩ := appendDeclarations_eq_ok.1 h
  constructor
  · intro mark hmark hin
    have hin : mark <:+: (p ++ ['\x7d']) ++ q := by simpa using hin
    rcases Text.infix_of_append_of_last hin (by simpa using hmark) with hin | hin
    · exact hin.trans ⟨[], "\n\n" ++ (Text.join "\n\n" declarations ++ q), by simp⟩
    · exact hin.trans ⟨p ++ '\x7d' :: ("\n\n" ++ Text.join "\n\n" declarations), [], by simp⟩
  · intro declaration hmem
    have hjoin : declaration <:+: Text.join "\n\n" declarations := Text.infix_join hmem
    exact hjoin.trans ⟨p ++ '\x7d' :: "\n\n", q, by simp⟩

/-- What declares a class holds words and spaces alone. -/
theorem not_mem_declaration {c : Char} (hname : AsciiWordy name) (hword : isWordChar c = false)
    (hspace : c ≠ ' ') : c ∉ ("class " ++ name ++ " " : Text) := by
  have hclass : ∀ d ∈ ("class " : Text), isWordChar d = true ∨ d = ' ' := by decide
  rintro hmem
  rcases List.mem_append.1 hmem with hmem | hmem
  · rcases List.mem_append.1 hmem with hmem | hmem
    · rcases hclass c hmem with hc | hc
      · exact absurd (hword.symm.trans hc) (by decide)
      · exact hspace hc
    · exact absurd (hword.symm.trans (isWordChar_of_ascii (hname c hmem))) (by decide)
  · exact hspace (List.mem_singleton.1 hmem)

theorem declaresClass_universalNewlines (hname : AsciiWordy name) (text : Text) :
    declaresClass (universalNewlines text) name = declaresClass text name := by
  rw [Bool.eq_iff_iff, declaresClass, declaresClass, Text.occursIn_iff, Text.occursIn_iff]
  exact infix_universalNewlines_iff (not_mem_declaration hname (by decide) (by decide))
    (not_mem_declaration hname (by decide) (by decide))

/-- Declaring the classes that are lacking leaves none of them lacking. -/
theorem undeclared_of_completeWith {α : Type} {items : List α} {label render : α → Text}
    (hlabel : ∀ item ∈ items, AsciiWordy (label item))
    (hrender : ∀ item ∈ items, declaresClass (render item) (label item) = true)
    (h : completeWith (fun content new => appendDeclarations content (new.map render)) content
      (items.filter fun item => !declaresClass content (label item)) = .ok result) :
    (items.filter fun item => !declaresClass (universalNewlines result) (label item)) = [] := by
  refine List.filter_eq_nil_iff.2 fun item hmem => ?_
  have hbrace := not_mem_declaration (hlabel item hmem) (c := '\x7d') (by decide) (by decide)
  have hdeclares : declaresClass result (label item) = true := by
    by_cases hnil : (items.filter fun item => !declaresClass content (label item)) = []
    · rw [hnil] at h
      obtain rfl := Except.ok.inj h
      simpa using List.filter_eq_nil_iff.1 hnil item hmem
    · rw [completeWith_of_ne_nil hnil] at h
      obtain ⟨hkeeps, hnew⟩ := infix_appendDeclarations h
      rw [declaresClass, Text.occursIn_iff]
      cases hold : declaresClass content (label item) with
      | true => exact hkeeps _ hbrace (Text.occursIn_iff.1 hold)
      | false =>
          have hrendered := Text.occursIn_iff.1 (hrender item hmem)
          exact hrendered.trans (hnew _ (List.mem_map_of_mem (List.mem_filter.2 ⟨hmem, by simp [hold]⟩)))
  simp [declaresClass_universalNewlines (hlabel item hmem), hdeclares]

theorem declaresClass_opening (name rest : Text) :
    declaresClass ("class " ++ (name ++ (" extends " ++ rest))) name = true :=
  Text.occursIn_iff.2 ⟨[], "extends " ++ rest, by simp⟩

theorem declaresClass_plainEventClass (feature : Feature) (endpoint : Endpoint) :
    declaresClass (plainEventClass feature endpoint) endpoint.plainEvent = true := by
  unfold plainEventClass
  dsimp only
  split <;> simp only [List.append_assoc, declaresClass_opening]

theorem declaresClass_plainStates (feature : Feature) (endpoint : Endpoint) :
    ∀ state ∈ plainStates feature endpoint, declaresClass state.2 state.1 = true := by
  have hopening : ∀ base ending rest : Text,
      declaresClass ("class " ++ (base ++ (ending ++ (" extends " ++ rest)))) (base ++ ending) =
        true := fun base ending rest => by
    rw [← List.append_assoc base]
    exact declaresClass_opening ..
  unfold plainStates plainStateClass
  simp only [List.forall_mem_cons, List.append_assoc, hopening, true_and]
  exact List.forall_mem_nil _

theorem asciiWordy_plainStates (h : endpoint.Plain) :
    ∀ state ∈ plainStates feature endpoint, AsciiWordy state.1 := by
  simp only [plainStates, List.forall_mem_cons]
  exact ⟨h.baseName.append (by decide), h.baseName.append (by decide),
    h.baseName.append (by decide), List.forall_mem_nil _⟩

/-! ## Styles and texts that are read -/

theorem occursIn_universalNewlines {mark : Text} (hbreak : '\n' ∉ mark) (hreturn : '\r' ∉ mark)
    (text : Text) : Text.occursIn mark (universalNewlines text) = Text.occursIn mark text := by
  rw [Bool.eq_iff_iff, Text.occursIn_iff, Text.occursIn_iff, infix_universalNewlines_iff hbreak hreturn]

theorem usesUnions_universalNewlines (text : Text) :
    usesUnions (universalNewlines text) = usesUnions text := by
  unfold usesUnions
  rw [occursIn_universalNewlines (by decide) (by decide),
    occursIn_universalNewlines (by decide) (by decide)]

theorem handsOnCases_universalNewlines (text : Text) :
    handsOnCases (universalNewlines text) = handsOnCases text :=
  occursIn_universalNewlines (by decide) (by decide) text

theorem BlocStyle.ofContent_universalNewlines (text : Text) :
    ofContent (universalNewlines text) = ofContent text := by
  rw [ofContent, ofContent, handsOnCases_universalNewlines]

/-! ## Files at rest -/

/-- Extending what is read of the text leaves it as it is. -/
def Part.Rests (part : Part) (text : Text) : Prop :=
  part.extend (universalNewlines text) = .ok (universalNewlines text)

namespace SourceFile

variable {source : SourceFile}

theorem inStyle_universalNewlines (source : SourceFile) (text : Text) :
    source.inStyle (universalNewlines text) = source.inStyle text := by
  cases source with
  | ofClass file => rfl
  | event => exact usesUnions_universalNewlines text
  | state => exact usesUnions_universalNewlines text
  | bloc => exact handsOnCases_universalNewlines text

/-- A file in the union style rests if it lacks no members when it is read. -/
theorem rests_of_inStyle (hstyle : source.inStyle text = true)
    (h : lacking (universalNewlines text) (source.memberName ·) endpoints = []) :
    (source.part feature endpoints).Rests text := by
  rw [Part.Rests, extend_of_inStyle (by rwa [inStyle_universalNewlines]), h]
  rfl

/-- A file that has been rendered for endpoints lacks none of them. -/
theorem rests_full (source : SourceFile) (feature : Feature)
    (hplain : ∀ endpoint ∈ endpoints, endpoint.Plain)
    (hnames : ∀ endpoint ∈ endpoints, endpoint.methodName ≠ []) (hne : endpoints ≠ []) :
    (source.part feature endpoints).Rests (source.part feature endpoints).full := by
  refine rests_of_inStyle (source.inStyle_full feature hne) ?_
  refine List.filter_eq_nil_iff.2 fun endpoint hmem => ?_
  have hword := source.isWord_memberName (hplain endpoint hmem) (hnames endpoint hmem)
  have hhas := (source.mentions_full feature hmem).hasMember hword
  simp [hasMember_universalNewlines hword hhas]

theorem gains_insert (source : SourceFile) (hfeature : feature.Plain)
    (hplain : ∀ endpoint ∈ endpoints, endpoint.Plain) (hends : EndsImports content)
    (hne : endpoints ≠ []) (h : source.insert feature content endpoints = .ok result) :
    Gains content result (endpoints.map (source.memberName ·)) := by
  cases source with
  | ofClass file => exact file.gains_insert hfeature hplain hends h
  | event => exact gains_insertCases hne h
  | state => exact gains_insertFields h
  | bloc => exact BlocStyle.gains_insert hfeature hplain hends h

/-- A file in the union style stays in it when members are put in. -/
theorem inStyle_insert (hstyle : source.inStyle content = true)
    (h : source.insert feature content endpoints = .ok result) : source.inStyle result = true := by
  cases source with
  | ofClass file => rfl
  | event =>
      obtain ⟨a, b, rfl, hcut, rfl⟩ := exists_cut_of_insertAfterLast h
      exact usesUnions_insert (.inr hcut.getLast?_eventCase) hstyle
  | state =>
      obtain ⟨a, b, rfl, hcut, rfl⟩ := exists_cut_of_insertAfterLast h
      exact usesUnions_insert (.inl hcut.breaksLine_stateFields) hstyle
  | bloc => exact handsOnCases_insertBloc hstyle h

/-- A file in the union style that has been extended lacks nothing. -/
theorem rests_extend_of_inStyle (hfeature : feature.Plain)
    (hplain : ∀ endpoint ∈ endpoints, endpoint.Plain)
    (hnames : ∀ endpoint ∈ endpoints, endpoint.methodName ≠ []) (hends : EndsImports content)
    (hstyle : source.inStyle content = true)
    (h : (source.part feature endpoints).extend content = .ok result) :
    (source.part feature endpoints).Rests result := by
  rw [extend_of_inStyle hstyle] at h
  refine rests_of_inStyle ?_ (lacking_of_completeWith (fun endpoint hmem =>
    source.isWord_memberName (hplain endpoint hmem) (hnames endpoint hmem)) (fun new hsub hne =>
      source.gains_insert hfeature (fun endpoint hmem => hplain endpoint (hsub hmem)) hends hne) h)
  by_cases hnil : lacking content (source.memberName ·) endpoints = []
  · rw [hnil] at h
    obtain rfl := Except.ok.inj h
    exact hstyle
  · rw [completeWith_of_ne_nil hnil] at h
    exact inStyle_insert hstyle h

/-- Declarations of the plain style leave the style of a text. -/
theorem usesUnions_of_completeWith {α : Type} {items : List α} {render : α → Text}
    (hplain : ∀ item ∈ items, PlainDeclaration (render item))
    (h : completeWith (fun content new => appendDeclarations content (new.map render)) content items =
      .ok result) : usesUnions result = usesUnions content := by
  by_cases hnil : items = []
  · subst hnil
    rw [Except.ok.inj h]
  · rw [completeWith_of_ne_nil hnil] at h
    exact usesUnions_appendDeclarations (List.forall_mem_map.2 hplain) (by simpa using hnil) h

theorem rests_extendEvents (hfeature : feature.Plain)
    (hplain : ∀ endpoint ∈ endpoints, endpoint.Plain) (hstyle : usesUnions content = false)
    (h : extendEvents feature content endpoints = .ok result) :
    (eventPart feature endpoints).Rests result := by
  rw [extendEvents_eq, hstyle, if_neg (by decide)] at h
  have hsame := usesUnions_of_completeWith (fun endpoint hmem =>
    plainDeclaration_event hfeature (hplain endpoint (List.mem_of_mem_filter hmem))) h
  show extendEvents feature _ endpoints = _
  rw [extendEvents_eq, usesUnions_universalNewlines, hsame, hstyle, if_neg (by decide),
    undeclared_of_completeWith (fun endpoint hmem => (hplain endpoint hmem).plainEvent)
      (fun endpoint _ => declaresClass_plainEventClass feature endpoint) h]
  rfl

theorem rests_extendState (hfeature : feature.Plain)
    (hplain : ∀ endpoint ∈ endpoints, endpoint.Plain) (hstyle : usesUnions content = false)
    (h : extendState feature content endpoints = .ok result) :
    (statePart feature endpoints).Rests result := by
  have hmem : ∀ {state}, state ∈ endpoints.flatMap (plainStates feature) →
      ∃ endpoint ∈ endpoints, state ∈ plainStates feature endpoint :=
    fun hstate => List.mem_flatMap.1 hstate
  rw [extendState_eq, hstyle, if_neg (by decide)] at h
  have hsame := usesUnions_of_completeWith (fun state hstate => by
    obtain ⟨endpoint, hendpoint, hstate⟩ := hmem (List.mem_of_mem_filter hstate)
    exact plainDeclaration_states hfeature (hplain endpoint hendpoint) state hstate) h
  show extendState feature _ endpoints = _
  rw [extendState_eq, usesUnions_universalNewlines, hsame, hstyle, if_neg (by decide),
    undeclared_of_completeWith (fun state hstate => by
        obtain ⟨endpoint, hendpoint, hstate⟩ := hmem hstate
        exact asciiWordy_plainStates (hplain endpoint hendpoint) state hstate)
      (fun state hstate => by
        obtain ⟨endpoint, -, hstate⟩ := hmem hstate
        exact declaresClass_plainStates feature endpoint state hstate) h]
  rfl

theorem rests_extendBloc (hfeature : feature.Plain)
    (hplain : ∀ endpoint ∈ endpoints, endpoint.Plain) (hends : EndsImports content)
    (h : extendBloc feature content endpoints = .ok result) :
    (blocPart feature endpoints).Rests result := by
  rw [extendBloc_eq_completeWith] at h
  have hsame : BlocStyle.ofContent result = BlocStyle.ofContent content := by
    by_cases hnil : lacking content (BlocStyle.ofContent content).handlerName endpoints = []
    · rw [hnil] at h
      rw [Except.ok.inj h]
    · rw [completeWith_of_ne_nil hnil] at h
      exact BlocStyle.ofContent_insert hfeature
        (fun endpoint hmem => hplain endpoint (mem_of_mem_lacking hmem)) hnil rfl h
  show extendBloc feature _ endpoints = _
  rw [extendBloc_eq_completeWith, BlocStyle.ofContent_universalNewlines, hsame,
    lacking_of_completeWith (fun endpoint hmem => BlocStyle.isWord_handlerName _ (hplain endpoint hmem))
      (fun new hsub _ => BlocStyle.gains_insert hfeature
        (fun endpoint hmem => hplain endpoint (hsub hmem)) hends) h]
  rfl

/-- A file that has been extended lacks nothing. -/
theorem rests_extend (source : SourceFile) (hfeature : feature.Plain)
    (hplain : ∀ endpoint ∈ endpoints, endpoint.Plain)
    (hnames : ∀ endpoint ∈ endpoints, endpoint.methodName ≠ []) (hends : EndsImports content)
    (h : (source.part feature endpoints).extend content = .ok result) :
    (source.part feature endpoints).Rests result := by
  by_cases hstyle : source.inStyle content = true
  · exact rests_extend_of_inStyle hfeature hplain hnames hends hstyle h
  · have hstyle := Bool.eq_false_iff.2 hstyle
    cases source with
    | ofClass file => cases hstyle
    | event => exact rests_extendEvents hfeature hplain hstyle h
    | state => exact rests_extendState hfeature hplain hstyle h
    | bloc => exact rests_extendBloc hfeature hplain hends h

end SourceFile

end Scaffold
