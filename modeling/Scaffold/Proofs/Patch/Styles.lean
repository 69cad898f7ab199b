import Scaffold.Proofs.Dart.Signatures
import Scaffold.Proofs.Patch.BlocBatches

/-!
# Styles are kept

A file stays in the style it is written in when members are put in: `usesUnions_appendDeclarations`,
`usesUnions_insert` and `BlocStyle.ofContent_insert`.
-/

namespace Scaffold

open Anchor

variable {style : BlocStyle} {feature : Feature} {endpoint : Endpoint} {endpoints : List Endpoint}
  {a b p q s u v x y text content result mark piece : Text} {declarations parts : List Text}

/-! ## Lists of arguments -/

/-- The types that sent parameters are declared with. -/
def declaredTypes : List Text := parameterTypes ++ parameterTypes.map fun type => type ++ ['?']

theorem Endpoint.Plain.declaredType (h : endpoint.Plain) :
    ∀ argument ∈ endpoint.arguments,
      argument.declaredType ∈ declaredTypes ∨ argument.declaredType = endpoint.requestModel := by
  intro argument hargument
  have hsent : ∀ location : Text, ∀ parameter ∈ endpoint.parametersIn location,
      parameter.type ∈ parameterTypes := fun location parameter hparameter =>
    h.type_mem parameter (List.mem_filter.1 hparameter).1
  unfold Endpoint.arguments at hargument
  rcases List.mem_append.1 hargument with hargument | hargument
  · rcases List.mem_append.1 hargument with hargument | hargument
    · obtain ⟨parameter, hparameter, rfl⟩ := List.mem_map.1 hargument
      exact .inl (List.mem_append_left _ (hsent "path" parameter hparameter))
    · obtain ⟨parameter, hparameter, rfl⟩ := List.mem_map.1 hargument
      exact .inl (List.mem_append_right _ (List.mem_map_of_mem (hsent "query" parameter hparameter)))
  · split at hargument
    · rw [List.mem_singleton.1 hargument]
      exact .inr rfl
    · simp at hargument

theorem Endpoint.Plain.comma_not_mem_typed (h : endpoint.Plain) :
    ∀ argument ∈ endpoint.arguments, ',' ∉ argument.typed := by
  intro argument hargument
  have hname : ',' ∉ argument.name :=
    (h.argument argument hargument).1.consists.not_mem (by decide)
  have htype : ',' ∉ argument.declaredType := by
    have hall : ∀ type ∈ declaredTypes, ',' ∉ type := by decide
    rcases h.declaredType argument hargument with hmem | heq
    · exact hall _ hmem
    · rw [heq]
      exact h.requestModel.consists.not_mem (by decide)
  unfold Argument.typed
  simp only [List.mem_append, hname, htype]
  decide

theorem Endpoint.Plain.splitCommas_typedParameters (h : endpoint.Plain)
    (hne : endpoint.arguments ≠ []) :
    splitCommas endpoint.typedParameters = endpoint.arguments.map (·.typed) := by
  rw [typedParameters_eq]
  refine splitCommas_commas (fun part hpart => ?_) (by simpa using hne)
  obtain ⟨argument, hargument, rfl⟩ := List.mem_map.1 hpart
  exact Text.avoids_of_not_mem (by decide) (h.comma_not_mem_typed argument hargument)

theorem Endpoint.Plain.splitCommas_callArguments (h : endpoint.Plain)
    (hne : endpoint.arguments ≠ []) :
    splitCommas endpoint.callArguments = endpoint.arguments.map (·.name) := by
  rw [callArguments_eq]
  refine splitCommas_commas (fun part hpart => ?_) (by simpa using hne)
  obtain ⟨argument, hargument, rfl⟩ := List.mem_map.1 hpart
  exact Text.avoids_of_not_mem (by decide)
    ((h.argument argument hargument).1.consists.not_mem (by decide : isAsciiWordChar ',' = false))

/-! ## Declarations of the plain style -/

/-- No type of an argument ends like `const`. -/
theorem avoids_typed (h : endpoint.Plain) :
    ∀ argument ∈ endpoint.arguments, Text.Avoids "nst " argument.typed := by
  intro argument hargument
  have hname : ' ' ∉ argument.name := (h.argument argument hargument).1.consists.not_mem (by decide)
  have htype : Text.Avoids "nst " (argument.declaredType ++ " ") := by
    have hall : ∀ type ∈ declaredTypes, Text.occursIn "nst " (type ++ [' ']) = false := by
      decide
    rcases h.declaredType argument hargument with hmem | heq
    · exact Text.occursIn_eq_false_iff.1 (hall _ hmem)
    · rw [heq]
      unfold Endpoint.requestModel
      rw [List.append_assoc]
      refine Text.Avoids.append_of_head (Text.avoids_of_not_mem (c := ' ') (by decide)
        (h.baseName.consists.not_mem (by decide))) (Text.occursIn_eq_false_iff.1 rfl) ?_
      rintro c ⟨⟩
      decide
  unfold Argument.typed
  exact htype.append_of_end (c := ' ') (by decide) hname

section

variable {name : Text}

theorem avoids_append_word (ha : Text.Avoids "nst " a) (hname : AsciiWordy name) :
    Text.Avoids "nst " (a ++ name) :=
  ha.append_of_end (c := ' ') (by decide) (hname.consists.not_mem (by decide))

theorem avoids_append_mark (ha : Text.Avoids "nst " a) (hb : Text.Avoids "nst " b)
    (hhead : (b.head?.any fun c => ("nst ".toList).contains c) = false) :
    Text.Avoids "nst " (a ++ b) := by
  refine ha.append_of_head hb fun c hc hmem => ?_
  rw [hc] at hhead
  simp only [Option.any_some] at hhead
  rw [List.contains_iff_mem.2 hmem] at hhead
  cases hhead

theorem avoids_behind_mark {sign : Text} (ha : Text.Avoids "nst " (a ++ sign))
    (hb : Text.Avoids "nst " b)
    (hlast : (sign.getLast?.any fun c => !("nst ".toList).contains c) = true) :
    Text.Avoids "nst " (a ++ sign ++ b) := by
  obtain ⟨c, hc, hmark⟩ := (Option.any_eq_true _ _).1 hlast
  refine ha.append_of_last hb fun d hd hmem => ?_
  have hne : sign ≠ [] := by
    rintro rfl
    cases hc
  rw [List.getLast?_append_of_ne_nil _ hne, hc] at hd
  obtain rfl := Option.some.inj hd
  rw [Bool.not_eq_true', List.contains_iff_mem.2 hmem] at hmark
  cases hmark

theorem avoids_behind_blank (ha : Text.Avoids "nst " a) (hb : Text.Avoids "nst " b)
    (hlast : a.getLast? = some ' ') : Text.Avoids "nst " (a ++ b) := by
  refine ha.append_of_split hb ?_
  rintro first second hmark hfirst hsecond ⟨front, rfl⟩ -
  -- the blank of the mark is its last character
  obtain ⟨second, c, rfl⟩ := (List.eq_nil_or_concat second).resolve_left hsecond
  rw [List.getLast?_append_of_ne_nil _ hfirst] at hlast
  have hmem : ' ' ∈ first ++ second := List.mem_append_left _ (List.mem_of_getLast? hlast)
  have hinit : first ++ second = "nst" := by
    have hblank : ("nst " : Text) = "nst" ++ [' '] := Text.literal_append rfl
    rw [List.concat_eq_append, ← List.append_assoc, hblank] at hmark
    exact (List.append_inj_left' hmark rfl).symm
  rw [hinit] at hmem
  exact absurd hmem (by decide)

/-- The head of a class that extends another one. -/
theorem avoids_classHead {base parent : Text} (hbase : AsciiWordy base) (hparent : AsciiWordy parent)
    (first second : Text) (hfirst : Text.occursIn "nst " (first ++ " extends ") = false)
    (hsecond : Text.occursIn "nst " (second ++ " \x7b") = false)
    (hhead : ((first ++ " extends ").head?.any fun c => ("nst ".toList).contains c) = false)
    (hhead' : ((second ++ " \x7b").head?.any fun c => ("nst ".toList).contains c) = false) :
    Text.Avoids "nst "
      ("class " ++ (base ++ first) ++ " extends " ++ (parent ++ second) ++ " \x7b") := by
  have heq : ("class " ++ (base ++ first) ++ " extends " ++ (parent ++ second) ++ " \x7b" : Text) =
      (("class " ++ base) ++ (first ++ " extends ") ++ parent) ++ (second ++ " \x7b") := by
    simp only [List.append_assoc]
  rw [heq]
  exact avoids_append_mark (avoids_append_word (avoids_append_mark
    (avoids_append_word (.literal (by decide)) hbase) (Text.occursIn_eq_false_iff.1 hfirst) hhead)
      hparent) (Text.occursIn_eq_false_iff.1 hsecond) hhead'

end

theorem avoids_plainEventClass (hfeature : feature.Plain) (h : endpoint.Plain) :
    Text.Avoids "nst " (plainEventClass feature endpoint) := by
  have hopening : Text.Avoids "nst "
      ("class " ++ endpoint.plainEvent ++ " extends " ++ feature.eventClass ++ " \x7b") :=
    avoids_classHead h.baseName hfeature.name.pascal "Event" "Event" rfl
      rfl (by decide) (by decide)
  unfold plainEventClass
  dsimp only
  split
  · exact avoids_append_mark hopening (.literal (by decide)) (by decide)
  · next hne =>
    have harguments : endpoint.arguments ≠ [] := by
      intro hnil
      rw [Endpoint.callArguments_eq, hnil] at hne
      exact hne rfl
    rw [h.splitCommas_callArguments harguments, h.splitCommas_typedParameters harguments]
    have hfields : Text.Avoids "nst " (commas ((endpoint.arguments.map (·.name)).map
        (memberOf "this"))) := by
      refine avoids_commas (by decide) (by decide) (by decide) fun part hpart => ?_
      obtain ⟨name, hname, rfl⟩ := List.mem_map.1 hpart
      obtain ⟨argument, hargument, rfl⟩ := List.mem_map.1 hname
      exact avoids_append_word (Text.occursIn_eq_false_iff.1 rfl) (h.argument argument hargument).1
    have hfinals : Text.Avoids "nst " (Text.join "\n" ((endpoint.arguments.map (·.typed)).map
        finalField)) := by
      refine avoids_join (by decide) (by decide) rfl rfl (.literal (by decide)) fun part hpart => ?_
      obtain ⟨typed, htyped, rfl⟩ := List.mem_map.1 hpart
      obtain ⟨argument, hargument, rfl⟩ := List.mem_map.1 htyped
      unfold finalField
      exact avoids_append_mark (avoids_behind_blank (.literal (by decide))
        (avoids_typed h argument hargument) rfl) (.literal (by decide)) (by decide)
    have hhead := avoids_append_mark (avoids_append_word (avoids_append_mark hopening
      (b := "\n  ") (.literal (by decide)) (by decide)) h.plainEvent) (b := "(")
      (.literal (by decide)) (by decide)
    have hcall := avoids_append_mark (avoids_behind_mark hhead hfields (by decide))
      (b := ");\n\n") (.literal (by decide)) (by decide)
    exact avoids_append_mark (avoids_behind_mark hcall hfinals (by decide)) (.literal (by decide))
      (by decide)

theorem avoids_plainStates (hfeature : feature.Plain) (h : endpoint.Plain) :
    ∀ state ∈ plainStates feature endpoint, Text.Avoids "nst " state.2 := by
  have hhead : ∀ first : Text, Text.occursIn "nst " (first ++ " extends ") = false →
      ((first ++ " extends ").head?.any fun c => ("nst ".toList).contains c) = false →
      Text.Avoids "nst " ("class " ++ (endpoint.baseName ++ first) ++ " extends " ++
        feature.stateClass ++ " \x7b") := fun first hfirst hmark =>
    avoids_classHead h.baseName hfeature.name.pascal first "State" hfirst rfl hmark
      (by decide)
  have hclass : ∀ first type field : Text, AsciiWordy first → AsciiWordy field →
      Text.occursIn "nst " (first ++ " extends ") = false →
      ((first ++ " extends ").head?.any fun c => ("nst ".toList).contains c) = false →
      Text.Avoids "nst " (type ++ " ") →
      Text.Avoids "nst " (plainStateClass feature (endpoint.baseName ++ first) type field) := by
    intro first type field hfirst hfield hlast hmark htype
    have hname : AsciiWordy (endpoint.baseName ++ first) := h.baseName.append hfirst
    have hopening := avoids_append_mark (hhead first hlast hmark) (b := "\n") (.literal (by decide))
      (by decide)
    have hconstructor := avoids_append_mark (avoids_append_word (avoids_append_mark
      (avoids_append_word (avoids_behind_mark hopening (b := "  ") (.literal (by decide))
        (by decide))
        hname) (b := "(this.") (.literal (by decide)) (by decide)) hfield) (b := ");\n\n")
      (.literal (by decide)) (by decide)
    have hfinal := avoids_behind_mark hconstructor (b := "  final ") (.literal (by decide))
      (by decide)
    have htyped := avoids_behind_blank hfinal htype (by
      rw [List.getLast?_append_of_ne_nil _ (by decide)]
      rfl)
    have hall := avoids_append_mark (avoids_append_word htyped hfield) (b := ";\n\x7d")
      (.literal (by decide)) (by decide)
    have hbrace : (" \x7b\n" : Text) = " \x7b" ++ "\n" := Text.literal_append rfl
    unfold plainStateClass
    rw [hbrace]
    simpa only [List.append_assoc] using hall
  have hreturn : Text.Avoids "nst " (endpoint.returnType ++ " ") := by
    unfold Endpoint.returnType
    split
    · unfold Endpoint.responseModel
      rw [List.append_assoc]
      refine avoids_append_mark ?_ (Text.occursIn_eq_false_iff.1 rfl) (by decide)
      exact avoids_append_word (a := []) (Text.avoids_of_not_mem (c := ' ') (by decide) (by simp))
        h.baseName
    · exact Text.occursIn_eq_false_iff.1 (by decide)
  intro state hstate
  unfold plainStates at hstate
  simp only [List.mem_cons, List.not_mem_nil, or_false] at hstate
  rcases hstate with rfl | rfl | rfl
  · have hbraces : (" \x7b\x7d" : Text) = " \x7b" ++ "\x7d" := Text.literal_append rfl
    dsimp only
    rw [hbraces, ← List.append_assoc]
    exact avoids_append_mark (hhead "LoadingState" rfl (by decide))
      (.literal (by decide)) (by decide)
  · exact hclass "SuccessState" _ "data" (by decide) (by decide) rfl (by decide) hreturn
  · exact hclass "ErrorState" "String" "message" (by decide) (by decide) rfl
      (by decide) (Text.occursIn_eq_false_iff.1 rfl)

/-! ## Unions -/

theorem appendDeclarations_eq_ok : appendDeclarations content declarations = .ok result ↔
    ∃ p q, content = p ++ '\x7d' :: q ∧ '\x7d' ∉ q ∧
      result = p ++ '\x7d' :: ("\n\n" ++ (Text.join "\n\n" declarations ++ q)) := by
  constructor
  · intro h
    unfold appendDeclarations at h
    split at h
    · cases h
    · next p fromBrace hsplit =>
      obtain ⟨⟨q, rfl⟩, havoids⟩ := Text.splitLast?_eq_some hsplit (by decide)
      obtain rfl := Except.ok.inj h
      refine ⟨p, q, Text.splitLast?_eq_some_append hsplit, fun hmem => havoids ?_, ?_⟩
      · exact (List.singleton_infix_iff _ _).2 hmem
      · simp
  · rintro ⟨p, q, rfl, hq, rfl⟩
    have hsplit : Text.splitLast? "\x7d" (p ++ '\x7d' :: q) = some (p, '\x7d' :: q) :=
      Text.splitLast?_append ⟨q, rfl⟩ (Text.avoids_of_not_mem (by decide) hq)
    unfold appendDeclarations
    rw [hsplit]
    simp

/-- A declaration of the plain style: it ends with a brace and declares no union. -/
structure PlainDeclaration (declaration : Text) : Prop where
  closed : declaration.getLast? = some '\x7d'
  no_sign : '@' ∉ declaration
  no_factory : Text.Avoids "nst " declaration

theorem usesUnions_congr
    (hfreezed : "@freezed".toList <:+: x ↔ "@freezed".toList <:+: y)
    (hfactory : "const factory".toList <:+: x ↔ "const factory".toList <:+: y) :
    usesUnions x = usesUnions y := by
  unfold usesUnions
  rw [← Text.occursIn_iff, ← Text.occursIn_iff, ← Bool.eq_iff_iff] at hfreezed hfactory
  rw [hfreezed, hfactory]

theorem getLast?_join (separator : Text) {c : Char}
    (h : ∀ part ∈ parts, part.getLast? = some c) (hne : parts ≠ []) :
    (Text.join separator parts).getLast? = some c := by
  induction parts with
  | nil => exact absurd rfl hne
  | cons part parts ih =>
      by_cases hnil : parts = []
      · subst hnil
        simpa using h part (by simp)
      · have ih := ih (fun other hother => h other (by simp [hother])) hnil
        have hjoin : Text.join separator parts ≠ [] := by
          intro hnil
          rw [hnil] at ih
          cases ih
        rw [Text.join_cons part hnil, List.getLast?_append_of_ne_nil _ hjoin, ih]

/-- Declarations of the plain style leave the style of a file. -/
theorem usesUnions_appendDeclarations (hplain : ∀ declaration ∈ declarations,
      PlainDeclaration declaration) (hne : declarations ≠ [])
    (h : appendDeclarations content declarations = .ok result) :
    usesUnions result = usesUnions content := by
  obtain ⟨p, q, rfl, -, rfl⟩ := appendDeclarations_eq_ok.1 h
  have hclosed := getLast?_join "\n\n" (fun part hpart => (hplain part hpart).closed) hne
  have hins : ∀ mark : Text, '\n' ∉ mark → '\x7d' ∉ mark →
      Text.Avoids mark ("\n\n" ++ Text.join "\n\n" declarations) →
      (mark <:+: p ++ '\x7d' :: ("\n\n" ++ (Text.join "\n\n" declarations ++ q)) ↔
        mark <:+: p ++ '\x7d' :: q) := by
    intro mark hbreak hbrace havoids
    have hlast : ∀ {a b : Text}, a.getLast? = some '\x7d' → mark <:+: a ++ b →
        mark <:+: a ∨ mark <:+: b := fun ha hin =>
      Text.infix_of_append_of_last hin fun c hc => by
        rw [ha] at hc
        obtain rfl := Option.some.inj hc
        exact hbrace
    have hjoin : Text.join "\n\n" declarations ≠ [] := by
      intro hnil
      rw [hnil] at hclosed
      cases hclosed
    have hiff := infix_insert_iff (p := p ++ ['\x7d']) (q := q) havoids
      (infix_of_lineJoint (.inr (by rintro c ⟨⟩; rfl)) hbreak)
      (hlast (by rw [List.getLast?_append_of_ne_nil _ hjoin, hclosed])) (hlast (by simp))
    simpa using hiff
  have hbreaks : ∀ mark : Text, '\n' ∉ mark → mark ≠ [] → Text.Avoids mark ("\n\n" : Text) →
      (∀ declaration ∈ declarations, Text.Avoids mark declaration) →
      Text.Avoids mark ("\n\n" ++ Text.join "\n\n" declarations) :=
    fun mark hbreak hmark hlines hall => avoids_of_lineJoint (.inl rfl) hbreak hlines
      (avoids_join hbreak hmark rfl rfl hlines hall)
  refine usesUnions_congr (hins _ (by decide) (by decide) (hbreaks _ (by decide) (by decide)
    (.literal (by decide)) fun declaration hmem => ?_)) (hins _ (by decide) (by decide) (hbreaks _
    (by decide) (by decide) (.literal (by decide)) fun declaration hmem hin => ?_))
  · exact Text.avoids_of_not_mem (c := '@') (by decide) (hplain declaration hmem).no_sign
  · exact (hplain declaration hmem).no_factory
      (List.IsInfix.trans (by decide +kernel : "nst ".toList <:+: "const factory") hin)

/-- Declarations may be appended in batches. -/
theorem appendDeclarations_append {others : List Text}
    (hclosed : ∀ declaration ∈ declarations, declaration.getLast? = some '\x7d')
    (hne : declarations ≠ []) (hothers : others ≠ [])
    (h : appendDeclarations content (declarations ++ others) = .ok result) :
    ∃ middle, appendDeclarations content declarations = .ok middle ∧
      appendDeclarations middle others = .ok result := by
  obtain ⟨p, q, rfl, hq, rfl⟩ := appendDeclarations_eq_ok.1 h
  obtain ⟨front, hfront⟩ := List.getLast?_eq_some_iff.1
    (getLast?_join "\n\n" hclosed hne)
  refine ⟨_, appendDeclarations_eq_ok.2 ⟨p, q, rfl, hq, rfl⟩, appendDeclarations_eq_ok.2
    ⟨p ++ '\x7d' :: ("\n\n" ++ front), q, ?_, hq, ?_⟩⟩
  · rw [hfront]
    simp
  · rw [Text.join_append hne hothers, hfront]
    simp

/-- A file in the union style stays in it when cases or fields go in behind the last ones. -/
theorem usesUnions_insert {addition : Text}
    (hbreaks : BreaksLine b ∨ a.getLast? = some ';')
    (h : usesUnions (a ++ b) = true) : usesUnions (a ++ (addition ++ b)) = true := by
  have hkeep : ∀ mark : Text, '\n' ∉ mark → ';' ∉ mark → mark <:+: a ++ b →
      mark <:+: a ++ (addition ++ b) := by
    intro mark hbreak hsemicolon hin
    have hparts : mark <:+: a ∨ mark <:+: b := by
      rcases hbreaks with hbreaks | hlast
      · exact infix_of_lineJoint (.inr hbreaks) hbreak hin
      · refine Text.infix_of_append_of_last hin fun c hc => ?_
        rw [hlast] at hc
        obtain rfl := Option.some.inj hc
        exact hsemicolon
    rcases hparts with hin | hin
    · exact hin.trans ⟨[], addition ++ b, rfl⟩
    · exact hin.trans ⟨a ++ addition, [], by simp⟩
  unfold usesUnions at h ⊢
  rw [Bool.and_eq_true, Text.occursIn_iff, Text.occursIn_iff] at h ⊢
  exact ⟨hkeep _ (by decide) (by decide) h.1, hkeep _ (by decide) (by decide) h.2⟩

theorem plainDeclaration_event (hfeature : feature.Plain) (h : endpoint.Plain) :
    PlainDeclaration (plainEventClass feature endpoint) where
  closed := by
    unfold plainEventClass
    dsimp only
    split
    · exact List.getLast?_append_of_ne_nil _ (by decide)
    · exact List.getLast?_append_of_ne_nil _ (by decide)
  no_sign := by
    have hsignature : ∀ {text : Text}, Consists isSignatureChar text → '@' ∉ text := fun htext =>
      htext.not_mem (by decide)
    have hevent := hsignature h.plainEvent.signature
    have hclass := hsignature hfeature.eventClass.signature
    have hpieces : ∀ (render : Text → Text) (separator text : Text), '@' ∉ separator →
        Consists isSignatureChar text → (∀ piece : Text, '@' ∉ piece → '@' ∉ render piece) →
        '@' ∉ Text.join separator ((splitCommas text).map render) := by
      intro render separator text hseparator htext hrender hmem
      rcases Text.mem_join hmem with hmem | ⟨part, hpart, hmem⟩
      · exact hseparator hmem
      · obtain ⟨piece, hpiece, rfl⟩ := List.mem_map.1 hpart
        exact hrender piece (fun hin => hsignature htext (mem_splitCommas hpiece hin)) hmem
    have hfields := hpieces (memberOf "this") ", " endpoint.callArguments (by decide) h.callArguments
      fun piece hpiece => by
        unfold memberOf
        simp only [List.mem_append, hpiece]
        decide
    have hfinals := hpieces finalField "\n" endpoint.typedParameters (by decide) h.typedParameters
      fun piece hpiece => by
        unfold finalField
        simp only [List.mem_append, hpiece]
        decide
    unfold plainEventClass
    dsimp only
    split
    · simp only [List.mem_append, hevent, hclass]
      decide
    · unfold commas
      simp only [List.mem_append, hevent, hclass, hfields, hfinals]
      decide
  no_factory := avoids_plainEventClass hfeature h

theorem plainDeclaration_states (hfeature : feature.Plain) (h : endpoint.Plain) :
    ∀ state ∈ plainStates feature endpoint, PlainDeclaration state.2 := by
  have hword : ∀ {name : Text}, AsciiWordy name → '@' ∉ name := fun hname =>
    hname.consists.not_mem (by decide)
  have hbase := hword h.baseName
  have hclass := hword hfeature.stateClass
  have hplain : ∀ name type field : Text, '@' ∉ name → '@' ∉ type → '@' ∉ field →
      (plainStateClass feature name type field).getLast? = some '\x7d' ∧
        '@' ∉ plainStateClass feature name type field := by
    intro name type field hname htype hfield
    unfold plainStateClass
    refine ⟨List.getLast?_append_of_ne_nil _ (by decide), ?_⟩
    simp only [List.mem_append, hname, htype, hfield, hclass]
    decide
  intro state hstate
  have havoids := avoids_plainStates hfeature h state hstate
  unfold plainStates at hstate
  simp only [List.mem_cons, List.not_mem_nil, or_false] at hstate
  rcases hstate with rfl | rfl | rfl
  · refine ⟨List.getLast?_append_of_ne_nil _ (by decide), ?_, havoids⟩
    dsimp only
    simp only [List.mem_append, hbase, hclass]
    decide
  · obtain ⟨hclosed, hfreezed⟩ := hplain (endpoint.baseName ++ "SuccessState") endpoint.returnType
      "data" (by simp only [List.mem_append, hbase]; decide) (hword h.returnType) (by decide)
    exact ⟨hclosed, hfreezed, havoids⟩
  · obtain ⟨hclosed, hfreezed⟩ := hplain (endpoint.baseName ++ "ErrorState") "String" "message"
      (by simp only [List.mem_append, hbase]; decide) (by decide) (by decide)
    exact ⟨hclosed, hfreezed, havoids⟩

/-! ## Blocs -/

/-- Imports neither bring nor break what has a character that they do not have. -/
theorem infix_insertImports_iff {c : Char} {paths : List Text} (hfeature : feature.Plain)
    (hpaths : ∀ path ∈ paths, IsModelImport feature path) (hbreak : '\n' ∉ mark) (hc : c ∈ mark)
    (hpath : isPathChar c = false) (hclause : c ∉ ("import '';\n" : Text)) :
    mark <:+: insertImports content paths ↔ mark <:+: content := by
  obtain ⟨u, head, foot, v, rfl, hgap⟩ := exists_importGap content
  have hmissing : ∀ path ∈ missingImports (u ++ v) paths, Consists isPathChar path :=
    fun path hpath => (hpaths path (mem_missingImports.1 hpath).1).consists hfeature
  rw [hgap.insertImports_eq]
  exact infix_insert_iff (Text.avoids_of_not_mem hc (not_mem_gapLines hgap hmissing hpath hclause))
    (infix_of_lineJoint hgap.lineJoint_before hbreak)
    (infix_of_lineJoint (.inl (hgap.lineStart_lines hmissing)) hbreak)
    (infix_of_lineJoint hgap.lineJoint hbreak)

/-- A bloc that hands its events on case by case goes on doing so. -/
theorem handsOnCases_insertBloc (hcases : handsOnCases content = true)
    (h : BlocStyle.unions.insert feature content endpoints = .ok result) :
    handsOnCases result = true := by
  unfold handsOnCases at hcases ⊢
  rw [Text.occursIn_iff] at hcases ⊢
  unfold BlocStyle.insert at h
  obtain ⟨middle, hrows, hclass⟩ := bind_eq_ok.1 h
  have himports := infix_insertImports (by decide) hcases (feature.modelImports endpoints)
  obtain ⟨a, b, hcontent, hcut, rfl⟩ := exists_cut_of_insertAfterLast hrows
  obtain ⟨p, fromEnd, hsplit⟩ := exists_classEnd_of_insertIntoClass hclass
  obtain ⟨q, rfl⟩ := exists_brace_of_splitClassEnd hsplit
  have hmiddle := splitClassEnd_eq_ok_append hsplit
  rw [hcontent] at himports
  have hin : "event.when(".toList <:+: p ++ '\x7d' :: q := by
    rw [← hmiddle]
    rcases infix_of_lineJoint (.inr (hcut.breaksLine BlocStyle.unions.wholeLines)) (by decide)
      himports with hin | hin
    · exact hin.trans ⟨[], _, rfl⟩
    · exact hin.trans ⟨a ++ BlocStyle.unions.rows endpoints, [], by simp⟩
  rw [hmiddle, insertIntoClass_eq (by rw [← hmiddle]; exact hsplit)] at hclass
  obtain rfl := Except.ok.inj hclass
  rcases Text.infix_of_append_of_head hin (by rintro c ⟨⟩; decide) with hin | hin
  · exact hin.trans ⟨[], _, rfl⟩
  · exact hin.trans ⟨p ++ memberBlock "\n\n" (endpoints.map (BlocStyle.unions.handler feature)), [],
      by simp⟩

namespace BlocStyle

/-- What is avoided by each line is avoided by the lines. -/
theorem avoids_flatten {pieces : List Text} (hbreak : '\n' ∉ mark) (hmark : mark ≠ [])
    (h : ∀ piece ∈ pieces, piece.getLast? = some '\n' ∧ Text.Avoids mark piece) :
    Text.Avoids mark pieces.flatten := by
  induction pieces with
  | nil => exact fun hin => hmark (List.eq_nil_of_infix_nil hin)
  | cons piece pieces ih =>
      obtain ⟨hlast, hpiece⟩ := h piece (by simp)
      rw [List.flatten_cons]
      refine hpiece.append_of_last (ih fun other hother => h other (by simp [hother])) fun c hc => ?_
      rw [hlast] at hc
      obtain rfl := Option.some.inj hc
      exact hbreak

/-- No handler of the plain style hands events on case by case. -/
theorem avoids_plainBlocHandler (hfeature : feature.Plain) (h : endpoint.Plain) :
    Text.Avoids "event.when(" (plainBlocHandler feature endpoint) := by
  have hlines : ("event.when(" : Text).getLast? = some '(' := rfl
  have hdot : ∀ {line : Text}, '.' ∉ line → Text.Avoids "event.when(" (line ++ "\n") := by
    intro line hline
    refine Text.avoids_of_not_mem (c := '.') (by decide) ?_
    simp only [List.mem_append, hline]
    decide
  have hword : ∀ {name : Text}, AsciiWordy name → '.' ∉ name := fun hname =>
    hname.consists.not_mem (by decide)
  have hhandler := hword h.plainHandler
  have hevent := hword h.plainEvent
  have hbase := hword h.baseName
  have hmethod := hword h.methodName
  have hemitter : '.' ∉ emitterParameter feature := hfeature.emitterParameter.not_mem (by decide)
  have harguments : '(' ∉ eventArguments endpoint := h.eventArguments.not_mem (by decide)
  have hpart : ∀ {text : Text}, Text.Avoids "t." text → Text.Avoids "event.when(" text :=
    fun htext hin => htext (List.IsInfix.trans ⟨"even", "when(", rfl⟩ hin)
  -- the arguments follow the parenthesis with which the pattern would have to end
  have hcall : Text.Avoids "event.when(" ("    final result = await _useCases." ++
      (endpoint.methodName ++ ("(" ++ (eventArguments endpoint ++ ");"))) ++ "\n") := by
    have hname : Text.Avoids "t." ("    final result = await _useCases." ++ endpoint.methodName) :=
      Text.Avoids.append_of_end (c := '.') (.literal (by decide)) rfl hmethod
    have hopen := hpart (hname.append_of_end (b := "(") (c := '.') rfl (by decide))
    have hrest : '(' ∉ eventArguments endpoint ++ (");" ++ "\n") := by
      simp only [List.mem_append, harguments]
      decide
    simpa only [List.append_assoc] using hopen.append_of_end hlines hrest
  have herror : Text.Avoids "event.when(" ("      (error) => emit(" ++
      (endpoint.baseName ++ "ErrorState(error.toString())),") ++ "\n") := by
    have hfront : Text.Avoids "t." ("      (error) => emit(" ++ endpoint.baseName) :=
      Text.Avoids.append_of_end (c := '.') (.literal (by decide)) rfl hbase
    have hrest : Text.Avoids "t." ("ErrorState(error.toString()))," ++ "\n") := by
      repeat rw [String.toList_ofList]
      exact Text.occursIn_eq_false_iff.1 rfl
    have hall := hfront.append_of_head hrest (by rintro c ⟨⟩; decide)
    exact hpart (by simpa only [List.append_assoc] using hall)
  have hlast : ∀ line : Text, (line ++ "\n").getLast? = some '\n' := fun line =>
    List.getLast?_append_of_ne_nil _ (by decide)
  have hall : Text.Avoids "event.when(" (plainBlocHandler feature endpoint ++ "\n") := by
    rw [plainBlocHandler_eq]
    refine avoids_flatten (by decide) (by decide) ?_
    simp only [List.forall_mem_cons]
    refine ⟨⟨hlast _, hdot ?_⟩, ⟨hlast _, hdot ?_⟩, ⟨rfl, .literal (by decide)⟩, ⟨hlast _, hcall⟩,
      ⟨rfl, .literal (by decide)⟩, ⟨rfl, .literal (by decide)⟩, ⟨hlast _, herror⟩,
      ⟨hlast _, hdot ?_⟩,
      ⟨rfl, .literal (by decide)⟩, ⟨hlast _, Text.occursIn_eq_false_iff.1 rfl⟩,
      List.forall_mem_nil _⟩
    all_goals
      repeat rw [String.toList_ofList]
      simp only [List.mem_append, hhandler, hevent, hbase, hemitter]
      decide
  exact hall.of_part ⟨[], "\n", by simp⟩

/-- The pattern stands in no row of the plain style. -/
theorem avoids_plainRows (hplain : ∀ endpoint ∈ endpoints, endpoint.Plain) :
    Text.Avoids "event.when(" (plain.rows endpoints) := by
  refine Text.avoids_of_not_mem (c := '.') (by decide) fun hmem => ?_
  obtain ⟨part, hpart, hmem⟩ := List.mem_flatMap.1 hmem
  obtain ⟨endpoint, hendpoint, rfl⟩ := List.mem_map.1 hpart
  have hevent : '.' ∉ endpoint.plainEvent :=
    (hplain endpoint hendpoint).plainEvent.consists.not_mem (by decide)
  have hhandler : '.' ∉ endpoint.plainHandler :=
    (hplain endpoint hendpoint).plainHandler.consists.not_mem (by decide)
  revert hmem
  show '.' ∉ "\n" ++ plainRegistration endpoint
  unfold plainRegistration
  simp only [List.mem_append, hevent, hhandler]
  decide

/-- The pattern stands in no handlers of the plain style. -/
theorem avoids_plainHandlers (hfeature : feature.Plain)
    (hplain : ∀ endpoint ∈ endpoints, endpoint.Plain) :
    Text.Avoids "event.when(" (plain.handlers feature endpoints) := by
  have hbreak : '\n' ∉ ("event.when(" : Text) := by decide
  have hline : Text.Avoids "event.when(" ("\n" : Text) := .literal (by decide)
  have hjoin : Text.Avoids "event.when("
      (Text.join "\n\n" (endpoints.map (plain.handler feature))) := by
    refine avoids_join hbreak (by decide) rfl rfl (.literal (by decide)) fun part hpart => ?_
    obtain ⟨endpoint, hendpoint, rfl⟩ := List.mem_map.1 hpart
    exact avoids_plainBlocHandler hfeature (hplain endpoint hendpoint)
  unfold handlers memberBlock
  exact avoids_of_lineJoint (.inr (by rintro c ⟨⟩; rfl)) hbreak
    (avoids_of_lineJoint (.inl rfl) hbreak hline hjoin) hline

/-- In the plain style, no bloc becomes one that hands events on case by case. -/
theorem handsOnCases_insertPlain (hfeature : feature.Plain)
    (hplain : ∀ endpoint ∈ endpoints, endpoint.Plain) (hne : endpoints ≠ [])
    (hcases : handsOnCases content = false)
    (h : plain.insert feature content endpoints = .ok result) : handsOnCases result = false := by
  have hbreak : '\n' ∉ ("event.when(" : Text) := by decide
  rw [handsOnCases, Text.occursIn_eq_false_iff] at hcases ⊢
  obtain ⟨middle, hrows, hclass⟩ := bind_eq_ok.1 h
  obtain ⟨a, b, himports, hcut, rfl⟩ := exists_cut_of_insertAfterLast hrows
  obtain ⟨p, fromEnd, hsplit⟩ := exists_classEnd_of_insertIntoClass hclass
  obtain ⟨q, rfl⟩ := exists_brace_of_splitClassEnd hsplit
  have hmiddle := splitClassEnd_eq_ok_append hsplit
  rw [hmiddle, insertIntoClass_eq (by rw [← hmiddle]; exact hsplit)] at hclass
  obtain rfl := Except.ok.inj hclass
  have hbreaks := hcut.breaksLine plain.wholeLines
  have hhandlers : Foreign feature (plain.handlers feature endpoints) ('\x7d' :: q) :=
    foreign_handlers hfeature hplain _
  -- the pattern lies across the place of the imports, of the rows or of the handlers nowhere
  have himported : Text.Avoids "event.when(" (a ++ b) := by
    rw [← himports]
    exact fun hin => hcases ((infix_insertImports_iff (c := '(') hfeature
      (mem_modelImports feature hplain) hbreak (by decide) (by decide) (by decide)).1 hin)
  have hrowed : Text.Avoids "event.when(" (p ++ '\x7d' :: q) := by
    rw [← hmiddle]
    exact fun hin => himported ((infix_insert_iff (avoids_plainRows hplain)
      (infix_of_lineJoint (.inr (breaksLine_rows _ hne b)) hbreak)
      (infix_of_lineJoint (.inr hbreaks) hbreak) (infix_of_lineJoint (.inr hbreaks) hbreak)).1 hin)
  exact fun hin => hrowed ((infix_insert_iff (avoids_plainHandlers hfeature hplain)
    (infix_of_lineJoint (.inr (hhandlers.breaksLine_append _)) hbreak)
    (infix_of_lineJoint hhandlers.joint hbreak)
    fun hin => Text.infix_of_append_of_head hin (by rintro c ⟨⟩; decide)).1 hin)

/-- A bloc that is completed stays in its style. -/
theorem ofContent_insert (hfeature : feature.Plain)
    (hplain : ∀ endpoint ∈ endpoints, endpoint.Plain) (hne : endpoints ≠ [])
    (hstyle : style = ofContent content)
    (h : style.insert feature content endpoints = .ok result) :
    ofContent result = ofContent content := by
  cases hcases : handsOnCases content with
  | true =>
      obtain rfl : style = unions := by rw [hstyle, ofContent, hcases]; rfl
      rw [ofContent, ofContent, handsOnCases_insertBloc hcases h, hcases]
  | false =>
      obtain rfl : style = plain := by rw [hstyle, ofContent, hcases]; rfl
      rw [ofContent, ofContent, handsOnCases_insertPlain hfeature hplain hne hcases h, hcases]

end BlocStyle

end Scaffold
