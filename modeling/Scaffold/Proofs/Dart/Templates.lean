import Scaffold.Proofs.Dart.Characters

/-!
# Characters of templates

What a template is filled with decides about the characters of the text that it makes. A class of
characters that takes those the templates are written with (`TakesTokens`) also takes every rendered
member, as soon as it takes the parts of the member (`Endpoint.Fills`): `ClassFile.consists_member`,
`consists_eventCase`, `consists_stateField`, `consists_whenCase`, `consists_plainRegistration` and
`consists_blocHandler`. So each class only has to look at the parts, as code without strings does
here: no member but the one of the service file has a quote or a slash (`ClassFile.code_member`).
-/

namespace Scaffold

variable {accepts : Char → Bool} {feature : Feature} {endpoint : Endpoint} {result : Text}

namespace TakesTokens

variable {characters signs : List Char}

/-- A fixed text of a template is taken. -/
theorem literal (h : TakesTokens accepts) (ht : Consists isTokenChar characters) :
    Consists accepts (String.ofList characters : Text) :=
  .literal (ht.mono h)

/-- A fixed text of a template is taken if its line ends and braces are. -/
theorem fixed (h : TakesTokens accepts) (hsigns : Consists accepts signs)
    (ht : Consists (fun c => isTokenChar c || signs.contains c) characters) :
    Consists accepts (String.ofList characters : Text) := by
  refine .literal fun c hc => ?_
  rcases Bool.or_eq_true_iff.1 (ht c hc) with htoken | hsign
  · exact h c htoken
  · exact hsigns c (List.contains_iff_mem.1 hsign)

end TakesTokens

/-! ## Parts of members -/

/-- The class takes the characters of templates and what they are filled with for the endpoint: the
name of its method, the type that it returns, and its parameters. -/
structure Endpoint.Fills (accepts : Char → Bool) (endpoint : Endpoint) : Prop where
  tokens : TakesTokens accepts
  methodName : Consists accepts endpoint.methodName
  returnType : Consists accepts endpoint.returnType
  typedParameters : Consists accepts endpoint.typedParameters
  callArguments : Consists accepts endpoint.callArguments

namespace Endpoint.Fills

/-- The name of the event is taken. -/
theorem eventName (h : endpoint.Fills accepts) : Consists accepts endpoint.eventName :=
  h.methodName.append (h.tokens.literal (by decide))

/-- The name of the state's field is taken. -/
theorem stateField (h : endpoint.Fills accepts) : Consists accepts endpoint.stateField :=
  h.methodName.append (h.tokens.literal (by decide))

/-- The name of the handler is taken. -/
theorem handlerName (h : endpoint.Fills accepts) : Consists accepts endpoint.handlerName :=
  .cons (h.tokens '_' rfl) h.methodName

/-- The result of a fallible call is taken. -/
theorem eitherType (h : endpoint.Fills accepts) : Consists accepts endpoint.eitherType :=
  ((h.tokens.literal (by decide)).append h.returnType).append (h.tokens.literal (by decide))

/-- The head of a method is taken if its result is. -/
theorem futureOf (h : endpoint.Fills accepts) (hresult : Consists accepts result) :
    Consists accepts (endpoint.futureOf result) :=
  (((h.tokens.literal (by decide)).append hresult).append (h.tokens.literal (by decide))).append
    h.methodName

/-- The call of the method is taken. -/
theorem call (h : endpoint.Fills accepts) : Consists accepts endpoint.call :=
  ((h.methodName.append (h.tokens.literal (by decide))).append h.callArguments).append
    (h.tokens.literal (by decide))

/-- The type of the state's field is taken. -/
theorem stateFieldType (h : endpoint.Fills accepts) :
    Consists accepts (Scaffold.stateFieldType endpoint) := by
  unfold Scaffold.stateFieldType
  split
  · exact h.returnType
  · exact h.returnType.append (h.tokens.literal (by decide))

/-- Parts of a list that are taken make a list that is, with the empty ones left out. -/
theorem joinNonempty (h : endpoint.Fills accepts) {parts : List Text}
    (hparts : ∀ part ∈ parts, Consists accepts part) :
    Consists accepts (Scaffold.joinNonempty parts) :=
  Consists.join (h.tokens.literal (by decide)) fun part hpart =>
    hparts part (List.mem_of_mem_filter hpart)

/-- The arguments of the handler are taken. -/
theorem handlerArguments (h : endpoint.Fills accepts) :
    Consists accepts (Scaffold.joinNonempty [endpoint.callArguments, "emit"]) :=
  h.joinNonempty (List.forall_mem_cons.2
    ⟨h.callArguments, List.forall_mem_singleton.2 (h.tokens.literal (by decide))⟩)

/-- The parameters of the handler are taken if the state's class is. -/
theorem handlerParameters (h : endpoint.Fills accepts)
    (hclass : Consists accepts feature.stateClass) :
    Consists accepts
      (Scaffold.joinNonempty [endpoint.typedParameters, emitterParameter feature]) :=
  h.joinNonempty (List.forall_mem_cons.2 ⟨h.typedParameters, List.forall_mem_singleton.2
    (((h.tokens.literal (by decide)).append hclass).append (h.tokens.literal (by decide)))⟩)

end Endpoint.Fills

/-! ## Members -/

/-- A class that takes quotes and the endpoint's path takes the annotation. -/
theorem consists_annotationText (h : TakesTokens accepts) (hquote : Consists accepts ['"'])
    (hpath : Consists accepts endpoint.path) : Consists accepts endpoint.annotation := by
  have hverbs : ∀ verb ∈ annotatedVerbs, Consists isTokenChar verb := by
    unfold annotatedVerbs
    repeat rw [String.toList_ofList]
    decide
  have hverb : Consists accepts endpoint.annotatedVerb := by
    unfold Endpoint.annotatedVerb
    split
    · next hmem => exact (hverbs _ (List.contains_iff_mem.1 hmem)).mono h
    · exact h.literal (by decide)
  exact ((((h.literal (by decide)).append hverb).append (h.fixed hquote (by decide))).append
    hpath).append (h.fixed hquote (by decide))

/-- A class that takes line ends, braces and the parts of an implementation's head takes the head. -/
theorem ClassFile.consists_implementation {interface parameter field : Text}
    (h : TakesTokens accepts) (hblock : Consists accepts ['\n', '\x7b', '\x7d'])
    (hinterface : Consists accepts interface) (hparameter : Consists accepts parameter)
    (hfield : Consists accepts field) :
    Consists accepts (implementation interface parameter field) := by
  refine Consists.lines (hblock '\n' (by decide)) ?_
  simp only [List.forall_mem_cons, Consists.append_iff]
  and_intros
  all_goals
    first
      | with_reducible assumption
      | exact h.fixed hblock (by decide)
      | exact List.forall_mem_nil _

/-- A class that takes the parts of a class file's member takes the member. Only the service has an
annotation and parameters of the client in it, and only the repository's implementation braces. -/
theorem ClassFile.consists_member (file : ClassFile) (h : endpoint.Fills accepts)
    (hbreak : Consists accepts ['\n']) (hfield : Consists accepts feature.serviceField)
    (hservice : file = .service →
      Consists accepts endpoint.annotation ∧ Consists accepts endpoint.clientParameters)
    (hbraces : file = .repositoryImpl → Consists accepts ['\n', '\x7b', '\x7d']) :
    Consists accepts (file.member feature endpoint) := by
  have hreturn := h.futureOf h.returnType
  have heither := h.futureOf h.eitherType
  have htyped := h.typedParameters
  have hcall := h.call
  unfold member
  -- In every class a member is made of fixed texts and of the parts named above.
  cases file <;> simp only [Consists.append_iff] <;> and_intros
  all_goals
    first
      | with_reducible assumption
      | exact h.tokens.fixed hbreak (by decide)
      | exact (hservice rfl).1
      | exact (hservice rfl).2
      | exact h.tokens.fixed (hbraces rfl) (by decide)

/-- A class that takes the parts of an event's case takes the case. -/
theorem consists_eventCase (h : endpoint.Fills accepts) (hclass : Consists accepts feature.eventClass)
    (hnamed : Consists accepts endpoint.namedParameters)
    (hpascal : Consists accepts endpoint.eventName.pascal) :
    Consists accepts (eventCase feature endpoint) := by
  have hevent := h.eventName
  unfold eventCase
  simp only [Consists.append_iff]
  and_intros
  all_goals first | with_reducible assumption | exact h.tokens.literal (by decide)

/-- A class that takes the parts of a state's field takes the field. -/
theorem consists_stateField (h : endpoint.Fills accepts) : Consists accepts (stateField endpoint) :=
  ((((h.tokens.literal (by decide)).append h.stateFieldType).append
    (h.tokens.literal (by decide))).append h.stateField).append (h.tokens.literal (by decide))

/-- A class that takes the parts of an event's branch takes the branch. -/
theorem consists_whenCase (h : endpoint.Fills accepts) : Consists accepts (whenCase endpoint) := by
  have hevent := h.eventName
  have hcall := h.callArguments
  have hhandler := h.handlerName
  have hemit := h.handlerArguments
  unfold whenCase
  simp only [Consists.append_iff]
  and_intros
  all_goals first | with_reducible assumption | exact h.tokens.literal (by decide)

/-- A class that takes the name of a plain event takes the line that registers its handler. -/
theorem consists_plainRegistration (h : TakesTokens accepts)
    (hevent : Consists accepts endpoint.plainEvent) :
    Consists accepts (plainRegistration endpoint) :=
  ((((h.literal (by decide)).append hevent).append (h.literal (by decide))).append
    ((h.literal (by decide)).append hevent)).append (h.literal (by decide))

/-- A class that takes line ends, braces and the parts of a handler takes the handler. -/
theorem consists_blocHandler (h : endpoint.Fills accepts)
    (hclass : Consists accepts feature.stateClass)
    (hblock : Consists accepts ['\n', '\x7b', '\x7d']) :
    Consists accepts (blocHandler feature endpoint) := by
  have hhandler := h.handlerName
  have hparameters := h.handlerParameters hclass
  have hcall := h.call
  have hfield := h.stateField
  unfold blocHandler
  simp only [Consists.append_iff]
  and_intros
  all_goals first | with_reducible assumption | exact h.tokens.fixed hblock (by decide)

/-! ## Parts of plain endpoints -/

namespace Endpoint.Plain

/-- A plain endpoint is taken wherever templates are. -/
theorem fills (h : endpoint.Plain) (htokens : TakesTokens accepts) : endpoint.Fills accepts where
  tokens := htokens
  methodName := htokens.of_asciiWordy h.methodName
  returnType := htokens.of_asciiWordy h.returnType
  typedParameters := htokens.of_signature h.typedParameters
  callArguments := htokens.of_signature h.callArguments

/-- The type of the state's field is a part of a signature. -/
theorem stateFieldType (h : endpoint.Plain) :
    Consists isSignatureChar (Scaffold.stateFieldType endpoint) := by
  unfold Scaffold.stateFieldType
  split
  · exact h.returnType.signature
  · exact h.returnType.signature.append (.literal (by decide))

/-- The parameters of the handler are parts of signatures. -/
theorem handlerParameters (h : endpoint.Plain) (hfeature : feature.Plain) :
    Consists isSignatureChar
      (Scaffold.joinNonempty [endpoint.typedParameters, emitterParameter feature]) :=
  Endpoint.Plain.joinNonempty (List.forall_mem_cons.2
    ⟨h.typedParameters, List.forall_mem_singleton.2 hfeature.emitterParameter⟩)

end Endpoint.Plain

/-- The pieces of a list between its commas hold what the list holds. -/
theorem mem_splitCommas {text piece : Text} {c : Char} (hpiece : piece ∈ splitCommas text)
    (hc : c ∈ piece) : c ∈ text := by
  fun_induction splitCommas text generalizing piece with
  | case1 => simp_all
  | case2 d => simp_all
  -- the text goes on behind a separator
  | case3 d next rest hcomma ih =>
      rcases List.mem_cons.1 hpiece with rfl | hpiece
      · simp at hc
      · exact List.mem_cons_of_mem _ (List.mem_cons_of_mem _ (ih hpiece hc))
  | case4 d next rest hcomma hnil ih =>
      obtain rfl := List.mem_singleton.1 hpiece
      exact List.mem_singleton.1 hc ▸ List.mem_cons_self
  | case5 d next rest hcomma piece' pieces hcons ih =>
      rw [hcons] at ih
      rcases List.mem_cons.1 hpiece with rfl | hpiece
      · rcases List.mem_cons.1 hc with rfl | hc
        · exact List.mem_cons_self
        · exact List.mem_cons_of_mem _ (ih (List.mem_cons_self ..) hc)
      · exact List.mem_cons_of_mem _ (ih (List.mem_cons_of_mem _ hpiece) hc)

/-- The arguments of a plain event's handler are parts of signatures behind dots. -/
theorem Endpoint.Plain.eventArguments (h : endpoint.Plain) :
    Consists (fun c => isSignatureChar c || c == '.') (Scaffold.eventArguments endpoint) := by
  unfold Scaffold.eventArguments
  split
  · exact Consists.nil
  · refine Consists.join (.literal (by decide)) fun part hpart => ?_
    obtain ⟨piece, hpiece, rfl⟩ := List.mem_map.1 hpart
    have hsignature : Consists isSignatureChar piece :=
      fun c hc => h.callArguments c (mem_splitCommas hpiece hc)
    unfold memberOf
    exact .append (by decide) (hsignature.mono fun c hc => by simp [hc])

/-- The arguments of a plain event's handler are taken wherever templates are. -/
theorem TakesTokens.eventArguments (htokens : TakesTokens accepts) (h : endpoint.Plain) :
    Consists accepts (Scaffold.eventArguments endpoint) := by
  refine h.eventArguments.mono fun c hc => ?_
  rcases Bool.or_eq_true_iff.1 hc with hsign | hdot
  · exact htokens.of_signature (List.forall_mem_singleton.2 hsign) c (List.mem_singleton_self c)
  · exact beq_iff_eq.1 hdot ▸ htokens '.' rfl

/-! ## Code without strings -/

/-- All members but those of the service are code without strings. -/
theorem ClassFile.code_member {file : ClassFile} (hfile : file ≠ .service) (hfeature : feature.Plain)
    (h : endpoint.Plain) : Consists isCodeChar (file.member feature endpoint) :=
  file.consists_member (h.fills takesTokens_isCodeChar) (by decide) hfeature.serviceField.code
    (fun hservice => absurd hservice hfile) fun _ => by decide

/-- The branch of an event is code without strings. -/
theorem code_whenCase (h : endpoint.Plain) : Consists isCodeChar (whenCase endpoint) :=
  consists_whenCase (h.fills takesTokens_isCodeChar)

/-- The registration of a handler is code without strings. -/
theorem code_plainRegistration (h : endpoint.Plain) :
    Consists isCodeChar (plainRegistration endpoint) :=
  consists_plainRegistration takesTokens_isCodeChar h.plainEvent.code

/-- A handler is code without strings. -/
theorem code_blocHandler (hfeature : feature.Plain) (h : endpoint.Plain) :
    Consists isCodeChar (blocHandler feature endpoint) :=
  consists_blocHandler (h.fills takesTokens_isCodeChar) hfeature.stateClass.code (by decide)

/-- The handler of a plain event is code without strings. -/
theorem code_plainBlocHandler (hfeature : feature.Plain) (h : endpoint.Plain) :
    Consists isCodeChar (plainBlocHandler feature endpoint) := by
  have hevent := h.plainEvent.code
  have hhandler := h.plainHandler.code
  have hmethod := h.methodName.code
  have hbase := h.baseName.code
  have hemitter := takesTokens_isCodeChar.of_signature hfeature.emitterParameter
  have harguments := takesTokens_isCodeChar.eventArguments h
  unfold plainBlocHandler
  simp only [Consists.append_iff]
  and_intros
  all_goals first | with_reducible assumption | exact .literal (by decide)

end Scaffold
