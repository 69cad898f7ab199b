import Scaffold.Proofs.Patch.Vocabulary

/-!
# The words of all files

Which words stand as members in the files of the events, the states and the bloc. So an endpoint
whose names are no words of templates and no names of other endpoints is no member of any file
(`SourceFile.not_hasMember_full`).
-/

namespace Scaffold

variable {accepts : Text → Prop} {feature : Feature} {endpoint : Endpoint}
  {endpoints : List Endpoint} {name : Text}

/-! ## Events and states -/

/-- The opening of a part of the bloc has no member. -/
theorem phrase_partOpening (hfeature : feature.Plain) (hname : AsciiWordy name) :
    Phrase accepts (partOpening feature name) := by
  refine .lines ?_
  simp only [List.forall_mem_cons]
  refine ⟨hfeature.name.phrase_between (.literal (by decide)) (.literal (by decide)), .nil,
    .literal (by decide), .of_mute ?_, List.forall_mem_nil _⟩
  simp only [Consists.append_iff]
  exact ⟨⟨⟨⟨.literal (by decide), hname.mute⟩, .literal (by decide)⟩, hname.mute⟩,
    .literal (by decide)⟩

/-- The case of an event has the event for a member, and the names that commas follow. -/
theorem Endpoint.Named.phrase_eventCase (h : endpoint.Named) (hfeature : feature.Plain)
    (hname : accepts endpoint.eventName)
    (hpassed : ∀ argument ∈ endpoint.arguments.dropLast, accepts argument.name) :
    Phrase accepts (eventCase feature endpoint) := by
  have hclass : Phrase accepts (") = " ++ (endpoint.eventName.pascal ++ ";")) :=
    .behind_literal (by decide) (by decide)
      (.word h.eventName.pascal (by decide) (.literal (by decide)))
  have hparameters : Phrase accepts (endpoint.namedParameters ++
      (") = " ++ (endpoint.eventName.pascal ++ ";"))) :=
    (h.phrase_namedParameters hpassed).append hclass (.inr (.append (by decide) (by decide) _))
  have hcase : Phrase accepts (endpoint.eventName ++ ("(" ++ (endpoint.namedParameters ++
      (") = " ++ (endpoint.eventName.pascal ++ ";"))))) :=
    .member (h.eventName.isWord (by simp [Endpoint.eventName])) hname (by decide) hparameters.mentions
  unfold eventCase
  simp only [List.append_assoc]
  exact .behind_literal (by decide) (by decide) (.word hfeature.eventClass
    (.append (by decide) (by decide) _) (.behind_literal (by decide) (by decide) hcase))

/-- The members in the file of the events are those of its cases. -/
theorem phrase_renderEvent (hfeature : feature.Plain)
    (h : ∀ endpoint ∈ endpoints, endpoint.Named ∧ accepts endpoint.eventName ∧
      ∀ argument ∈ endpoint.arguments.dropLast, accepts argument.name) :
    Phrase accepts (renderEvent feature endpoints) := by
  have hcases : Phrase accepts (Text.join "\n\n" (endpoints.map (eventCase feature))) :=
    .join phrase_breaks.2 (by decide) (by decide) (by decide) (List.forall_mem_map.2
      fun endpoint hmem => (h endpoint hmem).1.phrase_eventCase hfeature (h endpoint hmem).2.1
        (h endpoint hmem).2.2)
  unfold renderEvent
  rw [List.append_assoc]
  exact .behind (phrase_partOpening hfeature hfeature.eventClass) endsApart_lines
    (hcases.append (.literal (by decide)) (.inr (by decide)))

/-- The words of the template for states that stand as members, the name of the class apart. -/
def stateWords : List Text := ["Default", "isLoading", "none", "error"]

/-- A field of the state has its default and its name for members. -/
theorem Endpoint.Named.phrase_stateField (h : endpoint.Named) (hdefault : accepts "Default")
    (hname : accepts endpoint.stateField) : Phrase accepts (Scaffold.stateField endpoint) := by
  have htype : Consists isMute (stateFieldType endpoint) := by
    unfold stateFieldType
    split
    · exact h.returnType.mute
    · exact h.returnType.mute.append (.literal (by decide))
  have hfield : Phrase accepts (endpoint.stateField ++ ",") :=
    .member (h.stateField.isWord (by simp [Endpoint.stateField])) hname (by decide)
      (Phrase.nil : Phrase accepts []).mentions
  have hopen : Phrase accepts "    @Default(null) " :=
    .of_words ["Default"] (by decide) (List.forall_mem_singleton.2 hdefault)
  unfold Scaffold.stateField
  simp only [List.append_assoc]
  exact .behind hopen (by decide) ((Phrase.of_mute htype).append
    (.behind_literal (by decide) (by decide) hfield)
      (.inr (.append (by decide) (by decide) _)))

/-- The members in the file of the state are the words of its template and those of its fields. -/
theorem phrase_renderState (hfeature : feature.Plain) (hclass : accepts feature.stateClass)
    (hwords : ∀ word ∈ stateWords, accepts word)
    (h : ∀ endpoint ∈ endpoints, endpoint.Named ∧ accepts endpoint.stateField) :
    Phrase accepts (renderState feature endpoints) := by
  have hcommon : ∀ field ∈ commonStateFields, Phrase accepts field := by
    have hall : ∀ field ∈ commonStateFields, (∀ word ∈ memberWords field, word ∈ stateWords) ∧
        opensMember field = false := by
      unfold commonStateFields stateWords
      repeat rw [String.toList_ofList]
      decide
    exact fun field hfield => .of_words _ ⟨rfl, (hall field hfield).2⟩
      fun word hword => hwords word ((hall field hfield).1 word hword)
  have hfields : Phrase accepts (Text.join "\n" (commonStateFields ++ endpoints.map stateField)) :=
    .join phrase_breaks.1 (by decide) (by decide) (by decide) (List.forall_mem_append.2 ⟨hcommon,
      List.forall_mem_map.2 fun endpoint hmem => (h endpoint hmem).1.phrase_stateField
        (hwords _ (by decide)) (h endpoint hmem).2⟩)
  have hfoot : Phrase accepts ("\n  \x7d) = _" ++ (feature.stateClass ++ ";\n\x7d\n")) :=
    .of_mute (.append (.literal (by decide)) (hfeature.stateClass.mute.append
      (.literal (by decide))))
  have hbody : Phrase accepts ("\x7b\n" ++ (Text.join "\n" (commonStateFields ++
      endpoints.map stateField) ++ ("\n  \x7d) = _" ++ (feature.stateClass ++ ";\n\x7d\n")))) :=
    .behind_literal (by decide) (by decide)
      (hfields.append hfoot (.inr (.append (by decide) (by decide) _)))
  have hopen : ("(\x7b\n" : Text) = '(' :: "\x7b\n".toList := rfl
  unfold renderState
  rw [hopen]
  simp only [List.append_assoc, List.cons_append]
  exact .behind (phrase_partOpening hfeature hfeature.stateClass) endsApart_lines
    (.behind_literal (by decide) (by decide) (.member
      (hfeature.stateClass.isWord (by simp [Feature.stateClass])) hclass (by decide) hbody.mentions))

/-! ## The bloc -/

/-- Whether the word starts with an underscore. -/
def isPrivate (word : Text) : Bool := word.head? == some '_'

/-- A name without underscores is not private. -/
theorem isPrivate_eq_false (h : '_' ∉ name) : isPrivate name = false := by
  cases name with
  | nil => rfl
  | cons c name =>
      rw [List.mem_cons, not_or] at h
      simpa [isPrivate] using Ne.symm h.1

/-- Code of a template without private words that stand as members. -/
theorem phrase_of_public (haccepts : ∀ word, isPrivate word = false → accepts word)
    (h : (∀ word ∈ memberWords text, isPrivate word = false) ∧ opensMember text = false) :
    Phrase accepts text :=
  ⟨fun word hword => haccepts word (h.1 word hword), h.2⟩

namespace Endpoint.Named

variable (h : endpoint.Named)

include h

/-- A branch has its handler, its event and the arguments for members. -/
theorem phrase_whenCase (hname : accepts endpoint.handlerName) (hevent : accepts endpoint.eventName)
    (hpassed : ∀ argument ∈ endpoint.arguments, accepts argument.name) :
    Phrase accepts (whenCase endpoint) := by
  have hemitted : Phrase accepts (joinNonempty [endpoint.callArguments, "emit"]) := by
    have hlist : joinNonempty [endpoint.callArguments, "emit"] =
        commas (endpoint.arguments.map (fun argument => ([] : Text) ++ argument.name) ++
          [([] : Text) ++ ("emit" : Text)]) := by
      rw [endpoint.callArguments_eq]
      exact joinNonempty_commas (List.forall_mem_map.2 h.argument_ne) (by simp)
    rw [hlist]
    exact h.phrase_list_with (fun _ _ => ⟨.nil, by decide⟩) ⟨.nil, by decide⟩
      ⟨by simp, by decide⟩ hpassed
  have hcall : Phrase accepts (endpoint.handlerName ++ '(' ::
      (joinNonempty [endpoint.callArguments, "emit"] ++ "),")) := by
    have hclose : Phrase accepts "),"  := .of_words [] (by decide) (List.forall_mem_nil _)
    exact .member (h.handlerName.isWord (by simp [Endpoint.handlerName])) hname (by decide)
      (hemitted.append hclose (.inr (by decide))).mentions
  have hbranch : Phrase accepts (endpoint.callArguments ++ (") => " ++ (endpoint.handlerName ++
      '(' :: (joinNonempty [endpoint.callArguments, "emit"] ++ "),")))) :=
    (h.phrase_callArguments fun argument hargument =>
      hpassed argument (List.mem_of_mem_dropLast hargument)).append
      (.behind_literal (by decide) (by decide) hcall)
        (.inr (.append (by decide) (by decide) _))
  have hopen : (": (" : Text) = [':', ' ', '('] := rfl
  have hcalled : ("(" : Text) = ['('] := rfl
  unfold whenCase
  rw [hopen, hcalled]
  simp only [List.append_assoc, List.cons_append, List.nil_append]
  exact .behind_literal (by decide) (by decide) (.member
    (h.eventName.isWord (by simp [Endpoint.eventName])) hevent (by decide)
    ((hbranch.mentions.cons (by decide)).cons (by decide)))

/-- A handler has its own name, the method, the field and the arguments for members; the words of
its template are not private. -/
theorem phrase_blocHandler (hfeature : feature.Plain)
    (haccepts : ∀ word, isPrivate word = false → accepts word)
    (hname : accepts endpoint.handlerName) (hmethod : accepts endpoint.methodName)
    (hfield : accepts endpoint.stateField)
    (hpassed : ∀ argument ∈ endpoint.arguments, accepts argument.name) :
    Phrase accepts (blocHandler feature endpoint) := by
  have hlist : Phrase accepts (joinNonempty [endpoint.typedParameters, emitterParameter feature]) := by
    have hemitter : emitterParameter feature = "Emitter<" ++ feature.stateClass ++ "> " ++ "emit" := by
      have hend : ("> emit" : Text) = "> " ++ "emit" := Text.literal_append rfl
      unfold emitterParameter
      rw [hend]
      simp only [List.append_assoc]
    have hjoin : joinNonempty [endpoint.typedParameters, emitterParameter feature] =
        commas (endpoint.arguments.map (·.typed) ++ [emitterParameter feature]) := by
      rw [endpoint.typedParameters_eq]
      exact joinNonempty_commas (List.forall_mem_map.2 fun argument _ => by simp [Argument.typed])
        (by simp [hemitter])
    rw [hjoin, hemitter]
    exact h.phrase_list_with (fun argument hargument => ⟨.of_mute (h.mute_type hargument),
      EndsApart.append (by decide) (by decide) _⟩)
      ⟨hfeature.stateClass.phrase_between (.literal (by decide)) (.literal (by decide)),
        .append (by decide) (by decide) _⟩
      ⟨by decide, by decide⟩ hpassed
  have hfoot : Phrase accepts (" response,\n" ++ ("        error: const Error.none(),\n" ++
      ("      )),\n" ++ ("    );\n" ++ "  \x7d" : Text)))) := by
    repeat rw [String.toList_ofList]
    exact phrase_of_public haccepts (by decide)
  have hfold : ∀ {rest : Text}, Phrase accepts rest → Phrase accepts ((";\n" ++ ("\n" ++
      ("    result.fold(\n" ++ ("      (error) => emit(state.copyWith(\n" ++
        ("        isLoading: false,\n" ++ ("        error: error,\n" ++ ("      )),\n" ++
          ("      (response) => emit(state.copyWith(\n" ++ ("        isLoading: false,\n" ++
            "        " : Text))))))))) ++ rest) := by
    intro rest hrest
    repeat rw [String.toList_ofList]
    exact .behind (phrase_of_public haccepts (by decide)) (by decide) hrest
  have hstart : ∀ {rest : Text}, Phrase accepts rest → Phrase accepts ((") async \x7b\n" ++
      ("    emit(state.copyWith(isLoading: true, error: const Error.none()));\n" ++ ("\n" ++
        "    final result = await _useCases." : Text))) ++ rest) := by
    intro rest hrest
    repeat rw [String.toList_ofList]
    exact .behind (phrase_of_public haccepts (by decide)) (by decide) hrest
  have hstored : Phrase accepts (endpoint.stateField ++ ':' :: _) :=
    .member (h.stateField.isWord (by simp [Endpoint.stateField])) hfield (by decide) hfoot.mentions
  have hcalled := (h.phrase_call (fun argument hargument =>
    hpassed argument (List.mem_of_mem_dropLast hargument)) hmethod).append
      (hfold hstored) (.inr (.append (.append (by decide) (by decide) _)
        (List.append_ne_nil_of_left_ne_nil (by decide) _) _))
  have hopen : ("(" : Text) = ['('] := rfl
  have hresponse : (": response,\n" : Text) = ':' :: " response,\n".toList := by
    repeat rw [String.toList_ofList]
  have hhandler := Phrase.behind
    (.literal (by decide) : Phrase accepts "  Future<void> ") (.literal (by decide))
    (.member (h.handlerName.isWord (by simp [Endpoint.handlerName])) hname (c := '(') (by decide)
      (hlist.append (hstart hcalled) (.inr (.append (.append (by decide) (by decide) _)
        (List.append_ne_nil_of_left_ne_nil (by decide) _) _))).mentions)
  unfold blocHandler
  rw [hopen, hresponse]
  simp -implicitDefEqProofs only [List.append_assoc, List.cons_append, List.nil_append]
    at hhandler ⊢
  exact hhandler

end Endpoint.Named

section

variable (hfeature : feature.Plain) (haccepts : ∀ word, isPrivate word = false → accepts word)

include hfeature haccepts

/-- The members in the opening of the bloc are public. -/
theorem phrase_blocOpening : Phrase accepts (blocOpening feature) := by
  have hpascal : ∀ kind : Text, '_' ∉ kind → accepts (feature.pascal ++ kind) := fun kind hkind =>
    haccepts _ (isPrivate_eq_false fun hmem => (List.mem_append.1 hmem).elim
      (Text.solid_pascal feature.name).noUnderscore hkind)
  have hpart : ∀ {file : Text}, Consists isMute file →
      Phrase accepts ("part '" ++ feature.name ++ file) := fun hfile =>
    hfeature.name.phrase_between (.literal (by decide)) hfile
  have hwords : ∀ {text : Text},
      ((∀ word ∈ memberWords text, isPrivate word = false) ∧ opensMember text = false) →
      Phrase accepts text := phrase_of_public haccepts
  have hclass : Phrase accepts ("class " ++ (feature.blocClass ++ (" extends Bloc<" ++
      (feature.eventClass ++ ',' :: ' ' :: (feature.stateClass ++ "> \x7b"))))) := by
    have hstate : Phrase accepts (feature.stateClass ++ "> \x7b") :=
      .word hfeature.stateClass (by decide) (.literal (by decide))
    have hextends : Phrase accepts (" extends Bloc<" ++ (feature.eventClass ++
        ',' :: ' ' :: (feature.stateClass ++ "> \x7b"))) :=
      .behind_literal (by decide) (by decide) (.member
        (hfeature.eventClass.isWord (by simp [Feature.eventClass])) (hpascal "Event" (by decide))
        (by decide) (hstate.mentions.cons (by decide)))
    exact .behind_literal (by decide) (by decide)
      (.word hfeature.blocClass (.append (by decide) (by decide) _) hextends)
  have hcreate : Phrase accepts ("  " ++ (feature.blocClass ++
      '(' :: ("this._useCases) : super(const " ++ (feature.stateClass ++ '(' :: ")) \x7b")))) := by
    have hstate : Phrase accepts ("this._useCases) : super(const " ++
        (feature.stateClass ++ '(' :: ")) \x7b")) := by
      have hmember : Phrase accepts (feature.stateClass ++ '(' :: ")) \x7b") :=
        .member (hfeature.stateClass.isWord (by simp [Feature.stateClass]))
          (hpascal "State" (by decide)) (by decide) (Phrase.literal (by decide)).mentions
      rw [String.toList_ofList]
      exact .behind (hwords (by decide)) (by decide) hmember
    exact .behind_literal (by decide) (by decide) (.member
      (hfeature.blocClass.isWord (by simp [Feature.blocClass])) (hpascal "Bloc" (by decide))
      (by decide) hstate.mentions)
  have hregister : Phrase accepts ("    on<" ++ (feature.eventClass ++
      ">((event, emit) async \x7b")) := by
    repeat rw [String.toList_ofList]
    exact .behind (.of_mute (by decide)) (by decide)
      (.word hfeature.eventClass (by decide) (hwords (by decide)))
  have hwhen : Phrase accepts "      await event.when(" := by
    rw [String.toList_ofList]
    exact hwords (by decide)
  have hcomma : (", " : Text) = [',', ' '] := rfl
  have hsuper : ("(this._useCases) : super(const " : Text) =
      '(' :: "this._useCases) : super(const ".toList := by
    repeat rw [String.toList_ofList]
  have hconst : ("()) \x7b" : Text) = '(' :: ")) \x7b".toList := rfl
  unfold blocOpening
  rw [hcomma, hsuper, hconst]
  simp -implicitDefEqProofs only [List.append_assoc, List.cons_append, List.nil_append]
  refine .lines ?_
  simp only [List.forall_mem_cons, ← List.append_assoc "part '".toList]
  exact ⟨hpart (.literal (by decide)), hpart (.literal (by decide)), hpart (.literal (by decide)),
    .nil, .literal (by decide), hclass, hcreate, hregister, hwhen,
    List.forall_mem_nil _⟩

/-- The words of the bloc file that stand as members are names of its endpoints' handlers, or
public. -/
theorem phrase_renderBloc (h : ∀ endpoint ∈ endpoints, endpoint.Named ∧
      accepts endpoint.handlerName ∧ accepts endpoint.eventName ∧ accepts endpoint.methodName ∧
      accepts endpoint.stateField ∧ ∀ argument ∈ endpoint.arguments, accepts argument.name) :
    Phrase accepts (renderBloc feature endpoints) := by
  have hpackage : accepts "package" := haccepts _ (by decide)
  have hfixed : ∀ path ∈ blocFixedImports feature, HasScheme accepts path := by
    intro path hpath
    rcases hfeature.blocPackageImports path hpath with rfl | hfile
    · exact ⟨"dart", "async", rfl, ⟨by decide, by decide⟩, haccepts _ (by decide),
        .literal (by decide)⟩
    · exact hfile.hasScheme hpackage
  have himports : Phrase accepts (importBlock (blocImports feature endpoints)) :=
    phrase_importBlock (hasScheme_imports hfeature hpackage hfixed
      fun endpoint hmem => (h endpoint hmem).1.toPlain)
  have hcases : Phrase accepts (Text.join "\n" (endpoints.map whenCase)) :=
    .join phrase_breaks.1 (by decide) (by decide) (by decide) (List.forall_mem_map.2
      fun endpoint hmem =>
        have ⟨hnamed, hhandler, hevent, _, _, hpassed⟩ := h endpoint hmem
        hnamed.phrase_whenCase hhandler hevent hpassed)
  have hhandlers : Phrase accepts (Text.join "\n\n" (endpoints.map (blocHandler feature))) :=
    .join phrase_breaks.2 (by decide) (by decide) (by decide) (List.forall_mem_map.2
      fun endpoint hmem =>
        have ⟨hnamed, hhandler, _, hmethod, hfield, hpassed⟩ := h endpoint hmem
        hnamed.phrase_blocHandler hfeature haccepts hhandler hmethod hfield hpassed)
  have hmiddle : Phrase accepts (blocMiddle feature) :=
    hfeature.useCasesClass.phrase_between (.literal (by decide)) (.literal (by decide))
  have hmiddleNe : blocMiddle feature ≠ [] :=
    List.append_ne_nil_of_right_ne_nil _ (by decide)
  have hmiddleEdges : StartsApart (blocMiddle feature) ∧ EndsApart (blocMiddle feature) :=
    ⟨.append (.append (.literal (by decide)) (by decide) _)
      (List.append_ne_nil_of_left_ne_nil (by decide) _) _, .append (by decide) (by decide) _⟩
  unfold renderBloc
  simp only [List.append_assoc]
  exact .behind himports (endsApart_importBlock _) (.behind (phrase_blocOpening hfeature haccepts)
    endsApart_lines (hcases.append (.behind hmiddle hmiddleEdges.2
      (hhandlers.append (.literal (by decide)) (.inr (by decide))))
      (.inr (hmiddleEdges.1.append hmiddleNe _))))

end

/-! ## Names that no file has as members -/

/-- The method is named in camel case. -/
theorem Endpoint.Named.isCamel_methodName (h : endpoint.Named) : IsCamel endpoint.methodName := by
  refine isCamel_methodName_of_start h.method_mem fun c hc => ?_
  rcases h.methodName c (List.mem_of_mem_head? hc) with rfl | hc
  · decide
  · exact toNat_lt_of_isAsciiAlphanumeric hc

/-- The names of an endpoint are no words of templates, no arguments of known endpoints where these
are followed by a comma, and no members in the paths of known endpoints. -/
structure Unclaimed (known : List Endpoint) (endpoint : Endpoint) : Prop where
  word : endpoint.methodName ∉ classWords
  argument : ∀ other ∈ known, ∀ argument ∈ other.arguments.dropLast,
    argument.name ≠ endpoint.methodName ∧ argument.name ≠ endpoint.eventName
  handler : ∀ other ∈ known, ∀ argument ∈ other.arguments, argument.name ≠ endpoint.handlerName
  path : ∀ other ∈ known, hasMember other.path endpoint.methodName = false

/-- No file that is generated for other endpoints has members of an unclaimed one. -/
theorem SourceFile.not_hasMember_full (source : SourceFile) {known : List Endpoint}
    (hfeature : feature.Plain) (htitled : isTitled feature.pascal = true)
    (hknown : ∀ other ∈ known, other.Named) (hnamed : endpoint.Named)
    (hnames : ∀ other ∈ known, other.methodName ≠ endpoint.methodName)
    (h : Unclaimed known endpoint) :
    hasMember (source.part feature known).full (source.memberName endpoint) = false := by
  refine (mentionsOnly_ne_iff (source.isWord_memberName hnamed.toPlain hnamed.methodName_ne)).1 ?_
  refine Phrase.mentions ?_
  cases source with
  | ofClass file =>
      have hclass : AcceptsClasses (· ≠ endpoint.methodName) := by
        refine ⟨?_, ?_⟩
        · rintro word hword rfl
          unfold isTitled at hword
          cases hhead : endpoint.methodName.head? with
          | none =>
              rw [hhead] at hword
              cases hword
          | some c =>
              rw [hhead, Option.any_some, (hnamed.isCamel_methodName.start c hhead).2] at hword
              cases hword
        · rintro word hword rfl
          exact h.word hword
      exact file.phrase_render hfeature htitled hclass fun other hother => ⟨hknown other hother,
        hnames other hother, fun argument hargument => (h.argument other hother argument hargument).1,
        (mentionsOnly_ne_iff hnamed.isWord_methodName).2 (h.path other hother)⟩
  | event =>
      exact phrase_renderEvent hfeature fun other hother => ⟨hknown other hother,
        fun heq => hnames other hother (List.append_cancel_right heq),
        fun argument hargument => (h.argument other hother argument hargument).2⟩
  | state =>
      have hwords : ∀ word ∈ feature.stateClass :: stateWords, ¬ ("Response" : Text) <:+ word := by
        refine List.forall_mem_cons.2 ⟨fun hend => ?_, by decide⟩
        have hstate : ("State" : Text) <:+ feature.stateClass := List.suffix_append _ _
        have hends := List.suffix_or_suffix_of_suffix hend hstate
        revert hends
        decide
      have haccepts : ∀ word ∈ feature.stateClass :: stateWords, word ≠ endpoint.stateField := by
        rintro word hword rfl
        exact hwords _ hword (List.suffix_append _ _)
      obtain ⟨hclass, hwords⟩ := List.forall_mem_cons.1 haccepts
      exact phrase_renderState hfeature hclass hwords fun other hother => ⟨hknown other hother,
        fun heq => hnames other hother (List.append_cancel_right heq)⟩
  | bloc =>
      have hpublic : ∀ word, isPrivate word = false → word ≠ endpoint.handlerName := by
        rintro word hword rfl
        cases hword
      have hsolid : ∀ other ∈ known, ∀ kind : Text, '_' ∉ kind →
          isPrivate (other.methodName ++ kind) = false := by
        intro other hother kind hkind
        refine isPrivate_eq_false fun hmem => (List.mem_append.1 hmem).elim ?_ hkind
        exact (hknown other hother).isCamel_methodName.solid.noUnderscore
      refine phrase_renderBloc hfeature hpublic fun other hother => ⟨hknown other hother,
        fun heq => hnames other hother (List.cons_inj_right _ |>.1 heq),
        hpublic _ (hsolid other hother "Requested" (by decide)), hpublic _ ?_,
        hpublic _ (hsolid other hother "Response" (by decide)), h.handler other hother⟩
      simpa using hsolid other hother [] (by simp)

end Scaffold
