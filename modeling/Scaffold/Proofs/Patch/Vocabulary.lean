import Scaffold.Proofs.Dart.Signatures
import Scaffold.Proofs.Naming.DerivedNames
import Scaffold.Proofs.Naming.Identifiers
import Scaffold.Proofs.Patch.MemberWords
import Scaffold.Proofs.Patch.RenderedBlocs

/-!
# The words of class files

Which words stand as members in the classes that are generated for endpoints: the words of the
templates, the names of the endpoints' methods, and names of parameters in front of a comma
(`ClassFile.phrase_render`). Words with a capital are told apart from the names of members by their
first letter.
-/

namespace Scaffold

variable {accepts : Text → Prop} {feature : Feature} {endpoint : Endpoint}
  {endpoints : List Endpoint} {name text : Text} {a b : Text}

/-! ## Phrases without members -/

/-- The characters that open no member. -/
def isMute (c : Char) : Bool := !(c == '(' || c == ':' || c == ',')

theorem opensMember_of_mute (h : Consists isMute text) : opensMember text = false := by
  rw [opensMember]
  split
  · rfl
  · next c rest hdrop =>
    have hc : c ∈ text := List.dropWhile_subset isBlank (hdrop ▸ List.mem_cons_self)
    simpa [isMute, Bool.not_eq_true', or_assoc] using h c hc

theorem memberWordsFrom_of_mute (h : Consists isMute text) (word : Text) :
    memberWordsFrom word text = [] := by
  induction text generalizing word with
  | nil => rfl
  | cons c text ih =>
      have htext : Consists isMute text := fun d hd => h d (List.mem_cons_of_mem c hd)
      rw [memberWordsFrom, opensMember_of_mute h, ih htext, ih htext, Bool.and_false]
      split <;> rfl

theorem Phrase.of_mute (h : Consists isMute text) : Phrase accepts text where
  mentions word hword := by
    rw [memberWords, memberWordsFrom_of_mute h] at hword
    cases hword
  opens := opensMember_of_mute h

theorem Consists.mute {allowed : Char → Bool} (h : Consists allowed text)
    (hsigns : allowed '(' = false ∧ allowed ':' = false ∧ allowed ',' = false) :
    Consists isMute text := by
  refine h.mono fun c hc => ?_
  have hne : ∀ d : Char, allowed d = false → (c == d) = false := by
    intro d hd
    rw [beq_eq_false_iff_ne]
    rintro rfl
    rw [hc] at hd
    cases hd
  simp [isMute, hne '(' hsigns.1, hne ':' hsigns.2.1, hne ',' hsigns.2.2]

theorem AsciiWordy.mute (h : AsciiWordy name) : Consists isMute name := h.consists.mute (by decide)

theorem IsWord.phrase (h : IsWord name) : Phrase accepts name :=
  .of_mute (Consists.mute h.word (by decide))

theorem AsciiWordy.phrase (h : AsciiWordy name) : Phrase accepts name := .of_mute h.mute

/-- A name within code that opens no member. -/
theorem AsciiWordy.phrase_between (h : AsciiWordy name) (ha : Consists isMute a)
    (hb : Consists isMute b) : Phrase accepts (a ++ name ++ b) :=
  .of_mute ((ha.append h.mute).append hb)

namespace Phrase

/-- A word in front of a phrase. -/
theorem word (hname : AsciiWordy name) (hstart : StartsApart b) (hb : Phrase accepts b) :
    Phrase accepts (name ++ b) :=
  hname.phrase.append hb (.inr hstart)

/-- A text of a template in front of a phrase. -/
theorem behind (ha : Phrase accepts a) (hend : EndsApart a) (hb : Phrase accepts b) :
    Phrase accepts (a ++ b) :=
  ha.append hb (.inl hend)

/-- A fixed text of a template. -/
theorem literal {characters : List Char} (h : Consists isMute characters) :
    Phrase accepts (String.ofList characters : Text) :=
  .of_mute (.literal h)

theorem behind_literal {characters : List Char} (hmute : Consists isMute characters)
    (hend : EndsApart characters) (h : Phrase accepts b) :
    Phrase accepts ((String.ofList characters : Text) ++ b) :=
  .behind (.literal hmute) (.literal hend) h

end Phrase

theorem Phrase.of_words (words : List Text)
    (htext : memberWords text = words ∧ opensMember text = false) (h : ∀ word ∈ words, accepts word) :
    Phrase accepts text :=
  ⟨by rwa [MentionsOnly, htext.1], htext.2⟩

/-! ## Imports -/

/-- The path starts with an accepted word and has no other colon. -/
def HasScheme (accepts : Text → Prop) (path : Text) : Prop :=
  ∃ scheme rest, path = scheme ++ ':' :: rest ∧ IsWord scheme ∧ accepts scheme ∧
    Consists isMute rest

theorem IsPackagePath.hasScheme {path : Text} (h : IsPackagePath path)
    (haccepts : accepts "package") : HasScheme accepts path := by
  obtain ⟨inner, rfl, hinner⟩ := h
  exact ⟨"package", inner ++ ".dart", rfl, ⟨by decide, by decide⟩, haccepts,
    (hinner.mute (by decide)).append (.literal (by decide))⟩

theorem HasScheme.phrase_importClause {path : Text} (h : HasScheme accepts path) :
    Phrase accepts (importClause path) := by
  obtain ⟨scheme, rest, rfl, hscheme, haccepts, hrest⟩ := h
  have hlast : Phrase accepts (rest ++ "';") := .of_mute (hrest.append (.literal (by decide)))
  have htext : importClause (scheme ++ ':' :: rest) =
      importToken ++ (scheme ++ ':' :: (rest ++ "';")) := by
    simp [importClause]
  rw [htext]
  exact .behind_literal (by decide) (by decide)
    (.member hscheme haccepts (by decide) hlast.mentions)

theorem phrase_breaks : Phrase accepts "\n" ∧ Phrase accepts "\n\n" :=
  ⟨.literal (by decide), .literal (by decide)⟩

theorem phrase_importBlock {paths : List Text} (h : ∀ path ∈ paths, HasScheme accepts path) :
    Phrase accepts (importBlock paths) := by
  rw [importBlock]
  split
  · exact .nil
  · refine .append (.join phrase_breaks.1 (by decide) (by decide) (by decide) ?_)
      phrase_breaks.2 (.inr (by decide))
    exact List.forall_mem_map.2 fun path hpath => (h path hpath).phrase_importClause

/-! ## Lists of arguments -/

/-- In a list, all names but the last one are followed by a comma. -/
theorem phrase_commas {parts : List (Text × Text)}
    (hfronts : ∀ part ∈ parts, Phrase accepts part.1 ∧ EndsApart part.1)
    (hnames : ∀ part ∈ parts, IsWord part.2) (haccepts : ∀ part ∈ parts.dropLast, accepts part.2) :
    Phrase accepts (commas (parts.map fun part => part.1 ++ part.2)) := by
  induction parts with
  | nil => exact .nil
  | cons part parts ih =>
      obtain ⟨⟨hfront, hend⟩, hfronts⟩ := List.forall_mem_cons.1 hfronts
      obtain ⟨hname, hnames⟩ := List.forall_mem_cons.1 hnames
      by_cases hnil : parts = []
      · subst hnil
        exact .behind hfront hend hname.phrase
      · rw [List.dropLast_cons_of_ne_nil hnil, List.forall_mem_cons] at haccepts
        have htext : commas ((part :: parts).map fun part => part.1 ++ part.2) =
            part.1 ++ (part.2 ++ ',' :: ' ' :: commas (parts.map fun part => part.1 ++ part.2)) := by
          rw [List.map_cons, commas, Text.join_cons _ (by simpa using hnil)]
          simp [commas]
        rw [htext]
        exact .behind hfront hend (.member hname haccepts.1 (by decide)
          ((ih hfronts hnames haccepts.2).mentions.cons (by decide)))

/-- The words that annotate the arguments of the HTTP client's methods. -/
def sentWords : List Text := ["Path", "Query", "Body"]

theorem Argument.phrase_annotation (argument : Argument) (hname : AsciiWordy argument.name)
    (hsent : ∀ word ∈ sentWords, accepts word) : Phrase accepts argument.annotation := by
  have hcall : ∀ word ∈ sentWords, ∀ rest, Consists isMute rest →
      Phrase accepts ("@" ++ (word ++ '(' :: rest)) := by
    intro word hword rest hrest
    have hwords : ∀ word ∈ sentWords, word ≠ [] ∧ ∀ c ∈ word, isWordChar c = true := by decide
    obtain ⟨hne, hchars⟩ := hwords word hword
    exact .behind_literal (by decide) (by decide)
      (.member ⟨hne, hchars⟩ (hsent word hword) (by decide) (Phrase.of_mute hrest).mentions)
  have hquoted : Consists isMute ('"' :: (argument.name ++ "\")")) :=
    .cons (by decide) (hname.mute.append (.literal (by decide)))
  unfold Argument.annotation
  split
  · have hpath := hcall "Path" (by decide) _ hquoted
    simpa using hpath
  · have hquery := hcall "Query" (by decide) _ hquoted
    simpa using hquery
  · have hbody := hcall "Body" (by decide) ")" (.literal (by decide))
    simpa using hbody

namespace Endpoint

/-- The endpoint's names are identifiers. -/
structure Named (endpoint : Endpoint) : Prop extends endpoint.Plain where
  methodName_ne : endpoint.methodName ≠ []
  argument_ne : ∀ argument ∈ endpoint.arguments, argument.name ≠ []

namespace Named

variable (h : endpoint.Named)

include h

theorem isWord_argument : ∀ argument ∈ endpoint.arguments, IsWord argument.name :=
  fun argument hargument =>
    (h.argument argument hargument).1.isWord (h.argument_ne argument hargument)

theorem isWord_methodName : IsWord endpoint.methodName := h.methodName.isWord h.methodName_ne

theorem type_cases {argument : Argument} (hargument : argument ∈ endpoint.arguments) :
    argument.type ∈ parameterTypes ∨ argument.type = endpoint.requestModel := by
  have hsent : ∀ location, ∀ parameter ∈ endpoint.parametersIn location,
      parameter.type ∈ parameterTypes := fun location parameter hparameter =>
    h.type_mem parameter (List.mem_of_mem_filter hparameter)
  unfold Endpoint.arguments at hargument
  rcases List.mem_append.1 hargument with hargument | hargument
  · rcases List.mem_append.1 hargument with hargument | hargument
    · obtain ⟨parameter, hparameter, rfl⟩ := List.mem_map.1 hargument
      exact .inl (hsent _ parameter hparameter)
    · obtain ⟨parameter, hparameter, rfl⟩ := List.mem_map.1 hargument
      exact .inl (hsent _ parameter hparameter)
  · split at hargument
    · rw [List.mem_singleton.1 hargument]
      exact .inr rfl
    · cases hargument

theorem mute_type {argument : Argument} (hargument : argument ∈ endpoint.arguments) :
    Consists isMute (argument.declaredType ++ " ") := by
  have htypes : ∀ type ∈ parameterTypes, Consists isMute type := by decide
  have htype : Consists isMute argument.type := by
    rcases h.type_cases hargument with hmem | heq
    · exact htypes _ hmem
    · exact heq ▸ h.requestModel.mute
  refine .append ?_ (.literal (by decide))
  unfold Argument.declaredType
  split
  · exact htype.append (.literal (by decide))
  · exact htype

/-- A list with something in front of each argument's name. -/
theorem phrase_list {front : Argument → Text}
    (hfronts : ∀ argument ∈ endpoint.arguments,
      Phrase accepts (front argument) ∧ EndsApart (front argument))
    (haccepts : ∀ argument ∈ endpoint.arguments.dropLast, accepts argument.name) :
    Phrase accepts (commas (endpoint.arguments.map fun argument => front argument ++ argument.name)) := by
  have hlist : Phrase accepts (commas ((endpoint.arguments.map fun argument =>
      (front argument, argument.name)).map fun part => part.1 ++ part.2)) := by
    refine phrase_commas (List.forall_mem_map.2 hfronts) (List.forall_mem_map.2 h.isWord_argument) ?_
    rw [← List.map_dropLast]
    exact List.forall_mem_map.2 haccepts
  rwa [List.map_map] at hlist

/-- The same with another part behind the arguments. -/
theorem phrase_list_with {front : Argument → Text} {opening : Text}
    (hfronts : ∀ argument ∈ endpoint.arguments,
      Phrase accepts (front argument) ∧ EndsApart (front argument))
    (hopening : Phrase accepts opening ∧ EndsApart opening) (hname : IsWord name)
    (haccepts : ∀ argument ∈ endpoint.arguments, accepts argument.name) :
    Phrase accepts (commas ((endpoint.arguments.map fun argument =>
      front argument ++ argument.name) ++ [opening ++ name])) := by
  have hlist : Phrase accepts (commas ((endpoint.arguments.map (fun argument =>
      (front argument, argument.name)) ++ [(opening, name)]).map fun part => part.1 ++ part.2)) := by
    refine phrase_commas (List.forall_mem_append.2 ⟨List.forall_mem_map.2 hfronts,
      List.forall_mem_singleton.2 hopening⟩) (List.forall_mem_append.2
        ⟨List.forall_mem_map.2 h.isWord_argument, List.forall_mem_singleton.2 hname⟩) ?_
    rw [List.dropLast_concat]
    exact List.forall_mem_map.2 haccepts
  rwa [List.map_append, List.map_map] at hlist

section

variable (haccepts : ∀ argument ∈ endpoint.arguments.dropLast, accepts argument.name)

include haccepts

theorem phrase_typedParameters : Phrase accepts endpoint.typedParameters := by
  rw [typedParameters_eq]
  exact h.phrase_list (fun _ hargument => ⟨.of_mute (h.mute_type hargument),
    EndsApart.append (by decide) (by decide) _⟩) haccepts

theorem phrase_callArguments : Phrase accepts endpoint.callArguments := by
  rw [callArguments_eq]
  exact h.phrase_list (fun _ _ => ⟨.nil, by decide⟩) haccepts

theorem phrase_call (hname : accepts endpoint.methodName) : Phrase accepts endpoint.call := by
  have hlist : Phrase accepts (endpoint.callArguments ++ ")") :=
    (h.phrase_callArguments haccepts).append (.literal (by decide)) (.inr (by decide))
  have hopen : ("(" : Text) = ['('] := rfl
  unfold Endpoint.call
  rw [hopen, List.append_assoc, List.append_assoc]
  exact .member h.isWord_methodName hname (by decide) hlist.mentions

theorem phrase_clientParameters (hsent : ∀ word ∈ sentWords, accepts word) :
    Phrase accepts endpoint.clientParameters := by
  have htext : endpoint.clientParameters = commas (endpoint.arguments.map fun argument =>
      argument.annotation ++ (" " ++ (argument.declaredType ++ " ")) ++ argument.name) := by
    simp only [clientParameters_eq, Argument.annotated, Argument.typed, List.append_assoc]
  rw [htext]
  refine h.phrase_list (fun argument hargument => ⟨?_, ?_⟩) haccepts
  · exact (argument.phrase_annotation (h.argument argument hargument).1 hsent).append
      (.of_mute (.append (.literal (by decide)) (h.mute_type hargument)))
        (.inr (.append (by decide) (by decide) _))
  · have hblank : EndsApart (argument.declaredType ++ " ") := .append (by decide) (by decide) _
    exact .append (.append hblank (by simp) _) (by simp) _

theorem phrase_namedParameters : Phrase accepts endpoint.namedParameters := by
  rw [namedParameters_eq]
  split
  · exact .nil
  · have hnamed : ∀ argument : Argument, ∃ front : Text, (front = [] ∨ front = "required ") ∧
        argument.named = front ++ (argument.declaredType ++ " ") ++ argument.name := by
      intro argument
      cases horigin : argument.origin with
      | query => exact ⟨[], .inl rfl, by simp [Argument.named, Argument.typed, horigin]⟩
      | _ => exact ⟨"required ", .inr rfl, by simp [Argument.named, Argument.typed, horigin]⟩
    choose front hfront htext using hnamed
    have hlist : Phrase accepts (commas (endpoint.arguments.map (·.named))) := by
      rw [List.map_congr_left fun argument _ => htext argument]
      refine h.phrase_list (fun argument hargument => ⟨.of_mute (.append ?_ (h.mute_type hargument)),
        .append (.append (by decide) (by decide) _) (by simp) _⟩) haccepts
      rcases hfront argument with hfront | hfront <;> rw [hfront] <;> decide
    exact .append (.behind (.literal (by decide) : Phrase accepts "\x7b") (.literal (by decide))
      hlist) (.of_mute (by decide)) (.inr (by decide))

end

end Named

end Endpoint

/-! ## Members of class files -/

/-- Whether the word starts with an ASCII capital. -/
def isTitled (word : Text) : Bool := word.head?.any isCapital

/-- The words of the templates for class files that stand as members, those with a capital apart. -/
def classWords : List Text :=
  ["package", "as", "right", "catch", "left", "customErrorType", "toString"]

/-- The words of the templates for class files are accepted. -/
structure AcceptsClasses (accepts : Text → Prop) : Prop where
  titled : ∀ word, isTitled word = true → accepts word
  fixed : ∀ word ∈ classWords, accepts word

/-- The words that an endpoint brings into class files are accepted. -/
structure Endpoint.Accepted (accepts : Text → Prop) (endpoint : Endpoint) : Prop
    extends endpoint.Named where
  name : accepts endpoint.methodName
  passed : ∀ argument ∈ endpoint.arguments.dropLast, accepts argument.name
  path : MentionsOnly accepts endpoint.path

namespace Endpoint.Accepted

variable (h : endpoint.Accepted accepts)

include h

theorem phrase_eitherType (hclass : AcceptsClasses accepts) :
    Phrase accepts endpoint.eitherType := by
  have htext : endpoint.eitherType =
      "Either<" ++ ("Error" ++ ',' :: ' ' :: (endpoint.returnType ++ ">")) := by
    have hopen : ("Either<Error, " : Text) = "Either<" ++ ("Error" ++ [',', ' ']) := rfl
    unfold Endpoint.eitherType
    rw [hopen]
    simp only [List.append_assoc, List.cons_append, List.nil_append]
  have hlast : Phrase accepts (endpoint.returnType ++ ">") :=
    h.returnType.phrase.append (.literal (by decide)) (.inr (by decide))
  rw [htext]
  exact .behind_literal (by decide) (by decide)
    (.member ⟨by decide, by decide⟩ (hclass.titled _ (by decide)) (by decide)
      (hlast.mentions.cons (by decide)))

/-- The head of a method with its parameters. -/
theorem phrase_method {result list rest : Text} (hresult : Phrase accepts result)
    (hlist : Phrase accepts list) (hrest : Phrase accepts (')' :: rest)) :
    Phrase accepts (endpoint.futureOf result ++ ("(" ++ (list ++ ')' :: rest))) := by
  have htext : endpoint.futureOf result ++ ("(" ++ (list ++ ')' :: rest)) =
      "  Future<" ++ (result ++ ("> " ++ (endpoint.methodName ++ '(' :: (list ++ ')' :: rest)))) := by
    have hopen : ("(" : Text) = ['('] := rfl
    unfold Endpoint.futureOf
    rw [hopen]
    simp only [List.append_assoc, List.cons_append, List.nil_append]
  have hparameters : Phrase accepts (list ++ ')' :: rest) := by
    refine hlist.append hrest (.inr ?_)
    rintro c ⟨⟩
    decide
  rw [htext]
  exact .behind_literal (by decide) (by decide) (hresult.append
    (.behind_literal (by decide) (by decide)
      (.member h.isWord_methodName h.name (by decide) hparameters.mentions))
    (.inr (.append (by decide) (by decide) _)))

end Endpoint.Accepted

theorem ClassFile.phrase_member (file : ClassFile) (hfeature : feature.Plain)
    (hclass : AcceptsClasses accepts) (h : endpoint.Accepted accepts) :
    Phrase accepts (file.member feature endpoint) := by
  have hreturn : Phrase accepts endpoint.returnType := h.returnType.phrase
  have heither := h.phrase_eitherType hclass
  have htyped := h.phrase_typedParameters h.passed
  have hcall := h.phrase_call h.passed h.name
  have hclose : (");" : Text) = ')' :: ";".toList := rfl
  have harrow : (") =>\n      " : Text) = ')' :: " =>\n      ".toList := by
    repeat rw [String.toList_ofList]
  have hend : Phrase accepts (')' :: ";") := .of_mute (by decide)
  have hcalled : Phrase accepts (endpoint.call ++ ";") :=
    hcall.append (.literal (by decide)) (.inr (by decide))
  have hoverride : Phrase accepts "  @override\n" := .literal (by decide)
  cases file with
  | service =>
      have hsent : ∀ word ∈ sentWords, accepts word := by
        have hall : ∀ word ∈ sentWords, isTitled word = true := by decide
        exact fun word hword => hclass.titled word (hall word hword)
      have hverb : AsciiWordy endpoint.annotatedVerb ∧ isTitled endpoint.annotatedVerb = true := by
        have hall : ∀ verb ∈ annotatedVerbs, AsciiWordy verb ∧ isTitled verb = true := by decide
        exact hall _ h.annotatedVerb_mem
      have hverb_ne : endpoint.annotatedVerb ≠ [] := by
        intro hnil
        rw [hnil] at hverb
        cases hverb.2
      have hmethod := h.phrase_method hreturn (h.phrase_clientParameters h.passed hsent) hend
      have hquoted := (h.path.append
        (.behind (.literal (by decide) : Phrase accepts "\")\n") (.literal (by decide))
          hmethod) (.inr (.append (by decide) (by decide) _))).cons (c := '"') (by decide)
      have hmember := Phrase.behind (.literal (by decide) : Phrase accepts "  @")
        (.literal (by decide))
        (.member (hverb.1.isWord hverb_ne) (hclass.titled _ hverb.2) (c := '(') (by decide) hquoted)
      have hopen : ("(\"" : Text) = '(' :: '"' :: [] := rfl
      have hline : ("\")\n" : Text) = "\")" ++ "\n" := Text.literal_append rfl
      have hsign : ("  @" : Text) = "  " ++ "@" := Text.literal_append rfl
      unfold member Endpoint.annotation
      rw [hclose, hopen]
      rw [hline, hsign] at hmember
      simp -implicitDefEqProofs only [List.append_assoc, List.cons_append, List.nil_append]
        at hmember ⊢
      exact hmember
  | source =>
      have hmethod := h.phrase_method hreturn htyped hend
      unfold member
      rw [hclose]
      simpa only [List.append_assoc] using hmethod
  | sourceImpl =>
      have hbody : Phrase accepts (')' :: (" =>\n      " ++ (feature.serviceField ++
          ("." ++ (endpoint.call ++ ";"))))) :=
        .behind (.literal (by decide) : Phrase accepts ") =>\n      ") (.literal (by decide))
          (.word hfeature.serviceField (.append (by decide) (by decide) _)
            (.behind_literal (by decide) (by decide) hcalled))
      have hmethod := Phrase.behind hoverride (by decide) (h.phrase_method hreturn htyped hbody)
      unfold member
      rw [harrow]
      simp -implicitDefEqProofs only [List.append_assoc, List.cons_append] at hmethod ⊢
      exact hmethod
  | repositoryImpl =>
      have hrest : Phrase accepts (";\n" ++ ("      return right(res);\n" ++
          ("    \x7d catch (e) \x7b\n" ++ ("      return left(Error.customErrorType(e.toString()));\n" ++
            ("    \x7d\n" ++ "  \x7d" : Text))))) := by
        refine .of_words (classWords.drop 2) ?_ fun word hword =>
          hclass.fixed word (List.mem_of_mem_drop hword)
        unfold classWords
        repeat rw [String.toList_ofList]
        decide
      have hbody : Phrase accepts (')' :: (" async \x7b\n" ++ ("    try \x7b\n" ++
          ("      final res = await remoteDataSource." ++ (endpoint.call ++ (";\n" ++
            ("      return right(res);\n" ++ ("    \x7d catch (e) \x7b\n" ++
              ("      return left(Error.customErrorType(e.toString()));\n" ++
                ("    \x7d\n" ++ "  \x7d" : Text)))))))))) :=
        .behind (.literal (by decide) : Phrase accepts ") async \x7b\n") (.literal (by decide))
          (.behind_literal (by decide) (by decide)
            (.behind_literal (by decide) (by decide)
              (hcall.append hrest (.inr (.append (by decide) (by decide) _)))))
      have hmethod := Phrase.behind hoverride (by decide) (h.phrase_method heither htyped hbody)
      have hasync : (") async \x7b\n" : Text) = ')' :: " async \x7b\n".toList := by
        repeat rw [String.toList_ofList]
      unfold member
      rw [hasync]
      simp -implicitDefEqProofs only [List.append_assoc, List.cons_append] at hmethod ⊢
      exact hmethod
  | repository =>
      have hmethod := h.phrase_method heither htyped hend
      unfold member
      rw [hclose]
      simpa only [List.append_assoc] using hmethod
  | useCases =>
      have hbody : Phrase accepts (')' :: (" =>\n      " ++ ("repository." ++ (endpoint.call ++ ";")))) :=
        .behind (.literal (by decide) : Phrase accepts ") =>\n      ") (.literal (by decide))
          (.behind_literal (by decide) (by decide) hcalled)
      have hmethod := h.phrase_method heither htyped hbody
      have hrepository : (") =>\n      repository." : Text) =
          ')' :: (" =>\n      " ++ "repository.") := by
        repeat rw [String.toList_ofList]
        rfl
      unfold member
      rw [hrepository]
      simp -implicitDefEqProofs only [List.append_assoc, List.cons_append] at hmethod ⊢
      exact hmethod

/-! ## Openings of class files -/

theorem isTitled_append (h : isTitled a = true) (b : Text) : isTitled (a ++ b) = true := by
  cases a with
  | nil => cases h
  | cons c a => exact h

/-- The name of a feature starts with a small letter, so its name in class names starts with a
capital. -/
theorem isTitled_pascal (h : isFeatureName name = true) : isTitled name.pascal = true := by
  cases name with
  | nil => cases h
  | cons c rest =>
      have hsmall : isSmall c = true := (Bool.and_eq_true_iff.1 h).1
      have hrange := isSmall_iff.1 hsmall
      have hdrop : (c :: rest).dropWhile isSeparator = c :: rest :=
        List.dropWhile_cons_of_neg (by simp [isSeparator_of_letter (c := c) (by omega)])
      obtain ⟨word, others, hwords⟩ := Text.words_eq_cons hdrop
      have hcapital : isCapital (Char.ofNat (c.toNat - 32)) = true := by
        rw [isCapital_iff, toNat_upper hsmall]
        omega
      simp [Text.pascal, hwords, Text.capitalize, upperChar_of_small hsmall, isTitled, hcapital]

/-- A constructor with its parameters. -/
theorem phrase_constructor {rest : Text} (hname : AsciiWordy name) (htitled : isTitled name = true)
    (hclass : AcceptsClasses accepts) (ha : Phrase accepts a ∧ EndsApart a)
    (hrest : Phrase accepts rest) : Phrase accepts (a ++ (name ++ ("(" ++ rest))) := by
  have hne : name ≠ [] := by
    rintro rfl
    cases htitled
  exact .behind ha.1 ha.2 (.member (hname.isWord hne) (hclass.titled name htitled) (by decide)
    hrest.mentions)

theorem phrase_implementation {interface parameter field : Text} (hclass : AcceptsClasses accepts)
    (hinterface : AsciiWordy interface) (htitled : isTitled interface = true)
    (hparameter : AsciiWordy parameter) (hfield : AsciiWordy field) :
    Phrase accepts (ClassFile.implementation interface parameter field) := by
  have hinject : Phrase accepts ("@Injectable(as: " ++ interface ++ ")") := by
    have hlast : Phrase accepts (interface ++ ")") :=
      .word hinterface (by decide) (.literal (by decide))
    have has : Phrase accepts ("as" ++ ':' :: ' ' :: (interface ++ ")")) :=
      .member ⟨by decide, by decide⟩ (hclass.fixed "as" (by decide)) (by decide)
        (hlast.mentions.cons (by decide))
    have hmark : Phrase accepts ("@" ++ ("Injectable" ++ '(' :: ("as" ++ ':' :: ' ' ::
        (interface ++ ")")))) :=
      .behind_literal (by decide) (by decide)
        (.member ⟨by decide, by decide⟩
        (hclass.titled "Injectable" (by decide)) (by decide) has.mentions)
    have htext : ("@Injectable(as: " : Text) =
        "@" ++ ("Injectable" ++ '(' :: ("as" ++ [':', ' '])) := by
      repeat rw [String.toList_ofList]
      rfl
    rw [htext]
    simp -implicitDefEqProofs only [List.append_assoc, List.cons_append, List.nil_append]
    exact hmark
  have hindent : Phrase accepts "  " ∧ EndsApart "  " :=
    ⟨.literal (by decide), .literal (by decide)⟩
  have hcreate : Phrase accepts ("  " ++ interface ++ "Impl(this." ++ field ++ ");") := by
    have hrest : Phrase accepts ("this." ++ (field ++ ");")) :=
      .of_mute (.append (.literal (by decide)) (hfield.mute.append (.literal (by decide))))
    have hline := phrase_constructor (hinterface.append (by decide : AsciiWordy "Impl"))
      (isTitled_append htitled _) hclass hindent hrest
    have htext : ("Impl(this." : Text) = "Impl" ++ ("(" ++ "this.") := by
      repeat rw [String.toList_ofList]
      rfl
    rw [htext]
    simpa only [List.append_assoc] using hline
  refine .lines ?_
  simp only [List.forall_mem_cons]
  refine ⟨hinject, .of_mute ?_, hcreate, .nil, .of_mute ?_, .nil, List.forall_mem_nil _⟩
  · simp only [Consists.append_iff]
    exact ⟨⟨⟨⟨.literal (by decide), hinterface.mute⟩, .literal (by decide)⟩, hinterface.mute⟩,
      .literal (by decide)⟩
  · simp only [Consists.append_iff]
    exact ⟨⟨⟨⟨.literal (by decide), hparameter.mute⟩, .literal (by decide)⟩, hfield.mute⟩,
      .literal (by decide)⟩

theorem ClassFile.phrase_opening (file : ClassFile) (hfeature : feature.Plain)
    (htitled : isTitled feature.pascal = true) (hclass : AcceptsClasses accepts) :
    Phrase accepts (file.opening feature) := by
  have hline : ∀ {a b : Text}, Consists isMute a → Consists isMute b →
      Phrase accepts (a ++ feature.name ++ b) := fun ha hb => hfeature.name.phrase_between ha hb
  have habstract : ∀ {name : Text}, AsciiWordy name →
      Phrase accepts ("abstract class " ++ name ++ " \x7b") := fun hname =>
    hname.phrase_between (.literal (by decide)) (.literal (by decide))
  cases file with
  | service =>
      have hfactory : Phrase accepts ("  factory " ++ feature.serviceClass ++ "(Dio dio) = _" ++
          feature.serviceClass ++ ";") := by
        have hrest : Phrase accepts ("Dio dio) = _" ++ feature.serviceClass ++ ";") :=
          hfeature.serviceClass.phrase_between (.literal (by decide)) (.literal (by decide))
        have hfront : Phrase accepts "  factory " ∧ EndsApart "  factory " :=
          ⟨.literal (by decide), .literal (by decide)⟩
        have hcreate := phrase_constructor hfeature.serviceClass (isTitled_append htitled _) hclass
          hfront hrest
        have htext : ("(Dio dio) = _" : Text) = "(" ++ "Dio dio) = _" := Text.literal_append rfl
        rw [htext]
        simpa only [List.append_assoc] using hcreate
      refine .lines ?_
      simp only [List.forall_mem_cons]
      exact ⟨hline (.literal (by decide)) (.literal (by decide)), .nil,
        hline (.literal (by decide)) (.literal (by decide)),
        .of_words ["RestApi"] (by decide) (List.forall_mem_singleton.2 (hclass.titled _ (by decide))),
        .literal (by decide), habstract hfeature.serviceClass,
        .literal (by decide), hfactory, .nil,
        List.forall_mem_nil _⟩
  | source =>
      refine .lines ?_
      simp only [List.forall_mem_cons]
      exact ⟨hline (.literal (by decide)) (.literal (by decide)), habstract hfeature.sourceClass,
        List.forall_mem_nil _⟩
  | sourceImpl =>
      exact phrase_implementation hclass hfeature.sourceClass (isTitled_append htitled _)
        hfeature.serviceClass hfeature.serviceField
  | repositoryImpl =>
      exact phrase_implementation hclass hfeature.repositoryClass (isTitled_append htitled _)
        hfeature.sourceClass (by decide)
  | repository =>
      refine .lines ?_
      simp only [List.forall_mem_cons]
      exact ⟨hline (.literal (by decide)) (.literal (by decide)),
        habstract hfeature.repositoryClass, List.forall_mem_nil _⟩
  | useCases =>
      have hcreate : Phrase accepts ("  " ++ feature.useCasesClass ++ "(this.repository);") := by
        have hfront : Phrase accepts "  " ∧ EndsApart "  " :=
          ⟨.literal (by decide), .literal (by decide)⟩
        have hrest : Phrase accepts "this.repository);" := .literal (by decide)
        have hline := phrase_constructor hfeature.useCasesClass (isTitled_append htitled _) hclass
          hfront hrest
        rw [List.append_assoc]
        exact hline
      refine .lines ?_
      simp only [List.forall_mem_cons]
      exact ⟨.literal (by decide), hfeature.useCasesClass.phrase_between
        (.literal (by decide)) (.literal (by decide)),
        hcreate, .nil, hfeature.repositoryClass.phrase_between (.literal (by decide))
          (.literal (by decide)), .nil,
        List.forall_mem_nil _⟩

theorem endsApart_lines {lines : List Text} : EndsApart (Text.lines lines) := by
  by_cases hnil : lines = []
  · subst hnil
    decide
  · rw [EndsApart, Text.getLast?_lines hnil]
    rintro c ⟨⟩
    decide

theorem endsApart_importBlock (paths : List Text) : EndsApart (importBlock paths) := by
  rw [importBlock]
  split
  · decide
  · exact .append (by decide) (by decide) _

theorem ClassFile.endsApart_opening (file : ClassFile) (feature : Feature) :
    EndsApart (file.opening feature) := by
  cases file with
  | sourceImpl => exact endsApart_lines
  | repositoryImpl => exact endsApart_lines
  | _ => exact endsApart_lines

/-- The paths of a file's imports start with accepted words. -/
theorem hasScheme_imports {fixed : List Text} (hfeature : feature.Plain)
    (hpackage : accepts "package") (hfixed : ∀ path ∈ fixed, HasScheme accepts path)
    (h : ∀ endpoint ∈ endpoints, endpoint.Plain) :
    ∀ path ∈ (fixed ++ feature.modelImports endpoints).eraseDups, HasScheme accepts path := by
  intro path hpath
  rcases List.mem_append.1 (List.mem_eraseDups.1 hpath) with hpath | hpath
  · exact hfixed path hpath
  · exact ((mem_modelImports feature h path hpath).isPackagePath hfeature).hasScheme hpackage

theorem ClassFile.phrase_render (file : ClassFile) (hfeature : feature.Plain)
    (htitled : isTitled feature.pascal = true) (hclass : AcceptsClasses accepts)
    (h : ∀ endpoint ∈ endpoints, endpoint.Accepted accepts) :
    Phrase accepts (file.render feature endpoints) := by
  have hpackage : accepts "package" := hclass.fixed _ (by decide)
  have himports : Phrase accepts (importBlock (file.imports feature endpoints)) :=
    phrase_importBlock (hasScheme_imports hfeature hpackage
      (fun path hpath => (hfeature.packageImports file path hpath).hasScheme hpackage)
      fun endpoint hmem => (h endpoint hmem).toPlain)
  have hmembers : Phrase accepts (Text.join "\n\n" (endpoints.map fun endpoint =>
      file.member feature endpoint)) :=
    .join phrase_breaks.2 (by decide) (by decide) (by decide)
      (List.forall_mem_map.2 fun endpoint hmem => file.phrase_member hfeature hclass (h endpoint hmem))
  have hopening := file.phrase_opening hfeature htitled hclass
  unfold render
  simp only [List.append_assoc]
  exact .behind himports (endsApart_importBlock _) (.behind hopening
    (file.endsApart_opening feature) (hmembers.append (.literal (by decide))
      (.inr (by decide))))

end Scaffold
