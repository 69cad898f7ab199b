import Mathlib.Data.List.Forall2
import Scaffold.Dart.Bloc
import Scaffold.Proofs.Dart.Arguments
import Scaffold.Proofs.Endpoint.Extracted
import Scaffold.Proofs.Naming.Recasing
import Scaffold.Proofs.Text.Lines

/-!
# Signatures read back

The lists of parameters and of arguments that are rendered for an endpoint are read back piece by
piece: all of them have the same names in the same order, and those that declare parameters the same
types. So what one layer passes on is what the next one declares (`signatures_agree`).
-/

namespace Scaffold

variable {feature : Feature} {endpoint : Endpoint} {text piece part name type : Text}
  {parts : List Text}

/-! ## Lists between commas -/

/-- Without a separator there is one piece. -/
theorem splitCommas_of_avoids (h : Text.Avoids ", " text) : splitCommas text = [text] := by
  fun_induction splitCommas text with
  | case1 => rfl
  | case2 c => rfl
  | case3 c next rest hcommas ih =>
      rw [Bool.and_eq_true, decide_eq_true_iff, decide_eq_true_iff] at hcommas
      obtain ⟨rfl, rfl⟩ := hcommas
      exact absurd ⟨[], rest, rfl⟩ h
  | case4 c next rest hcommas hnil ih =>
      rw [hnil] at ih
      cases ih (h.of_part (List.suffix_cons c _).isInfix)
  | case5 c next rest hcommas first others heq ih =>
      rw [heq] at ih
      obtain ⟨rfl, rfl⟩ := List.cons.inj (ih (h.of_part (List.suffix_cons c _).isInfix))
      rfl

/-- The first piece ends at the first separator. -/
theorem splitCommas_append (h : Text.Avoids ", " piece) (rest : Text) :
    splitCommas (piece ++ (", " ++ rest)) = piece :: splitCommas rest := by
  induction piece with
  | nil => rfl
  | cons c piece ih =>
      have ih := ih (h.of_part (List.suffix_cons c _).isInfix)
      obtain ⟨d, tail, hcons, hd⟩ : ∃ d tail, piece ++ ((", " : Text) ++ rest) = d :: tail ∧
          ¬ (c = ',' ∧ d = ' ') := by
        cases piece with
        | nil => exact ⟨',', ' ' :: rest, rfl, fun hd => absurd hd.2 (by decide)⟩
        | cons d piece =>
            refine ⟨d, piece ++ ((", " : Text) ++ rest), rfl, ?_⟩
            rintro ⟨rfl, rfl⟩
            exact h ⟨[], piece, rfl⟩
      rw [hcons] at ih
      rw [List.cons_append, hcons, splitCommas, if_neg (by simpa using hd), ih]

/-- A list is split into its parts. -/
theorem splitCommas_commas (h : ∀ part ∈ parts, Text.Avoids ", " part) (hne : parts ≠ []) :
    splitCommas (commas parts) = parts := by
  unfold commas
  induction parts with
  | nil => exact absurd rfl hne
  | cons part parts ih =>
      have hpart := h part (by simp)
      by_cases hnil : parts = []
      · subst hnil
        simpa using splitCommas_of_avoids hpart
      · rw [Text.join_cons part hnil, List.append_assoc, splitCommas_append hpart,
          ih (fun other hother => h other (by simp [hother])) hnil]

/-! ## Reading a list -/

/-- The type and the name that a parameter declares: its last two words. One word is a name without a
type. -/
def declaredBy (parameter : Text) : Text × Text :=
  match (parameter.splitOn ' ').reverse with
  | name :: type :: _ => (type, name)
  | [name] => ([], name)
  | [] => ([], [])

/-- The types and names that a list of parameters declares, one for each piece between commas. The
empty list has no pieces. -/
def declarations (list : Text) : List (Text × Text) :=
  if list.isEmpty then [] else (splitCommas list).map declaredBy

/-- A list of named parameters without the braces around it. -/
def unbraced : Text → Text
  | '\x7b' :: rest => rest.dropLast
  | list => list

/-- The names that a list of arguments passes on, one for each piece between commas. The empty list
has no pieces. -/
def passedOn (list : Text) : List Text := if list.isEmpty then [] else splitCommas list

/-- A word of a parameter: it stands between blanks and does not end with a comma. -/
structure IsListWord (word : Text) : Prop where
  no_blank : ' ' ∉ word
  no_comma : ∀ c ∈ word.getLast?, c ≠ ','

/-- A word is judged by its last part, if no blank stands in front. -/
theorem IsListWord.of_end {a b : Text} (ha : ' ' ∉ a) (hb : IsListWord b) (hne : b ≠ []) :
    IsListWord (a ++ b) where
  no_blank := by simp [ha, hb.no_blank]
  no_comma c hc := hb.no_comma c (by rwa [List.getLast?_append_of_ne_nil a hne] at hc)

/-- The text is made of words, and the last two are the type and the name. -/
def Spells (text : Text) (declared : Text × Text) : Prop :=
  ∃ front : List Text, text = Text.join " " (front ++ [declared.1, declared.2]) ∧
    ∀ word ∈ front ++ [declared.1, declared.2], IsListWord word

/-- Words between blanks are no list. -/
theorem avoids_join_words {words : List Text} (h : ∀ word ∈ words, IsListWord word) :
    Text.Avoids ", " (Text.join " " words) := by
  induction words with
  | nil => decide
  | cons word words ih =>
      obtain ⟨hword, hrest⟩ := List.forall_mem_cons.1 h
      by_cases hnil : words = []
      · subst hnil
        exact Text.avoids_of_not_mem (c := ' ') (by decide) hword.no_blank
      have hmark : (", " : Text) = [',', ' '] := rfl
      have hblank : (" " : Text) = [' '] := rfl
      rw [Text.join_cons word hnil, List.append_assoc, hmark, hblank]
      rw [hmark, hblank] at ih
      rintro ⟨front, back, heq⟩
      rw [List.append_assoc] at heq
      rcases List.append_eq_append_iff.1 heq with ⟨mid, hmid, hback⟩ | ⟨mid, hmid, hback⟩
      · -- the comma stands in the word
        cases mid with
        | nil => exact absurd (List.cons.inj hback).1 (by decide)
        | cons c mid =>
            obtain ⟨rfl, hblanks⟩ := List.cons.inj hback
            cases mid with
            | nil => exact hword.no_comma ',' (by simp [hmid]) rfl
            | cons d mid =>
                obtain ⟨rfl, -⟩ := List.cons.inj hblanks
                exact hword.no_blank (by simp [hmid])
      · cases mid with
        | nil => exact absurd (List.cons.inj hback).1 (by decide)
        | cons c mid =>
            obtain ⟨-, hback⟩ := List.cons.inj hback
            exact ih hrest ⟨mid, back, by rw [List.append_assoc]; exact hback.symm⟩

/-- The last two words are read as type and name. -/
theorem declaredBy_of_spells {declared : Text × Text} (h : Spells text declared) :
    declaredBy text = declared := by
  obtain ⟨front, rfl, hwords⟩ := h
  have hsplit : (Text.join " " (front ++ [declared.1, declared.2])).splitOn ' ' =
      front ++ [declared.1, declared.2] :=
    Text.splitOn_join (by simp) fun word hword => (hwords word hword).no_blank
  rw [declaredBy, hsplit]
  simp

/-- A declared parameter has a blank between its type and its name. -/
theorem Spells.ne_nil {declared : Text × Text} (h : Spells text declared) : text ≠ [] := by
  obtain ⟨front, rfl, -⟩ := h
  by_cases hfront : front = []
  · simp [hfront, Text.join_cons]
  · rw [Text.join_append hfront (List.cons_ne_nil declared.1 [declared.2])]
    simp

/-- A list of parts that are not empty is not empty. -/
theorem commas_ne_nil (hparts : ∀ part ∈ parts, part ≠ []) (hne : parts ≠ []) :
    commas parts ≠ [] := by
  intro hnil
  obtain ⟨part, hmem⟩ := List.exists_mem_of_ne_nil parts hne
  have hpart : part <:+: [] := hnil ▸ Text.infix_join hmem
  exact hparts part hmem (List.infix_nil.1 hpart)

/-- A list of parameters declares what its parts spell. -/
theorem declarations_commas {declared : List (Text × Text)} (h : List.Forall₂ Spells parts declared) :
    declarations (commas parts) = declared := by
  by_cases hnil : parts = []
  · subst hnil
    cases h
    rfl
  -- every part has a blank in it, so the list is not taken for the empty one
  have hspells : ∀ part ∈ parts, ∃ declared, Spells part declared := by
    clear hnil
    induction h with
    | nil => exact List.forall_mem_nil _
    | cons hhead _ ih => exact List.forall_mem_cons.2 ⟨⟨_, hhead⟩, ih⟩
  have havoids : ∀ part ∈ parts, Text.Avoids ", " part := by
    intro part hpart
    obtain ⟨declared, front, rfl, hwords⟩ := hspells part hpart
    exact avoids_join_words hwords
  have hne : commas parts ≠ [] := commas_ne_nil (fun part hpart =>
    (hspells part hpart).elim fun _ hspells => hspells.ne_nil) hnil
  rw [declarations, if_neg (by simpa using hne), splitCommas_commas havoids hnil]
  clear hnil hspells havoids hne
  induction h with
  | nil => rfl
  | cons hhead _ ih => rw [List.map_cons, declaredBy_of_spells hhead, ih]

/-- A list of arguments passes on its parts. -/
theorem passedOn_commas (h : ∀ part ∈ parts, part ≠ [] ∧ ',' ∉ part) :
    passedOn (commas parts) = parts := by
  by_cases hnil : parts = []
  · subst hnil
    rfl
  have hne : commas parts ≠ [] := commas_ne_nil (fun part hpart => (h part hpart).1) hnil
  rw [passedOn, if_neg (by simpa using hne)]
  exact splitCommas_commas (fun part hpart => Text.avoids_of_not_mem (by decide) (h part hpart).2) hnil

/-! ## The lists of an endpoint -/

namespace Endpoint

/-- The types and names of the parameters of an endpoint's method: those in the path, then those in
the query, whose types are nullable, then the body. -/
def signature (endpoint : Endpoint) : List (Text × Text) :=
  (endpoint.parametersIn "path").map (fun parameter => (parameter.type, parameter.name)) ++
    (endpoint.parametersIn "query").map (fun parameter => (parameter.type ++ ['?'], parameter.name)) ++
    (if endpoint.body.isSome then [(endpoint.requestModel, ("params" : Text))] else [])

/-- The names of the parameters. -/
def parameterNames (endpoint : Endpoint) : List Text := endpoint.signature.map (·.2)

/-- The arguments of the endpoint's method can be told apart in a list: the names of its parameters
are not empty and have no blanks and commas, and their types are types of parameters. -/
structure Listed (endpoint : Endpoint) : Prop where
  names : ∀ parameter ∈ endpoint.parameters,
    parameter.location = "path" ∨ parameter.location = "query" →
      parameter.name ≠ [] ∧ ' ' ∉ parameter.name ∧ ',' ∉ parameter.name
  types : ∀ parameter ∈ endpoint.parameters,
    parameter.location = "path" ∨ parameter.location = "query" → parameter.type ∈ parameterTypes

/-- The signature has the types and names of the arguments. -/
theorem signature_eq (endpoint : Endpoint) : endpoint.signature =
    endpoint.arguments.map fun argument => (argument.declaredType, argument.name) := by
  rw [map_arguments]
  rfl

/-- The names of the parameters are those of the arguments. -/
theorem parameterNames_eq (endpoint : Endpoint) :
    endpoint.parameterNames = endpoint.arguments.map (·.name) := by
  rw [parameterNames, signature_eq, List.map_map]
  rfl

/-- The type of a request body is a word. -/
theorem isListWord_requestModel (endpoint : Endpoint) : IsListWord endpoint.requestModel := by
  have hblank : ' ' ∉ endpoint.baseName := fun hmem =>
    absurd (Text.solid_pascal endpoint.methodName ' ' hmem) (by decide)
  exact .of_end hblank (b := "Request") ⟨by decide, by simp⟩ (by decide)

/-- The types of parameters are words, nullable or not. -/
theorem isListWord_parameterType (h : type ∈ parameterTypes) :
    IsListWord type ∧ IsListWord (type ++ ['?']) := by
  have hall : ∀ type ∈ parameterTypes, ' ' ∉ type ∧ type.getLast? ≠ some ',' := by decide
  obtain ⟨hblank, hlast⟩ := hall type h
  exact ⟨⟨hblank, fun c hc heq => hlast (heq ▸ hc)⟩,
    .of_end hblank ⟨by decide, by simp⟩ (by decide)⟩

namespace Listed

variable {sent : Argument}

/-- Names and types of arguments are words, whatever their origin. -/
theorem of_mem (h : endpoint.Listed) (hmem : sent ∈ endpoint.arguments) :
    (sent.name ≠ [] ∧ ' ' ∉ sent.name ∧ ',' ∉ sent.name) ∧ IsListWord sent.declaredType := by
  have hsent : ∀ {location : Text} {parameter : Parameter},
      location = "path" ∨ location = "query" → parameter ∈ endpoint.parametersIn location →
      (parameter.name ≠ [] ∧ ' ' ∉ parameter.name ∧ ',' ∉ parameter.name) ∧
        IsListWord parameter.type ∧ IsListWord (parameter.type ++ ['?']) := by
    intro location parameter hlocation hparameter
    obtain ⟨hmem, heq⟩ := List.mem_filter.1 hparameter
    rw [← beq_iff_eq.1 heq] at hlocation
    exact ⟨h.names parameter hmem hlocation, isListWord_parameterType (h.types parameter hmem hlocation)⟩
  unfold arguments at hmem
  rcases List.mem_append.1 hmem with hmem | hmem
  · rcases List.mem_append.1 hmem with hmem | hmem
    · obtain ⟨parameter, hparameter, rfl⟩ := List.mem_map.1 hmem
      exact (hsent (.inl rfl) hparameter).imp id And.left
    · obtain ⟨parameter, hparameter, rfl⟩ := List.mem_map.1 hmem
      exact (hsent (.inr rfl) hparameter).imp id And.right
  · split at hmem
    · obtain rfl := List.mem_singleton.1 hmem
      have hname : ("params" : Text) ≠ [] ∧ ' ' ∉ ("params" : Text) ∧ ',' ∉ ("params" : Text) := by
        decide
      exact ⟨hname, endpoint.isListWord_requestModel⟩
    · cases hmem

/-- The name of an argument is a word. -/
theorem isListWord_name (h : endpoint.Listed) (hmem : sent ∈ endpoint.arguments) :
    IsListWord sent.name := by
  obtain ⟨⟨-, hblank, hcomma⟩, -⟩ := h.of_mem hmem
  exact ⟨hblank, fun c hc heq => hcomma (heq ▸ List.mem_of_getLast? hc)⟩

/-- A typed parameter spells its type and its name. -/
theorem spells_typed (h : endpoint.Listed) (hmem : sent ∈ endpoint.arguments) :
    Spells sent.typed (sent.declaredType, sent.name) :=
  ⟨[], rfl, by simpa using ⟨(h.of_mem hmem).2, h.isListWord_name hmem⟩⟩

/-- So does a parameter of the client: the annotation in front is one more word. -/
theorem spells_annotated (h : endpoint.Listed) (hmem : sent ∈ endpoint.arguments) :
    Spells sent.annotated (sent.declaredType, sent.name) := by
  have hmark : IsListWord sent.annotation := by
    obtain ⟨⟨-, hblank, -⟩, -⟩ := h.of_mem hmem
    unfold Argument.annotation
    cases sent.origin with
    | path => exact .of_end (by simp [hblank]) (b := "\")") ⟨by decide, by simp⟩ (by decide)
    | query => exact .of_end (by simp [hblank]) (b := "\")") ⟨by decide, by simp⟩ (by decide)
    | body => exact .of_end (a := []) (by simp) (b := "@Body()") ⟨by decide, by simp⟩ (by decide)
  exact ⟨[sent.annotation], rfl,
    by simpa using ⟨hmark, (h.of_mem hmem).2, h.isListWord_name hmem⟩⟩

/-- So does a named parameter, required or not. -/
theorem spells_named (h : endpoint.Listed) (hmem : sent ∈ endpoint.arguments) :
    Spells sent.named (sent.declaredType, sent.name) := by
  have hrequired : Spells ("required " ++ sent.typed) (sent.declaredType, sent.name) :=
    ⟨["required"], rfl, by
      simpa using ⟨⟨by decide, by simp⟩, (h.of_mem hmem).2, h.isListWord_name hmem⟩⟩
  unfold Argument.named
  cases sent.origin with
  | path => exact hrequired
  | query => exact h.spells_typed hmem
  | body => exact hrequired

/-- A list that spells the arguments declares them. -/
theorem declarations_of_spells {render : Argument → Text}
    (hrender : ∀ sent ∈ endpoint.arguments, Spells (render sent) (sent.declaredType, sent.name)) :
    declarations (commas (endpoint.arguments.map render)) = endpoint.signature := by
  rw [signature_eq]
  refine declarations_commas ?_
  rw [List.forall₂_map_left_iff, List.forall₂_map_right_iff, List.forall₂_same]
  exact hrender

/-- The typed parameters declare the signature. -/
theorem declarations_typedParameters (h : endpoint.Listed) :
    declarations endpoint.typedParameters = endpoint.signature := by
  rw [typedParameters_eq]
  exact declarations_of_spells fun _ hmem => h.spells_typed hmem

/-- The parameters of the client declare the signature. -/
theorem declarations_clientParameters (h : endpoint.Listed) :
    declarations endpoint.clientParameters = endpoint.signature := by
  rw [clientParameters_eq]
  exact declarations_of_spells fun _ hmem => h.spells_annotated hmem

/-- The named parameters declare the signature. -/
theorem declarations_namedParameters (h : endpoint.Listed) :
    declarations (unbraced endpoint.namedParameters) = endpoint.signature := by
  rw [← declarations_of_spells fun _ hmem => h.spells_named hmem, namedParameters_eq]
  cases hnil : endpoint.arguments with
  | nil => rfl
  | cons sent others => simp [unbraced]

/-- The arguments of a call are the names of the parameters. -/
theorem passedOn_callArguments (h : endpoint.Listed) :
    passedOn endpoint.callArguments = endpoint.parameterNames := by
  rw [parameterNames_eq, callArguments_eq]
  refine passedOn_commas fun part hpart => ?_
  obtain ⟨sent, hmem, rfl⟩ := List.mem_map.1 hpart
  obtain ⟨⟨hne, -, hcomma⟩, -⟩ := h.of_mem hmem
  exact ⟨hne, hcomma⟩

end Listed

end Endpoint

/-! ## Declarations and calls -/

/-- The text declares a method with the given types and names of parameters. -/
def Declares (text method : Text) (parameters : List (Text × Text)) : Prop :=
  ∃ front list back, text = front ++ (" " ++ method ++ "(" ++ list ++ ")") ++ back ∧
    declarations list = parameters

/-- The text calls a method with the given arguments. -/
def Calls (text method : Text) (arguments : List Text) : Prop :=
  ∃ front list back, text = front ++ (method ++ "(" ++ list ++ ")") ++ back ∧
    passedOn list = arguments

/-- A last part goes behind a list with a comma, or stands alone behind an empty one. -/
theorem joinNonempty_commas (hparts : ∀ part ∈ parts, part ≠ []) (hlast : text ≠ []) :
    joinNonempty [commas parts, text] = commas (parts ++ [text]) := by
  unfold joinNonempty
  cases parts with
  | nil => simp [commas, hlast]
  | cons part parts =>
      have hne : commas (part :: parts) ≠ [] := commas_ne_nil hparts (List.cons_ne_nil part parts)
      have hfilter : [commas (part :: parts), text].filter (fun part => !part.isEmpty) =
          [commas (part :: parts), text] := by
        simp [hne, hlast]
      rw [hfilter]
      exact (Text.join_append (List.cons_ne_nil part parts) (List.cons_ne_nil text [])).symm

/-- The field that holds a declared parameter. -/
def fieldOf (declared : Text × Text) : Text := finalField (declared.1 ++ " " ++ declared.2)

/-- The parameter of a handler that is not one of its endpoint. -/
def emitter (feature : Feature) : Text × Text := ("Emitter<" ++ feature.stateClass ++ ">", "emit")

/-- The emitter is spelled like a parameter. -/
theorem spells_emitterParameter (feature : Feature) :
    Spells (emitterParameter feature) (emitter feature) := by
  have hblank : ' ' ∉ ("Emitter<" : Text) ++ feature.stateClass := by
    have hsolid : Solid feature.stateClass := (Text.solid_pascal _).append (by decide)
    rw [List.mem_append, not_or]
    exact ⟨by decide, fun hmem => absurd (hsolid ' ' hmem) (by decide)⟩
  have hlast : ("> emit" : Text) = ">" ++ " " ++ "emit" := by simp
  have hparts : emitterParameter feature =
      Text.join " " [(emitter feature).1, (emitter feature).2] := by
    unfold emitterParameter emitter Text.join Text.join
    rw [hlast]
    simp only [List.append_assoc]
  refine ⟨[], hparts, ?_⟩
  rw [List.nil_append, List.forall_mem_cons, List.forall_mem_singleton]
  have hname : IsListWord "emit" := ⟨by decide, by rintro c hc rfl; exact absurd hc (by decide)⟩
  exact ⟨.of_end hblank (b := ">") ⟨by decide, by simp⟩ (by decide), hname⟩

namespace Endpoint.Listed

/-- Each member of a class file declares the signature. -/
theorem declares_member (h : endpoint.Listed) (feature : Feature) (file : ClassFile) :
    Declares (file.member feature endpoint) endpoint.methodName endpoint.signature := by
  have hclient := h.declarations_clientParameters
  have htyped := h.declarations_typedParameters
  have hname : ("> " : Text) = ">" ++ " " := Text.literal_append rfl
  have hend : (");" : Text) = ")" ++ ";" := Text.literal_append rfl
  have harrow : (") =>\n      " : Text) = ")" ++ " =>\n      " := Text.literal_append rfl
  have hbody : (") async \x7b\n" : Text) = ")" ++ " async \x7b\n" := Text.literal_append rfl
  have hrepository : (") =>\n      repository." : Text) = ")" ++ " =>\n      repository." :=
    Text.literal_append rfl
  -- the list is the client's in the service and the typed one in all other classes
  cases file with
  | service =>
      refine ⟨"  " ++ endpoint.annotation ++ "\n" ++ "  Future<" ++ endpoint.returnType ++ ">", _, ";",
        ?_, hclient⟩
      unfold ClassFile.member futureOf
      simp only [List.append_assoc, hname, hend]
  | source =>
      refine ⟨"  Future<" ++ endpoint.returnType ++ ">", _, ";", ?_, htyped⟩
      unfold ClassFile.member futureOf
      simp only [List.append_assoc, hname, hend]
  | sourceImpl =>
      refine ⟨"  @override\n" ++ "  Future<" ++ endpoint.returnType ++ ">", _,
        " =>\n      " ++ feature.serviceField ++ "." ++ endpoint.call ++ ";", ?_, htyped⟩
      unfold ClassFile.member futureOf
      simp only [List.append_assoc, hname, harrow]
  | repositoryImpl =>
      refine ⟨"  @override\n" ++ "  Future<" ++ endpoint.eitherType ++ ">", _,
        " async \x7b\n" ++ "    try \x7b\n" ++ "      final res = await remoteDataSource." ++
          endpoint.call ++ ";\n" ++ "      return right(res);\n" ++ "    \x7d catch (e) \x7b\n" ++
          "      return left(Error.customErrorType(e.toString()));\n" ++ "    \x7d\n" ++ "  \x7d",
        ?_, htyped⟩
      unfold ClassFile.member futureOf
      simp only [List.append_assoc, hname, hbody]
  | repository =>
      refine ⟨"  Future<" ++ endpoint.eitherType ++ ">", _, ";", ?_, htyped⟩
      unfold ClassFile.member futureOf
      simp only [List.append_assoc, hname, hend]
  | useCases =>
      refine ⟨"  Future<" ++ endpoint.eitherType ++ ">", _,
        " =>\n      repository." ++ endpoint.call ++ ";", ?_, htyped⟩
      unfold ClassFile.member futureOf
      simp only [List.append_assoc, hname, hrepository]

/-- The handler declares the signature and then the emitter. -/
theorem declares_blocHandler (h : endpoint.Listed) (feature : Feature) :
    Declares (blocHandler feature endpoint) endpoint.handlerName
      (endpoint.signature ++ [emitter feature]) := by
  have hlist : joinNonempty [endpoint.typedParameters, emitterParameter feature] =
      commas (endpoint.arguments.map (·.typed) ++ [emitterParameter feature]) := by
    have hemitter : emitterParameter feature ≠ [] := by
      unfold emitterParameter
      simp
    rw [typedParameters_eq]
    refine joinNonempty_commas (List.forall_mem_map.2 fun sent _ => ?_) hemitter
    simp [Argument.typed]
  have hopen : ("  Future<void> " : Text) = "  Future<void>" ++ " " := Text.literal_append rfl
  have hclose : (") async \x7b\n" : Text) = ")" ++ " async \x7b\n" := Text.literal_append rfl
  have htext : ∃ back, blocHandler feature endpoint = "  Future<void>" ++ (" " ++
      endpoint.handlerName ++ "(" ++ joinNonempty [endpoint.typedParameters, emitterParameter feature] ++
      ")") ++ back := by
    unfold blocHandler
    simp only [List.append_assoc, hopen, hclose]
    exact ⟨_, rfl⟩
  obtain ⟨back, htext⟩ := htext
  refine ⟨_, _, back, htext, ?_⟩
  rw [hlist, signature_eq]
  refine declarations_commas (List.rel_append ?_ ?_)
  · rw [List.forall₂_map_left_iff, List.forall₂_map_right_iff, List.forall₂_same]
    exact fun sent hmem => h.spells_typed hmem
  · exact .cons (spells_emitterParameter feature) .nil

/-- The names of parameters are not empty and hold no comma. -/
theorem names_mem (h : endpoint.Listed) :
    ∀ name ∈ endpoint.parameterNames, name ≠ [] ∧ ',' ∉ name := by
  rw [parameterNames_eq]
  refine List.forall_mem_map.2 fun sent hmem => ?_
  obtain ⟨⟨hne, -, hcomma⟩, -⟩ := h.of_mem hmem
  exact ⟨hne, hcomma⟩

/-- The data source calls the service with the names of the parameters. -/
theorem calls_sourceImpl (h : endpoint.Listed) (feature : Feature) :
    Calls (ClassFile.sourceImpl.member feature endpoint)
      (feature.serviceField ++ "." ++ endpoint.methodName) endpoint.parameterNames := by
  refine ⟨"  @override\n" ++ endpoint.futureOf endpoint.returnType ++ "(" ++
    endpoint.typedParameters ++ ") =>\n      ", _, ";", ?_, h.passedOn_callArguments⟩
  unfold ClassFile.member call
  simp only [List.append_assoc]

/-- The repository calls the data source with the names of the parameters. -/
theorem calls_repositoryImpl (h : endpoint.Listed) (feature : Feature) :
    Calls (ClassFile.repositoryImpl.member feature endpoint)
      ("remoteDataSource." ++ endpoint.methodName) endpoint.parameterNames := by
  have hopen : ("      final res = await remoteDataSource." : Text) =
      "      final res = await " ++ "remoteDataSource." := Text.literal_append rfl
  refine ⟨"  @override\n" ++ endpoint.futureOf endpoint.eitherType ++ "(" ++
    endpoint.typedParameters ++ ") async \x7b\n" ++ "    try \x7b\n" ++ "      final res = await ", _,
    ";\n" ++ "      return right(res);\n" ++ "    \x7d catch (e) \x7b\n" ++
      "      return left(Error.customErrorType(e.toString()));\n" ++ "    \x7d\n" ++ "  \x7d",
    ?_, h.passedOn_callArguments⟩
  unfold ClassFile.member call
  simp only [List.append_assoc, hopen]

/-- The use cases call the repository with the names of the parameters. -/
theorem calls_useCases (h : endpoint.Listed) (feature : Feature) :
    Calls (ClassFile.useCases.member feature endpoint)
      ("repository." ++ endpoint.methodName) endpoint.parameterNames := by
  have hopen : (") =>\n      repository." : Text) = ") =>\n      " ++ "repository." :=
    Text.literal_append rfl
  refine ⟨endpoint.futureOf endpoint.eitherType ++ "(" ++ endpoint.typedParameters ++ ") =>\n      ",
    _, ";", ?_, h.passedOn_callArguments⟩
  unfold ClassFile.member call
  simp only [List.append_assoc, hopen]

/-- The handler calls the use cases with the names of the parameters. -/
theorem calls_blocHandler (h : endpoint.Listed) (feature : Feature) :
    Calls (blocHandler feature endpoint) ("_useCases." ++ endpoint.methodName)
      endpoint.parameterNames := by
  have hopen : ("    final result = await _useCases." : Text) =
      "    final result = await " ++ "_useCases." := Text.literal_append rfl
  have htext : ∃ back, blocHandler feature endpoint = "  Future<void> " ++ endpoint.handlerName ++
      "(" ++ joinNonempty [endpoint.typedParameters, emitterParameter feature] ++ ") async \x7b\n" ++
      "    emit(state.copyWith(isLoading: true, error: const Error.none()));\n" ++ "\n" ++
      "    final result = await " ++ ("_useCases." ++ endpoint.methodName ++ "(" ++
      endpoint.callArguments ++ ")") ++ back := by
    unfold blocHandler call
    simp only [List.append_assoc, hopen]
    exact ⟨_, rfl⟩
  obtain ⟨back, htext⟩ := htext
  exact ⟨_, _, back, htext, h.passedOn_callArguments⟩

/-- The branch calls the handler with the names of the parameters and the emitter. -/
theorem calls_whenCase (h : endpoint.Listed) :
    Calls (whenCase endpoint) endpoint.handlerName
      (endpoint.parameterNames ++ [("emit" : Text)]) := by
  have hemit : ("emit" : Text) ≠ [] ∧ ',' ∉ ("emit" : Text) := by decide
  have hnames : ∀ name ∈ endpoint.parameterNames ++ [("emit" : Text)], name ≠ [] ∧ ',' ∉ name :=
    List.forall_mem_append.2 ⟨h.names_mem, List.forall_mem_singleton.2 hemit⟩
  have hlist : joinNonempty [endpoint.callArguments, "emit"] =
      commas (endpoint.parameterNames ++ [("emit" : Text)]) := by
    rw [callArguments_eq, ← parameterNames_eq]
    exact joinNonempty_commas (fun name hmem => (h.names_mem name hmem).1) hemit.1
  have hclose : ("),": Text) = ")" ++ "," := Text.literal_append rfl
  refine ⟨"        " ++ endpoint.eventName ++ ": (" ++ endpoint.callArguments ++ ") => ",
    joinNonempty [endpoint.callArguments, "emit"], ",", ?_, ?_⟩
  · unfold whenCase
    rw [hclose]
    simp only [List.append_assoc]
  · rw [hlist, passedOn_commas hnames]

/-- The branch binds the parameters of the event. -/
theorem binds_whenCase (h : endpoint.Listed) :
    Calls (whenCase endpoint) (endpoint.eventName ++ ": ") endpoint.parameterNames := by
  have hopen : (": (" : Text) = ": " ++ "(" := Text.literal_append rfl
  have hclose : (") => " : Text) = ")" ++ " => " := Text.literal_append rfl
  refine ⟨"        ", _, " => " ++ endpoint.handlerName ++ "(" ++
    joinNonempty [endpoint.callArguments, "emit"] ++ "),", ?_, h.passedOn_callArguments⟩
  unfold whenCase
  simp only [List.append_assoc, hopen, hclose]

/-- The case of the event declares the signature as named parameters. -/
theorem declares_eventCase (h : endpoint.Listed) (feature : Feature) :
    ∃ front list back, eventCase feature endpoint = front ++ (" " ++ feature.eventClass ++ "." ++
      endpoint.eventName ++ "(" ++ list ++ ")") ++ back ∧
      declarations (unbraced list) = endpoint.signature := by
  have hopen : ("  const factory " : Text) = "  const factory" ++ " " := Text.literal_append rfl
  have hclose : (") = " : Text) = ")" ++ " = " := Text.literal_append rfl
  refine ⟨"  const factory", _, " = " ++ endpoint.eventName.pascal ++ ";", ?_,
    h.declarations_namedParameters⟩
  unfold eventCase
  simp only [List.append_assoc, hopen, hclose]

/-- The arguments, each behind the name of the object that has them. -/
theorem passedOn_memberOf (h : endpoint.Listed) {object : Text} (hobject : ',' ∉ object) :
    passedOn (commas (endpoint.parameterNames.map (memberOf object))) =
      endpoint.parameterNames.map (memberOf object) := by
  refine passedOn_commas (List.forall_mem_map.2 fun name hmem => ?_)
  unfold memberOf
  refine ⟨by simp, ?_⟩
  simp [hobject, (h.names_mem name hmem).2]

/-- The arguments of a call are parted at their commas. -/
theorem splitCommas_callArguments (h : endpoint.Listed) (hne : endpoint.parameterNames ≠ []) :
    splitCommas endpoint.callArguments = endpoint.parameterNames := by
  rw [callArguments_eq, ← parameterNames_eq]
  exact splitCommas_commas (fun name hmem =>
    Text.avoids_of_not_mem (by decide) (h.names_mem name hmem).2) hne

/-- A method with parameters is called with arguments. -/
theorem callArguments_ne_nil (h : endpoint.Listed) (hne : endpoint.parameterNames ≠ []) :
    endpoint.callArguments ≠ [] := by
  intro hnil
  have hsplit := h.splitCommas_callArguments hne
  rw [hnil] at hsplit
  have hmem : [] ∈ endpoint.parameterNames := by
    rw [← hsplit]
    exact List.mem_singleton.2 rfl
  exact (h.names_mem [] hmem).1 rfl

/-- The arguments of a plain event are its members. -/
theorem eventArguments_eq (h : endpoint.Listed) :
    eventArguments endpoint = commas (endpoint.parameterNames.map (memberOf "event")) := by
  unfold eventArguments
  by_cases hnil : endpoint.parameterNames = []
  · have hcall : endpoint.callArguments = [] := by
      rw [callArguments_eq, ← parameterNames_eq, hnil]
      rfl
    rw [hcall, hnil]
    rfl
  · rw [if_neg (by simpa using h.callArguments_ne_nil hnil), h.splitCommas_callArguments hnil]

/-- The handler of a plain event calls the use cases with the members of the event. -/
theorem calls_plainBlocHandler (h : endpoint.Listed) (feature : Feature) :
    Calls (plainBlocHandler feature endpoint) ("_useCases." ++ endpoint.methodName)
      (endpoint.parameterNames.map (memberOf "event")) := by
  have hopen : ("    final result = await _useCases." : Text) =
      "    final result = await " ++ "_useCases." := Text.literal_append rfl
  have hclose : (");\n" : Text) = ")" ++ ";\n" := Text.literal_append rfl
  have htext : ∃ front back, plainBlocHandler feature endpoint = front ++ ("_useCases." ++
      endpoint.methodName ++ "(" ++ eventArguments endpoint ++ ")") ++ back := by
    refine ⟨"  Future<void> " ++ endpoint.plainHandler ++ "(" ++ endpoint.plainEvent ++ " event, " ++
      emitterParameter feature ++ ") async \x7b\n" ++ "    emit(" ++ endpoint.baseName ++
      "LoadingState());\n" ++ "\n" ++ "    final result = await ", ?_⟩
    unfold plainBlocHandler
    simp only [List.append_assoc, hopen, hclose]
    exact ⟨_, rfl⟩
  obtain ⟨front, back, htext⟩ := htext
  refine ⟨front, _, back, htext, ?_⟩
  rw [h.eventArguments_eq, h.passedOn_memberOf (by decide)]

/-- The typed parameters are parted at their commas. -/
theorem splitCommas_typedParameters (h : endpoint.Listed) (hne : endpoint.arguments ≠ []) :
    splitCommas endpoint.typedParameters = endpoint.arguments.map (·.typed) := by
  rw [typedParameters_eq]
  refine splitCommas_commas (List.forall_mem_map.2 fun sent hmem => ?_) (by simpa using hne)
  obtain ⟨front, htext, hwords⟩ := h.spells_typed hmem
  rw [htext]
  exact avoids_join_words hwords

/-- The event without arguments has no fields. -/
theorem plainEventClass_of_nil (feature : Feature) (hnil : endpoint.signature = []) :
    plainEventClass feature endpoint =
      "class " ++ endpoint.plainEvent ++ " extends " ++ feature.eventClass ++ " \x7b" ++ "\x7d" := by
  have hcall : endpoint.callArguments = [] := by
    rw [callArguments_eq, ← parameterNames_eq, parameterNames, hnil]
    rfl
  unfold plainEventClass
  rw [hcall]
  rfl

/-- The constructor of an event sets its fields. -/
theorem calls_plainEventClass (h : endpoint.Listed) (feature : Feature)
    (hne : endpoint.signature ≠ []) :
    ∃ front list, plainEventClass feature endpoint =
        front ++ (endpoint.plainEvent ++ "(" ++ list ++ ")") ++
          (";\n\n" ++ Text.join "\n" (endpoint.signature.map fieldOf) ++ "\n\x7d") ∧
      passedOn list = endpoint.parameterNames.map (memberOf "this") := by
  have hnames : endpoint.parameterNames ≠ [] := by simpa [parameterNames] using hne
  have harguments : endpoint.arguments ≠ [] := by simpa [signature_eq] using hne
  have hfields : (endpoint.arguments.map (·.typed)).map finalField =
      endpoint.signature.map fieldOf := by
    rw [signature_eq, List.map_map, List.map_map]
    rfl
  have hclose : (");\n\n" : Text) = ")" ++ ";\n\n" := Text.literal_append rfl
  refine ⟨"class " ++ endpoint.plainEvent ++ " extends " ++ feature.eventClass ++ " \x7b" ++ "\n  ",
    commas (endpoint.parameterNames.map (memberOf "this")), ?_, h.passedOn_memberOf (by decide)⟩
  unfold plainEventClass
  rw [if_neg (by simpa using h.callArguments_ne_nil hnames), h.splitCommas_callArguments hnames,
    h.splitCommas_typedParameters harguments, hfields]
  simp only [List.append_assoc, hclose]

end Endpoint.Listed

/-- The rendered layers agree on the parameters of an endpoint's method: each list of them reads as
the signature, each member declares it, and each call passes on what is declared where it goes. -/
structure SignaturesAgree (feature : Feature) (endpoint : Endpoint) : Prop where
  typed : declarations endpoint.typedParameters = endpoint.signature
  passed : passedOn endpoint.callArguments = endpoint.parameterNames
  client : declarations endpoint.clientParameters = endpoint.signature
  named : declarations (unbraced endpoint.namedParameters) = endpoint.signature
  members : ∀ file : ClassFile,
    Declares (file.member feature endpoint) endpoint.methodName endpoint.signature
  handler : Declares (blocHandler feature endpoint) endpoint.handlerName
    (endpoint.signature ++ [emitter feature])
  event : ∃ front list back, eventCase feature endpoint = front ++ (" " ++ feature.eventClass ++ "." ++
      endpoint.eventName ++ "(" ++ list ++ ")") ++ back ∧
    declarations (unbraced list) = endpoint.signature
  toService : Calls (ClassFile.sourceImpl.member feature endpoint)
    (feature.serviceField ++ "." ++ endpoint.methodName) endpoint.parameterNames
  toSource : Calls (ClassFile.repositoryImpl.member feature endpoint)
    ("remoteDataSource." ++ endpoint.methodName) endpoint.parameterNames
  toRepository : Calls (ClassFile.useCases.member feature endpoint)
    ("repository." ++ endpoint.methodName) endpoint.parameterNames
  toUseCases : Calls (blocHandler feature endpoint) ("_useCases." ++ endpoint.methodName)
    endpoint.parameterNames
  branch : Calls (whenCase endpoint) (endpoint.eventName ++ ": ") endpoint.parameterNames
  toHandler : Calls (whenCase endpoint) endpoint.handlerName
    (endpoint.parameterNames ++ [(emitter feature).2])
  plainToUseCases : Calls (plainBlocHandler feature endpoint) ("_useCases." ++ endpoint.methodName)
    (endpoint.parameterNames.map (memberOf "event"))
  plainEvent : endpoint.signature ≠ [] → ∃ front list, plainEventClass feature endpoint =
      front ++ (endpoint.plainEvent ++ "(" ++ list ++ ")") ++
        (";\n\n" ++ Text.join "\n" (endpoint.signature.map fieldOf) ++ "\n\x7d") ∧
    passedOn list = endpoint.parameterNames.map (memberOf "this")
  plainEventEmpty : endpoint.signature = [] → plainEventClass feature endpoint =
    "class " ++ endpoint.plainEvent ++ " extends " ++ feature.eventClass ++ " \x7b" ++ "\x7d"

/-- Whatever parameters an endpoint has and wherever they are sent: all lists of its parameters have
the same names in the same order with the same types, and every rendered call passes on, one for
one, what is declared by the member that it calls. -/
theorem signatures_agree (h : endpoint.Listed) (feature : Feature) :
    SignaturesAgree feature endpoint where
  typed := h.declarations_typedParameters
  passed := h.passedOn_callArguments
  client := h.declarations_clientParameters
  named := h.declarations_namedParameters
  members := h.declares_member feature
  handler := h.declares_blocHandler feature
  event := h.declares_eventCase feature
  toService := h.calls_sourceImpl feature
  toSource := h.calls_repositoryImpl feature
  toRepository := h.calls_useCases feature
  toUseCases := h.calls_blocHandler feature
  branch := h.binds_whenCase
  toHandler := h.calls_whenCase
  plainToUseCases := h.calls_plainBlocHandler feature
  plainEvent := h.calls_plainEventClass feature
  plainEventEmpty := Endpoint.Listed.plainEventClass_of_nil feature

/-- An endpoint with parameters of all four kinds in no order, and a body. -/
def mixedEndpoint : Endpoint where
  path := "/shops/\x7bshop\x7d/orders"
  method := "put"
  parameters := [⟨"limit", "query", false, "int", none⟩, ⟨"X-Trace", "header", true, "String", none⟩,
    ⟨"shop", "path", true, "String", none⟩, ⟨"session", "cookie", false, "String", none⟩,
    ⟨"tags", "query", false, "List<String>", none⟩]
  body := some {}

/-- An endpoint with parameters of all four kinds. -/
theorem signatures_agree_mixed :
    mixedEndpoint.Listed ∧
    mixedEndpoint.signature = ([("String", "shop"), ("int?", "limit"), ("List<String>?", "tags"),
      ("UpdateOrdersRequest", "params")] : List (Text × Text)) ∧
    SignaturesAgree ⟨"app", "shop", "model"⟩ mixedEndpoint := by
  have hlisted : mixedEndpoint.Listed := ⟨by decide, by decide⟩
  exact ⟨hlisted, by decide +kernel, signatures_agree hlisted _⟩

end Scaffold
