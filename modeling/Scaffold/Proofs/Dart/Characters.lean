import Scaffold.Dart.Bloc
import Scaffold.Proofs.Dart.Arguments
import Scaffold.Proofs.Endpoint.Extracted
import Scaffold.Proofs.Naming.Words
import Scaffold.Proofs.Text.Lines
import Scaffold.Proofs.Text.Search

/-!
# Characters of generated code

Which characters stand in the code that is written for an endpoint whose names are ASCII words.
Parameter lists hold nothing but words, blanks, commas and the signs of types
(`Plain.typedParameters`), so no closing parenthesis, brace or semicolon of a member comes from
them. A class of characters that takes what templates are written with (`TakesTokens`) takes them too.
-/

namespace Scaffold

/-- Every character of the text is one that `accepts` takes. -/
def Consists (accepts : Char → Bool) (text : Text) : Prop := ∀ c ∈ text, accepts c = true

namespace Consists

variable {accepts other : Char → Bool} {a b text : Text} {c : Char} {parts : List Text}

/-- The empty text holds nothing that is not taken. -/
theorem nil : Consists accepts [] := List.forall_mem_nil _

/-- A text is taken exactly if its parts are. -/
theorem append_iff : Consists accepts (a ++ b) ↔ Consists accepts a ∧ Consists accepts b :=
  List.forall_mem_append

/-- Two texts that are taken make one that is. -/
theorem append (ha : Consists accepts a) (hb : Consists accepts b) : Consists accepts (a ++ b) :=
  append_iff.2 ⟨ha, hb⟩

/-- A character and a text that are taken make one that is. -/
theorem cons (hc : accepts c = true) (h : Consists accepts text) : Consists accepts (c :: text) :=
  List.forall_mem_cons.2 ⟨hc, h⟩

/-- A class that takes more characters takes more texts. -/
theorem mono (h : Consists accepts text) (hle : ∀ c, accepts c = true → other c = true) :
    Consists other text :=
  fun c hc => hle c (h c hc)

/-- A literal is looked through as it is written, without decoding it. -/
theorem literal (h : Consists accepts text) :
    Consists accepts (String.ofList text : Text) := by
  rwa [String.toList_ofList]

/-- A character that is not taken does not stand in a text that is. -/
theorem not_mem (h : Consists accepts text) (hc : accepts c = false) : c ∉ text := by
  intro hmem
  have := h c hmem
  simp [hc] at this

/-- A list is taken if its separator and its parts are. -/
theorem join {separator : Text} (hseparator : Consists accepts separator)
    (hparts : ∀ part ∈ parts, Consists accepts part) :
    Consists accepts (Text.join separator parts) := by
  intro c hc
  rcases Text.mem_join hc with hc | ⟨part, hpart, hc⟩
  · exact hseparator c hc
  · exact hparts part hpart c hc

/-- Lines and their ends are taken if each of them is. -/
theorem lines (hbreak : accepts '\n' = true) (hlines : ∀ line ∈ parts, Consists accepts line) :
    Consists accepts (Text.lines parts) := by
  intro c hc
  obtain ⟨line, hline, hc⟩ := List.mem_flatMap.1 hc
  rcases List.mem_append.1 hc with hc | hc
  · exact hlines line hline c hc
  · exact List.mem_singleton.1 hc ▸ hbreak

end Consists

instance {accepts : Char → Bool} {text : Text} : Decidable (Consists accepts text) :=
  inferInstanceAs (Decidable (∀ c ∈ text, _))

/-- ASCII letters, digits and underscores. -/
def isAsciiWordChar (c : Char) : Bool := c == '_' || isAsciiAlphanumeric c

/-- The characters of parameter lists: words, blanks, commas and the signs of types. -/
def isSignatureChar (c : Char) : Bool :=
  isAsciiWordChar c || c == ' ' || c == ',' || c == '<' || c == '>' || c == '?'

/-- The characters of code without strings: no quotes, slashes, signs of annotations or dollars, and
of the line ends only line feeds. -/
def isCodeChar (c : Char) : Bool :=
  !(c == '\'' || c == '"' || c == '/' || c == '\r' || c == '$')

/-- An ASCII word is made of word characters. -/
theorem AsciiWordy.consists {text : Text} (h : AsciiWordy text) : Consists isAsciiWordChar text := by
  intro c hc
  rcases h c hc with rfl | h
  · rfl
  · simp [isAsciiWordChar, h]

/-- Words stand in parameter lists. -/
theorem isSignatureChar_of_word {c : Char} (h : isAsciiWordChar c = true) :
    isSignatureChar c = true := by
  simp [isSignatureChar, h]

/-- An ASCII word is a part of a parameter list. -/
theorem AsciiWordy.signature {text : Text} (h : AsciiWordy text) : Consists isSignatureChar text :=
  h.consists.mono fun _ => isSignatureChar_of_word

/-- The characters that templates are written with, but for line ends, braces and what only stands in
strings, comments and paths. -/
def isTokenChar (c : Char) : Bool :=
  !(c == '\'' || c == '"' || c == '/' || c == '$' || c == '\r' || c == '\n' || c == '\x7b' || c == '\x7d')

/-- The class takes the characters that templates are written with. -/
def TakesTokens (accepts : Char → Bool) : Prop := ∀ c, isTokenChar c = true → accepts c = true

namespace TakesTokens

variable {accepts : Char → Bool} {text : Text}

/-- Parameter lists hold characters of templates only. -/
theorem of_signature (h : TakesTokens accepts) (htext : Consists isSignatureChar text) :
    Consists accepts text := by
  refine htext.mono fun c hc => h c ?_
  have hne : ∀ d : Char, isSignatureChar d = false → (c == d) = false := by
    intro d hd
    rw [beq_eq_false_iff_ne]
    rintro rfl
    simp [hc] at hd
  simp [isTokenChar, hne '\'' (by decide), hne '"' (by decide), hne '/' (by decide),
    hne '$' (by decide), hne '\r' (by decide), hne '\n' (by decide), hne '\x7b' (by decide),
    hne '\x7d' (by decide)]

/-- ASCII words hold characters of templates only. -/
theorem of_asciiWordy (h : TakesTokens accepts) (htext : AsciiWordy text) : Consists accepts text :=
  h.of_signature htext.signature

end TakesTokens

/-- Templates are code without strings. -/
theorem takesTokens_isCodeChar : TakesTokens isCodeChar := by
  intro c hc
  simp only [isTokenChar, Bool.not_eq_true', Bool.or_eq_false_iff] at hc
  simp [isCodeChar, hc]

/-- An ASCII word is code without strings. -/
theorem AsciiWordy.code {text : Text} (h : AsciiWordy text) : Consists isCodeChar text :=
  takesTokens_isCodeChar.of_asciiWordy h

/-- An ASCII word stays one in small letters. -/
theorem AsciiWordy.snake {text : Text} (h : AsciiWordy text) : AsciiWordy text.snake := by
  intro d hd
  obtain ⟨c, hc, hd⟩ := List.mem_flatMap.1 (List.dropWhile_subset _ hd)
  have hascii : c.toNat < 0x80 := by
    rcases h c hc with rfl | halnum
    · decide
    · exact toNat_lt_of_isAsciiAlphanumeric halnum
  -- a capital becomes an underscore and a small letter, all else stays
  rw [Text.snakeChar] at hd
  split at hd
  · rcases List.mem_cons.1 hd with rfl | hd
    · exact .inl rfl
    · rcases mem_lowerChar_of_ascii hascii hd with rfl | hd
      · exact h d hc
      · exact .inr hd
  · rw [List.mem_singleton.1 hd]
    exact h c hc

/-! ## Signatures -/

/-- The arguments of the endpoint's method have names and types of accepted characters. -/
def Endpoint.Writes (accepts : Char → Bool) (endpoint : Endpoint) : Prop :=
  ∀ argument ∈ endpoint.arguments,
    Consists accepts argument.name ∧ Consists accepts argument.type

namespace Endpoint.Writes

variable {accepts : Char → Bool} {endpoint : Endpoint}

/-- Types and names that are taken make typed parameters that are, with a blank between and a `?`
behind types. -/
theorem typed (h : endpoint.Writes accepts) (hsigns : Consists accepts " ?") :
    ∀ argument ∈ endpoint.arguments, Consists accepts argument.typed := by
  intro argument hargument
  obtain ⟨hname, htype⟩ := h argument hargument
  have hblank : Consists accepts " " := fun c hc => hsigns c (List.mem_append_left "?" hc)
  have hoptional : Consists accepts "?" := fun c hc => hsigns c (List.mem_append_right " " hc)
  have hdeclared : Consists accepts argument.declaredType := by
    unfold Argument.declaredType
    split
    · exact htype.append hoptional
    · exact htype
  exact (hdeclared.append hblank).append hname

/-- The typed parameters are taken if the arguments and the signs of the list are. -/
theorem typedParameters (h : endpoint.Writes accepts) (hsigns : Consists accepts ", ?") :
    Consists accepts endpoint.typedParameters := by
  rw [typedParameters_eq]
  refine Consists.join (fun c hc => hsigns c (List.mem_append_left "?" hc)) fun part hpart => ?_
  obtain ⟨argument, hargument, rfl⟩ := List.mem_map.1 hpart
  exact h.typed (fun c hc => hsigns c (List.mem_append_right "," hc)) argument hargument

/-- The names of a call are taken if those of the arguments and the signs of the list are. -/
theorem callArguments (h : endpoint.Writes accepts) (hsigns : Consists accepts ", ") :
    Consists accepts endpoint.callArguments := by
  rw [callArguments_eq]
  refine Consists.join hsigns fun part hpart => ?_
  obtain ⟨argument, hargument, rfl⟩ := List.mem_map.1 hpart
  exact (h argument hargument).1

/-- The named parameters are taken if the arguments, the braces and the word `required` are. -/
theorem namedParameters (h : endpoint.Writes accepts)
    (hsigns : Consists accepts "\x7brequired , ?\x7d") :
    Consists accepts endpoint.namedParameters := by
  have hpart : ∀ part : Text, (∀ c ∈ part, c ∈ ("\x7brequired , ?\x7d" : Text)) →
      Consists accepts part := fun part hpart c hc => hsigns c (hpart c hc)
  have hnamed : Consists accepts (commas (endpoint.arguments.map (·.named))) := by
    refine Consists.join (hpart _ (by decide)) fun part hmem => ?_
    obtain ⟨argument, hargument, rfl⟩ := List.mem_map.1 hmem
    have htyped := h.typed (hpart _ (by decide)) argument hargument
    unfold Argument.named
    split
    · exact htyped
    · exact (hpart _ (by decide)).append htyped
  rw [namedParameters_eq]
  split
  · exact Consists.nil
  · exact .append (.cons (hsigns _ (by decide)) hnamed) (hpart _ (by decide))

/-- The client's parameters are taken if the arguments and the signs of their annotations are. -/
theorem clientParameters (h : endpoint.Writes accepts)
    (hsigns : Consists accepts "@PathQueryBody(\"\") , ?") :
    Consists accepts endpoint.clientParameters := by
  have hpart : ∀ part : Text, (∀ c ∈ part, c ∈ ("@PathQueryBody(\"\") , ?" : Text)) →
      Consists accepts part := fun part hpart c hc => hsigns c (hpart c hc)
  rw [clientParameters_eq]
  refine Consists.join (hpart _ (by decide)) fun part hmem => ?_
  obtain ⟨argument, hargument, rfl⟩ := List.mem_map.1 hmem
  have hname := (h argument hargument).1
  have hsent : Consists accepts argument.annotation := by
    unfold Argument.annotation
    split
    · exact ((hpart _ (by decide)).append hname).append (hpart _ (by decide))
    · exact ((hpart _ (by decide)).append hname).append (hpart _ (by decide))
    · exact hpart _ (by decide)
  exact (hsent.append (hpart _ (by decide))).append (h.typed (hpart _ (by decide)) argument hargument)

end Endpoint.Writes

/-! ## Endpoints with plain names -/

/-- The endpoint is one of a document, its method and the parameters it sends are named by ASCII
words. -/
structure Endpoint.Plain (endpoint : Endpoint) : Prop extends endpoint.Regular where
  methodName : AsciiWordy endpoint.methodName
  parameterName : ∀ parameter ∈ endpoint.parameters,
    parameter.location = "path" ∨ parameter.location = "query" → AsciiWordy parameter.name

/-- The names of the project, of the feature and of its folder for models are ASCII words. -/
structure Feature.Plain (feature : Feature) : Prop where
  project : AsciiWordy feature.project
  name : AsciiWordy feature.name
  modelFolder : AsciiWordy feature.modelFolder

/-- The types of parameters are parts of parameter lists. -/
theorem signature_of_mem_parameterTypes :
    ∀ type ∈ parameterTypes, Consists isSignatureChar type := by
  unfold parameterTypes
  simp only [List.forall_mem_cons]
  exact ⟨.literal (by decide), .literal (by decide), .literal (by decide), .literal (by decide),
    .literal (by decide), List.forall_mem_nil _⟩

namespace Endpoint.Plain

variable {endpoint : Endpoint} {c : Char}

/-- The name in capitals is an ASCII word. -/
theorem baseName (h : endpoint.Plain) : AsciiWordy endpoint.baseName := h.methodName.pascal

/-- The model of the request is named by an ASCII word. -/
theorem requestModel (h : endpoint.Plain) : AsciiWordy endpoint.requestModel :=
  h.baseName.append (by decide)

/-- The model of the response is named by an ASCII word. -/
theorem responseModel (h : endpoint.Plain) : AsciiWordy endpoint.responseModel :=
  h.baseName.append (by decide)

/-- The event is named by an ASCII word. -/
theorem eventName (h : endpoint.Plain) : AsciiWordy endpoint.eventName :=
  h.methodName.append (by decide)

/-- The field of the state is named by an ASCII word. -/
theorem stateField (h : endpoint.Plain) : AsciiWordy endpoint.stateField :=
  h.methodName.append (by decide)

/-- The handler is named by an ASCII word behind an underscore. -/
theorem handlerName (h : endpoint.Plain) : AsciiWordy endpoint.handlerName := by
  intro c hc
  rcases List.mem_cons.1 hc with rfl | hc
  · exact .inl rfl
  · exact h.methodName c hc

/-- The class of the plain event is named by an ASCII word. -/
theorem plainEvent (h : endpoint.Plain) : AsciiWordy endpoint.plainEvent :=
  h.baseName.append (by decide)

/-- The handler of the plain event is named by an ASCII word. -/
theorem plainHandler (h : endpoint.Plain) : AsciiWordy endpoint.plainHandler :=
  AsciiWordy.append (by decide) h.plainEvent

/-- What the method returns is a model or `dynamic`, an ASCII word either way. -/
theorem returnType (h : endpoint.Plain) : AsciiWordy endpoint.returnType := by
  unfold Endpoint.returnType
  split
  · exact h.responseModel
  · decide

/-- The models that the endpoint needs are named by ASCII words. -/
theorem requiredModel (h : endpoint.Plain) :
    ∀ model ∈ endpoint.requiredModels, AsciiWordy model := by
  intro model hmodel
  unfold Endpoint.requiredModels at hmodel
  rcases List.mem_append.1 hmodel with hmodel | hmodel
  · split at hmodel
    · exact List.mem_singleton.1 hmodel ▸ h.requestModel
    · simp at hmodel
  · split at hmodel
    · exact List.mem_singleton.1 hmodel ▸ h.responseModel
    · simp at hmodel

/-- Names and types of arguments, whatever their origin. -/
theorem argument (h : endpoint.Plain) :
    ∀ argument ∈ endpoint.arguments,
      AsciiWordy argument.name ∧ Consists isSignatureChar argument.type := by
  intro argument hargument
  have hsent : ∀ location : Text, location = "path" ∨ location = "query" →
      ∀ parameter ∈ endpoint.parametersIn location,
        AsciiWordy parameter.name ∧ Consists isSignatureChar parameter.type := by
    intro location hlocation parameter hparameter
    obtain ⟨hmem, hin⟩ := List.mem_filter.1 hparameter
    have hin : parameter.location = location := beq_iff_eq.1 hin
    exact ⟨h.parameterName parameter hmem (hin ▸ hlocation),
      signature_of_mem_parameterTypes _ (h.type_mem parameter hmem)⟩
  unfold Endpoint.arguments at hargument
  rcases List.mem_append.1 hargument with hargument | hargument
  · rcases List.mem_append.1 hargument with hargument | hargument
    · obtain ⟨parameter, hparameter, rfl⟩ := List.mem_map.1 hargument
      exact hsent "path" (.inl rfl) parameter hparameter
    · obtain ⟨parameter, hparameter, rfl⟩ := List.mem_map.1 hargument
      exact hsent "query" (.inr rfl) parameter hparameter
  · split at hargument
    · rw [List.mem_singleton.1 hargument]
      exact ⟨(by decide : AsciiWordy "params"), h.requestModel.signature⟩
    · simp at hargument

/-- Names and types of the arguments are parts of parameter lists. -/
theorem writes (h : endpoint.Plain) : endpoint.Writes isSignatureChar := fun argument hargument =>
  ⟨(h.argument argument hargument).1.signature, (h.argument argument hargument).2⟩

/-- Each typed parameter is a part of a parameter list. -/
theorem typed (h : endpoint.Plain) :
    ∀ argument ∈ endpoint.arguments, Consists isSignatureChar argument.typed :=
  h.writes.typed (.literal (by decide))

/-- The typed parameters hold no sign that ends a signature. -/
theorem typedParameters (h : endpoint.Plain) : Consists isSignatureChar endpoint.typedParameters :=
  h.writes.typedParameters (.literal (by decide))

/-- The arguments of a call hold no sign that ends it. -/
theorem callArguments (h : endpoint.Plain) : Consists isSignatureChar endpoint.callArguments :=
  h.writes.callArguments (.literal (by decide))

/-- Named parameters are those of signatures between braces. -/
theorem namedParameters (h : endpoint.Plain) :
    Consists (fun c => isSignatureChar c || c == '\x7b' || c == '\x7d')
      endpoint.namedParameters := by
  refine Endpoint.Writes.namedParameters (fun argument hargument => ?_) (.literal (by decide))
  obtain ⟨hname, htype⟩ := h.writes argument hargument
  exact ⟨hname.mono fun c hc => by simp [hc], htype.mono fun c hc => by simp [hc]⟩

/-- Parts of signatures, empty ones left out. -/
theorem joinNonempty {parts : List Text} (h : ∀ part ∈ parts, Consists isSignatureChar part) :
    Consists isSignatureChar (joinNonempty parts) :=
  Consists.join (.literal (by decide)) fun part hpart => h part (List.mem_of_mem_filter hpart)

end Endpoint.Plain

namespace Feature.Plain

variable {feature : Feature}

/-- The class of the events is named by an ASCII word. -/
theorem eventClass (h : feature.Plain) : AsciiWordy feature.eventClass :=
  h.name.pascal.append (by decide)

/-- The class of the state is named by an ASCII word. -/
theorem stateClass (h : feature.Plain) : AsciiWordy feature.stateClass :=
  h.name.pascal.append (by decide)

/-- The class of the service is named by an ASCII word. -/
theorem serviceClass (h : feature.Plain) : AsciiWordy feature.serviceClass :=
  h.name.pascal.append (by decide)

/-- The class of the data source is named by an ASCII word. -/
theorem sourceClass (h : feature.Plain) : AsciiWordy feature.sourceClass :=
  h.name.pascal.append (by decide)

/-- The class of the repository is named by an ASCII word. -/
theorem repositoryClass (h : feature.Plain) : AsciiWordy feature.repositoryClass :=
  h.name.pascal.append (by decide)

/-- The class of the use cases is named by an ASCII word. -/
theorem useCasesClass (h : feature.Plain) : AsciiWordy feature.useCasesClass :=
  h.name.pascal.append (by decide)

/-- The class of the bloc is named by an ASCII word. -/
theorem blocClass (h : feature.Plain) : AsciiWordy feature.blocClass :=
  h.name.pascal.append (by decide)

/-- The field with the service is named by an ASCII word. -/
theorem serviceField (h : feature.Plain) : AsciiWordy feature.serviceField :=
  h.name.camel.append (by decide)

/-- The emitter is declared like a parameter of the endpoint. -/
theorem emitterParameter (h : feature.Plain) :
    Consists isSignatureChar (Scaffold.emitterParameter feature) := by
  unfold Scaffold.emitterParameter
  exact .append (.append (.literal (by decide)) h.stateClass.signature) (.literal (by decide))

end Feature.Plain

/-! ## Marks that end with a blank -/

/-- What is avoided by the parts is avoided by their list, if it ends with a blank and holds no
other sign of a list. -/
theorem avoids_commas {mark : Text} {parts : List Text} (hlast : mark.getLast? = some ' ')
    (hhead : mark.head? ≠ some ' ') (hcomma : ',' ∉ mark)
    (h : ∀ part ∈ parts, Text.Avoids mark part) : Text.Avoids mark (commas parts) := by
  unfold commas
  induction parts with
  | nil => exact Text.avoids_of_not_mem (List.mem_of_getLast? hlast) (by simp)
  | cons part parts ih =>
      have hpart := h part (by simp)
      by_cases hnil : parts = []
      · subst hnil
        simpa using hpart
      · have ih := ih fun other hother => h other (by simp [hother])
        have hblank : Text.Avoids mark (' ' :: Text.join ", " parts) := by
          intro hin
          rcases List.infix_cons_iff.1 hin with hin | hin
          · cases mark with
            | nil => cases hlast
            | cons c mark =>
                obtain rfl := (List.cons_prefix_cons.1 hin).1
                exact hhead rfl
          · exact ih hin
        -- the mark ends with a blank, so in front of the comma it lies in the part as a whole
        have heq : Text.join ", " (part :: parts) =
            (part ++ [',']) ++ (' ' :: Text.join ", " parts) := by
          rw [Text.join_cons part hnil]
          simp
        rw [heq]
        exact (hpart.append_of_end hlast (by decide)).append_of_last hblank (by simpa using hcomma)

end Scaffold
