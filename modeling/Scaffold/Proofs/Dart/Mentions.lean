import Scaffold.Dart.Bloc
import Scaffold.Proofs.Patch.Presence
import Scaffold.Proofs.Text.Lines

/-!
# What members mention

Every member that is written for an endpoint mentions the name by which it is looked for later, so a
text with the member has the name as a member (`ClassFile.mentions_member`).
-/

namespace Scaffold

variable {feature : Feature} {endpoint : Endpoint} {endpoints : List Endpoint} {text name : Text}

/-- A name between a mark that ends with no word character and a mark that opens a member. -/
theorem mentions_between {before after : Text} (first name last : Text)
    (hbefore : before.getLast?.any (fun c => !isWordChar c) = true)
    (hafter : after.head?.any (fun d => d == '(' || d == ':' || d == ',') = true) :
    Mentions (first ++ before ++ name ++ after ++ last) name := by
  obtain ⟨c, hc, hword⟩ := (Option.any_eq_true _ _).1 hbefore
  obtain ⟨d, hd, hopens⟩ := (Option.any_eq_true _ _).1 hafter
  obtain ⟨front, rfl⟩ := List.getLast?_eq_some_iff.1 hc
  obtain ⟨rest, rfl⟩ := List.head?_eq_some_iff.1 hd
  refine ⟨first ++ front, c, d, rest ++ last, by simp, by simpa using hword, ?_⟩
  simpa [or_assoc] using hopens

theorem mentions_futureOf (endpoint : Endpoint) (result last : Text) :
    Mentions (endpoint.futureOf result ++ "(" ++ last) endpoint.methodName := by
  have h : Mentions ("  Future<" ++ result ++ "> " ++ endpoint.methodName ++ "(" ++ last)
      endpoint.methodName :=
    mentions_between ("  Future<" ++ result) endpoint.methodName last (by decide) (by decide)
  exact h

/-- A member of a class file mentions the endpoint's method. -/
theorem ClassFile.mentions_member (file : ClassFile) (feature : Feature) (endpoint : Endpoint) :
    Mentions (file.member feature endpoint) endpoint.methodName := by
  have hmember : ∀ first result last : Text,
      Mentions (first ++ (endpoint.futureOf result ++ "(" ++ last)) endpoint.methodName :=
    fun first result last => (mentions_futureOf endpoint result last).append_left first
  cases file with
  | service =>
      have h := hmember ("  " ++ endpoint.annotation ++ "\n") endpoint.returnType
        (endpoint.clientParameters ++ ");")
      unfold member
      simpa only [List.append_assoc, List.nil_append] using h
  | source =>
      have h := hmember [] endpoint.returnType (endpoint.typedParameters ++ ");")
      unfold member
      simpa only [List.append_assoc, List.nil_append] using h
  | sourceImpl =>
      have h := hmember "  @override\n" endpoint.returnType (endpoint.typedParameters ++
        (") =>\n      " ++ feature.serviceField ++ "." ++ endpoint.call ++ ";"))
      unfold member
      simpa only [List.append_assoc, List.nil_append] using h
  | repositoryImpl =>
      have h := hmember "  @override\n" endpoint.eitherType (endpoint.typedParameters ++
        (") async \x7b\n" ++
          ("    try \x7b\n" ++ ("      final res = await remoteDataSource." ++ (endpoint.call ++
          (";\n" ++ ("      return right(res);\n" ++ ("    \x7d catch (e) \x7b\n" ++
          ("      return left(Error.customErrorType(e.toString()));\n" ++ ("    \x7d\n" ++
          "  \x7d"))))))))))
      unfold member
      simpa only [List.append_assoc, List.nil_append] using h
  | repository =>
      have h := hmember [] endpoint.eitherType (endpoint.typedParameters ++ ");")
      unfold member
      simpa only [List.append_assoc, List.nil_append] using h
  | useCases =>
      have h := hmember [] endpoint.eitherType (endpoint.typedParameters ++
        (") =>\n      repository." ++ endpoint.call ++ ";"))
      unfold member
      simpa only [List.append_assoc, List.nil_append] using h

/-- The head of a member of a class file, up to its parameters, stands in the file. -/
theorem ClassFile.mentions_render (file : ClassFile) (h : endpoint ∈ endpoints) :
    Mentions (file.render feature endpoints) endpoint.methodName := by
  have hmember : file.member feature endpoint <:+:
      Text.join "\n\n" (endpoints.map fun endpoint => file.member feature endpoint) :=
    Text.infix_join (List.mem_map_of_mem h)
  rw [render]
  exact (((file.mentions_member feature endpoint).of_part hmember).append_left _).append_right _

theorem mentions_eventCase (feature : Feature) (endpoint : Endpoint) :
    Mentions (eventCase feature endpoint) endpoint.eventName := by
  have h : Mentions ("  const factory " ++ feature.eventClass ++ "." ++ endpoint.eventName ++ "(" ++
      (endpoint.namedParameters ++ (") = " ++ (endpoint.eventName.pascal ++ ";"))))
      endpoint.eventName :=
    mentions_between ("  const factory " ++ feature.eventClass) endpoint.eventName _ (by decide)
      (by decide)
  unfold eventCase
  simpa only [List.append_assoc] using h

theorem mentions_stateField (endpoint : Endpoint) :
    Mentions (stateField endpoint) endpoint.stateField := by
  have h : Mentions (("    @Default(null) " : Text) ++ stateFieldType endpoint ++ " " ++
      endpoint.stateField ++ "," ++ ([] : Text)) endpoint.stateField :=
    mentions_between ("    @Default(null) " ++ stateFieldType endpoint) endpoint.stateField []
      (by decide) (by decide)
  unfold stateField
  simpa only [List.append_assoc, List.append_nil] using h

theorem mentions_whenCase (endpoint : Endpoint) :
    Mentions (whenCase endpoint) endpoint.handlerName := by
  have h : ∀ front last : Text, Mentions (front ++ ") => " ++ endpoint.handlerName ++ "(" ++ last)
      endpoint.handlerName :=
    fun front last => mentions_between front endpoint.handlerName last (by decide) (by decide)
  unfold whenCase
  simpa only [List.append_assoc] using
    h ("        " ++ (endpoint.eventName ++ (": (" ++ endpoint.callArguments))) _

theorem mentions_plainBlocHandler (feature : Feature) (endpoint : Endpoint) :
    Mentions (plainBlocHandler feature endpoint) endpoint.plainHandler := by
  have h : ∀ last : Text, Mentions (([] : Text) ++ "  Future<void> " ++ endpoint.plainHandler ++ "(" ++ last)
      endpoint.plainHandler :=
    fun last => mentions_between [] endpoint.plainHandler last (by decide) (by decide)
  unfold plainBlocHandler
  simpa only [List.append_assoc, List.nil_append] using h _

end Scaffold
