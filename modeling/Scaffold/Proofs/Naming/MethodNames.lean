import Scaffold.Proofs.Naming.DerivedNames
import Scaffold.Proofs.Text.Lines

/-!
# What a method name depends on

A path is a row of segments between slashes. Segments that are empty and placeholders are idle: they
can be put in, taken out and rewritten anywhere in the path (`Respaced`). `methodName_independent`
says that an endpoint without an operation id is named after the verb in small letters and the last
segment that is not idle, and one with an operation id after that alone.
-/

namespace Scaffold

variable {row row' : List Text} {segment path : Text} {feature : Feature}
  {endpoint one other : Endpoint}

/-! ## Rows of segments -/

/-- An empty segment, or one that starts a placeholder. -/
def IsIdle (segment : Text) : Prop := segment = [] ∨ segment.head? = some '\x7b'

instance : Decidable (IsIdle segment) := inferInstanceAs (Decidable (_ ∨ _))

theorem isNamedSegment_eq_false_iff : isNamedSegment segment = false ↔ IsIdle segment := by
  cases segment with
  | nil => simp [isNamedSegment, IsIdle]
  | cons c rest => simp [isNamedSegment, IsIdle]

theorem isNamedSegment_iff : isNamedSegment segment = true ↔ ¬ IsIdle segment := by
  rw [← isNamedSegment_eq_false_iff, Bool.not_eq_false]

/-- The path goes through the segments of the row. -/
structure GoesThrough (path : Text) (row : List Text) : Prop where
  join : path = Text.join "/" row
  noSlash : ∀ segment ∈ row, '/' ∉ segment

/-- Two rows between which idle segments have been put in or taken out; a segment is rewritten by
both. -/
inductive Respaced : List Text → List Text → Prop
  | nil : Respaced [] []
  | keep (segment : Text) {row row' : List Text} : Respaced row row' →
      Respaced (segment :: row) (segment :: row')
  | putIn {segment : Text} {row row' : List Text} : IsIdle segment → Respaced row row' →
      Respaced row (segment :: row')
  | takeOut {segment : Text} {row row' : List Text} : IsIdle segment → Respaced row row' →
      Respaced (segment :: row) row'

/-- The segment is the last one of the row that is not idle. -/
def EndsIn (row : List Text) (segment : Text) : Prop :=
  ¬ IsIdle segment ∧ ∃ before after, row = before ++ segment :: after ∧ ∀ idle ∈ after, IsIdle idle

theorem filter_of_idle (h : ∀ segment ∈ row, IsIdle segment) : row.filter isNamedSegment = [] :=
  List.filter_eq_nil_iff.2 fun segment hmem hnamed => isNamedSegment_iff.1 hnamed (h segment hmem)

theorem Respaced.filter_eq (h : Respaced row row') :
    row.filter isNamedSegment = row'.filter isNamedSegment := by
  induction h with
  | nil => rfl
  | keep segment _ ih => simp only [List.filter_cons, ih]
  | putIn hidle _ ih => simp [isNamedSegment_eq_false_iff.2 hidle, ih]
  | takeOut hidle _ ih => simp [isNamedSegment_eq_false_iff.2 hidle, ih]

theorem EndsIn.getLast?_filter (h : EndsIn row segment) :
    (row.filter isNamedSegment).getLast? = some segment := by
  obtain ⟨hnamed, before, after, rfl, hafter⟩ := h
  rw [List.filter_append, List.filter_cons_of_pos (isNamedSegment_iff.2 hnamed),
    filter_of_idle hafter, List.getLast?_concat]

/-- The named segments of a path are those of its row. -/
theorem GoesThrough.namedSegments (h : GoesThrough path row) :
    namedSegments path = row.filter isNamedSegment := by
  rw [Scaffold.namedSegments, h.join]
  by_cases hnil : row = []
  · rw [hnil]
    rfl
  · exact congrArg _ (Text.splitOn_join hnil h.noSlash)

/-! ## Names -/

/-- The endpoint has no operation id, or an empty one. -/
def Endpoint.LacksId (endpoint : Endpoint) : Prop :=
  endpoint.operationId = none ∨ endpoint.operationId = some []

/-- The method is named alike, and so is all that is named after it. -/
structure Endpoint.NamedAlike (feature : Feature) (one other : Endpoint) : Prop where
  method : one.methodName = other.methodName
  derived : ∀ kind : NameKind, kind.name feature one = kind.name feature other

/-- The name of a method on a path that ends in a segment, for a verb in small letters. -/
def nameAfter (verb segment : Text) : Text :=
  match verbWord? verb with
  | some word => word ++ segment.pascal
  | none => segment.camel

/-- Names of all kinds depend on the endpoint through the method name alone. -/
theorem Endpoint.NamedAlike.of_methodName (h : one.methodName = other.methodName) :
    Endpoint.NamedAlike feature one other := by
  have hbase : one.baseName = other.baseName := congrArg Text.pascal h
  refine ⟨h, fun kind => ?_⟩
  cases kind with
  | requestModel => exact congrArg (· ++ _) hbase
  | responseModel => exact congrArg (· ++ _) hbase
  | stateField => exact congrArg (· ++ _) h
  | event => exact congrArg (· ++ _) h
  | caseClass => exact congrArg (fun name => Text.pascal (name ++ _)) h
  | handler => exact congrArg ('_' :: ·) h
  | plainEvent => exact congrArg (· ++ _) hbase
  | plainHandler => exact congrArg (fun base => _ ++ (base ++ _)) hbase
  | plainState index =>
      match index with
      | 0 => exact congrArg (· ++ _) hbase
      | 1 => exact congrArg (· ++ _) hbase
      | 2 => exact congrArg (· ++ _) hbase

namespace Endpoint

theorem methodName_of_id {id : Text} (hne : id ≠ []) (h : endpoint.operationId = some id) :
    endpoint.methodName = id.camel := by
  obtain ⟨c, rest, rfl⟩ := List.exists_cons_of_ne_nil hne
  rw [methodName, h]

theorem LacksId.methodName (h : endpoint.LacksId) (hrow : GoesThrough endpoint.path row) :
    endpoint.methodName = match (row.filter isNamedSegment).getLast? with
      | some segment => nameAfter endpoint.method.lower segment
      | none => endpoint.method.lower := by
  have hname : endpoint.methodName = endpoint.pathMethodName := by
    rw [Endpoint.methodName]
    rcases h with hid | hid <;> rw [hid]
  rw [hname, pathMethodName, hrow.namedSegments]
  cases (row.filter isNamedSegment).getLast? <;> rfl

/-- The method is named after the last segment that is not idle. -/
theorem LacksId.methodName_of_endsIn (h : endpoint.LacksId) (hrow : GoesThrough endpoint.path row)
    (hends : EndsIn row segment) :
    endpoint.methodName = nameAfter endpoint.method.lower segment := by
  rw [h.methodName hrow, hends.getLast?_filter]

/-- On a path with idle segments alone, the method is named after the verb. -/
theorem LacksId.methodName_of_idle (h : endpoint.LacksId) (hrow : GoesThrough endpoint.path row)
    (hidle : ∀ segment ∈ row, IsIdle segment) : endpoint.methodName = endpoint.method.lower := by
  rw [h.methodName hrow, filter_of_idle hidle]
  rfl

end Endpoint

/-- Without an operation id, the verb in small letters and the last segment of the path that is not
idle make the name, or the verb alone if there is none; so idle segments play no part. With an
operation id, nothing else does. -/
theorem methodName_independent (feature : Feature) (one other : Endpoint) :
    (one.LacksId → other.LacksId → one.method.lower = other.method.lower →
      ∀ row row' : List Text, GoesThrough one.path row → GoesThrough other.path row' →
        (∀ segment, EndsIn row segment → one.methodName = nameAfter one.method.lower segment ∧
          (EndsIn row' segment → one.NamedAlike feature other)) ∧
        ((∀ segment ∈ row, IsIdle segment) → one.methodName = one.method.lower) ∧
        (Respaced row row' → one.NamedAlike feature other)) ∧
    ∀ id : Text, id ≠ [] → one.operationId = some id → other.operationId = some id →
      one.NamedAlike feature other := by
  constructor
  · intro hone hother hverb row row' hrow hrow'
    refine ⟨fun segment hends => ⟨hone.methodName_of_endsIn hrow hends, fun hends' => ?_⟩,
      hone.methodName_of_idle hrow, fun hrespaced => ?_⟩
    · refine .of_methodName ?_
      rw [hone.methodName_of_endsIn hrow hends, hother.methodName_of_endsIn hrow' hends', hverb]
    · refine .of_methodName ?_
      rw [hone.methodName hrow, hother.methodName hrow', hrespaced.filter_eq, hverb]
  · intro id hne hone hother
    refine .of_methodName ?_
    rw [Endpoint.methodName_of_id hne hone, Endpoint.methodName_of_id hne hother]

/-- Slashes and placeholders around the naming segment, and the letter case of the verb, leave the
name; and an operation id takes the place of both. -/
theorem methodName_independent_users (feature : Feature) :
    let users : Endpoint := { path := "/users/\x7bid\x7d", method := "get" }
    let spaced : Endpoint := { path := "//\x7btenant\x7d/users//", method := "GET" }
    let named : Endpoint := { path := "/a", method := "get", operationId := some "list-users" }
    let other : Endpoint := { path := "/b", method := "put", operationId := some "list-users" }
    users.methodName = "getUsers" ∧ users.NamedAlike feature spaced ∧
      named.NamedAlike feature other := by
  intro users spaced named other
  have hrow : GoesThrough users.path ["", "users", "\x7bid\x7d"] := ⟨rfl, by decide⟩
  have hrow' : GoesThrough spaced.path ["", "", "\x7btenant\x7d", "users", "", ""] :=
    ⟨rfl, by decide⟩
  have hid : IsIdle "\x7bid\x7d" := .inr rfl
  have htenant : IsIdle "\x7btenant\x7d" := .inr rfl
  have hrespaced : Respaced ["", "users", "\x7bid\x7d"]
      ["", "", "\x7btenant\x7d", "users", "", ""] :=
    .keep _ (.putIn (.inl rfl) (.putIn htenant (.keep _ (.takeOut hid
      (.putIn (.inl rfl) (.putIn (.inl rfl) .nil))))))
  have hends : EndsIn ["", "users", "\x7bid\x7d"] "users" :=
    ⟨by decide, [""], ["\x7bid\x7d"], rfl, by decide⟩
  obtain ⟨hnamed, -, halike⟩ := (methodName_independent feature users spaced).1 (.inl rfl) (.inl rfl)
    (by decide) _ _ hrow hrow'
  exact ⟨(hnamed _ hends).1, halike hrespaced,
    (methodName_independent feature named other).2 _ (by decide) rfl rfl⟩

end Scaffold
