import Mathlib.Data.List.Nodup
import Scaffold.Proofs.Dart.Signatures
import Scaffold.Proofs.Naming.Identifiers

/-!
# Names in signatures

The parameters of a path, those of a query, the body and the emitter of a handler share one list.
Their names differ if they differ across these places (`nodup_declared_iff`); parameters that only
differ in their location do not (`not_nodup_declared_twice`).
-/

namespace Scaffold

variable {endpoint : Endpoint} {location : Text}

namespace Endpoint

/-- The names of the parameters that are sent in the path and in the query. -/
def sentNames (endpoint : Endpoint) : List Text :=
  (endpoint.parametersIn "path").map (·.name) ++ (endpoint.parametersIn "query").map (·.name)

/-- Parameters are told apart by their name and their location. -/
def Distinct (endpoint : Endpoint) : Prop :=
  (endpoint.parameters.map fun parameter => (parameter.name, parameter.location)).Nodup

/-- No name is used in two places: not in the path and in the query, and not for one of them and for
the body. -/
structure NamesApart (endpoint : Endpoint) : Prop where
  sent : ∀ parameter ∈ endpoint.parametersIn "path", ∀ other ∈ endpoint.parametersIn "query",
    parameter.name ≠ other.name
  body : endpoint.body.isSome = true → ("params" : Text) ∉ endpoint.sentNames

theorem parameterNames_eq_sentNames (endpoint : Endpoint) : endpoint.parameterNames =
    endpoint.sentNames ++ if endpoint.body.isSome then [("params" : Text)] else [] := by
  rw [parameterNames, signature, sentNames, List.map_append, List.map_append, List.map_map,
    List.map_map]
  cases endpoint.body <;> rfl

/-- Parameters that are sent in one place have different names. -/
theorem Distinct.nodup_names (h : endpoint.Distinct) (location : Text) :
    ((endpoint.parametersIn location).map (·.name)).Nodup := by
  have hsent : ((endpoint.parametersIn location).map fun parameter =>
      (parameter.name, parameter.location)).Nodup :=
    List.Nodup.sublist (List.filter_sublist.map _) h
  have hsame : ((endpoint.parametersIn location).map fun parameter =>
      (parameter.name, parameter.location)) =
        ((endpoint.parametersIn location).map (·.name)).map fun name => (name, location) := by
    rw [List.map_map]
    refine List.map_congr_left fun parameter hmem => ?_
    rw [Function.comp_apply, beq_iff_eq.1 (List.mem_filter.1 hmem).2]
  rw [hsame] at hsent
  exact hsent.of_map

theorem nodup_sentNames_iff (h : endpoint.Distinct) : endpoint.sentNames.Nodup ↔
    ∀ parameter ∈ endpoint.parametersIn "path", ∀ other ∈ endpoint.parametersIn "query",
      parameter.name ≠ other.name := by
  rw [sentNames, List.nodup_append]
  simp only [h.nodup_names, true_and, List.forall_mem_map]

theorem nodup_parameterNames_iff (h : endpoint.Distinct) :
    endpoint.parameterNames.Nodup ↔ endpoint.NamesApart := by
  rw [parameterNames_eq_sentNames, List.nodup_append, nodup_sentNames_iff h]
  cases hbody : endpoint.body.isSome with
  | false =>
      constructor
      · rintro ⟨hsent, -⟩
        exact ⟨hsent, by simp [hbody]⟩
      · rintro ⟨hsent, -⟩
        simpa using hsent
  | true =>
      constructor
      · rintro ⟨hsent, -, hparams⟩
        exact ⟨hsent, fun _ hmem => hparams _ hmem _ (by simp) rfl⟩
      · rintro ⟨hsent, hparams⟩
        refine ⟨hsent, by simp, fun name hname other hother heq => hparams hbody ?_⟩
        rw [if_pos rfl, List.mem_singleton] at hother
        rwa [← hother, ← heq]

end Endpoint

/-- For parameters that differ in name or location: the names that a rendered signature declares are
pairwise distinct exactly if no name is used both in the path and in the query, nor `params` beside a
body. Every member of a class file declares that signature. The handler declares the emitter behind
it, so there no name may be `emit` either. -/
theorem nodup_declared_iff (h : endpoint.Listed) (hdistinct : endpoint.Distinct)
    (feature : Feature) :
    (((declarations endpoint.typedParameters).map (·.2)).Nodup ↔ endpoint.NamesApart) ∧
    ((∀ file : ClassFile,
        Declares (file.member feature endpoint) endpoint.methodName endpoint.signature) ∧
      ((endpoint.signature.map (·.2)).Nodup ↔ endpoint.NamesApart)) ∧
    Declares (blocHandler feature endpoint) endpoint.handlerName
      (endpoint.signature ++ [emitter feature]) ∧
    (((endpoint.signature ++ [emitter feature]).map (·.2)).Nodup ↔
      endpoint.NamesApart ∧ ("emit" : Text) ∉ endpoint.sentNames) := by
  have hnames := endpoint.nodup_parameterNames_iff hdistinct
  refine ⟨?_, ⟨h.declares_member feature, hnames⟩, h.declares_blocHandler feature, ?_⟩
  · rwa [h.declarations_typedParameters]
  · -- the body is never named like the emitter
    have hemit : (emitter feature).2 ∈ endpoint.parameterNames ↔
        ("emit" : Text) ∈ endpoint.sentNames := by
      rw [endpoint.parameterNames_eq_sentNames, List.mem_append, or_iff_left]
      · rfl
      · split
        · exact fun hmem => absurd (List.mem_singleton.1 hmem) (by decide : ("emit" : Text) ≠ "params")
        · exact List.not_mem_nil
    rw [List.map_append, List.map_singleton, List.nodup_append, ← hemit]
    constructor
    · rintro ⟨hnodup, -, hlast⟩
      exact ⟨hnames.1 hnodup, fun hmem => hlast _ hmem _ (List.mem_singleton.2 rfl) rfl⟩
    · rintro ⟨hapart, hfree⟩
      refine ⟨hnames.2 hapart, List.nodup_singleton _, fun name hname other hother heq => hfree ?_⟩
      rwa [← List.mem_singleton.1 hother, ← heq]

/-- The parameters of an endpoint with all four kinds of them are declared with different names. -/
theorem nodup_declared_mixed :
    mixedEndpoint.Listed ∧ mixedEndpoint.Distinct ∧
    ((declarations mixedEndpoint.typedParameters).map (·.2)).Nodup := by
  have hlisted : mixedEndpoint.Listed := ⟨by decide, by decide⟩
  have hdistinct : mixedEndpoint.Distinct := by
    unfold Endpoint.Distinct
    decide
  exact ⟨hlisted, hdistinct,
    (nodup_declared_iff hlisted hdistinct ⟨"app", "shop", "model"⟩).1.2 ⟨by decide, by decide⟩⟩

/-- An endpoint with one name in its path and in its query. -/
def twiceEndpoint : Endpoint where
  path := "/users/\x7bid\x7d"
  method := "get"
  parameters := [⟨"id", "path", true, "int", none⟩, ⟨"id", "query", false, "int", none⟩]

/-- Parameters of one name in two locations are declared with one name. -/
theorem not_nodup_declared_twice :
    twiceEndpoint.Distinct ∧
    (∀ parameter ∈ twiceEndpoint.parameters,
      IsIdentifier parameter.name ∧ parameter.type ∈ parameterTypes) ∧
    twiceEndpoint.typedParameters = ("int id, int? id" : Text) ∧
    ¬ ((declarations twiceEndpoint.typedParameters).map (·.2)).Nodup := by
  have hid : IsIdentifier "id" := ⟨by decide, by decide, fun c hc => by
    obtain rfl : 'i' = c := Option.some.inj hc
    decide⟩
  have hdistinct : twiceEndpoint.Distinct := by
    unfold Endpoint.Distinct
    decide
  have htyped : twiceEndpoint.typedParameters = ("int id, int? id" : Text) := by decide +kernel
  have hnames : ((declarations "int id, int? id").map (·.2)) = [("id" : Text), ("id" : Text)] := by
    decide +kernel
  have hparameters : ∀ parameter ∈ twiceEndpoint.parameters,
      parameter.name = "id" ∧ parameter.type ∈ parameterTypes := by decide
  refine ⟨hdistinct, fun parameter hmem => ?_, htyped, ?_⟩
  · obtain ⟨hname, htype⟩ := hparameters parameter hmem
    exact ⟨hname ▸ hid, htype⟩
  rw [htyped, hnames]
  decide

end Scaffold
