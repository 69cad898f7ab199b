import Scaffold.Dart.ClassFile
import Scaffold.Endpoint.Extraction

/-!
# Endpoints of documents

What extraction guarantees of every endpoint, whatever the document says: its verb is a supported
one (`Extracted.method_mem`), so it is annotated by that very verb, and its parameters have one of
five types (`Extracted.type_mem`).
-/

namespace Scaffold

/-- The endpoint stands in the catalog of some document. -/
def Extracted (endpoint : Endpoint) : Prop :=
  ∃ document catalog, Catalog.ofDocument document = .ok catalog ∧ endpoint ∈ catalog.endpoints

/-- The types that parameters have in signatures. -/
def parameterTypes : List Text := ["int", "double", "bool", "List<String>", "String"]

variable {ε α β : Type}

/-- Work in two parts succeeds if both parts do. -/
theorem bind_eq_ok {x : Except ε α} {f : α → Except ε β} {b : β} :
    (x >>= f) = .ok b ↔ ∃ a, x = .ok a ∧ f a = .ok b := by
  cases x with
  | error e => simp [bind, Except.bind]
  | ok a => simp [bind, Except.bind]

/-- What is done to an answer needs the answer. -/
theorem map_eq_ok {x : Except ε α} {f : α → β} {b : β} :
    x.map f = .ok b ↔ ∃ a, x = .ok a ∧ f a = b := by
  cases x with
  | error e => simp [Except.map]
  | ok a => simp [Except.map]

/-- What a walk over a list answers comes from the elements of the list. -/
theorem mem_of_mapM_eq_ok {f : α → Except ε β} {xs : List α} {ys : List β} {y : β}
    (h : xs.mapM f = .ok ys) (hy : y ∈ ys) : ∃ x ∈ xs, f x = .ok y := by
  induction xs generalizing ys with
  | nil =>
      cases h
      simp at hy
  | cons x xs ih =>
      rw [List.mapM_cons, bind_eq_ok] at h
      obtain ⟨first, hfirst, h⟩ := h
      obtain ⟨rest, hrest, h⟩ := bind_eq_ok.1 h
      cases h
      rcases List.mem_cons.1 hy with rfl | hy
      · exact ⟨x, by simp, hfirst⟩
      · obtain ⟨x', hx', hf⟩ := ih hrest hy
        exact ⟨x', by simp [hx'], hf⟩

/-- The type of a schema is one of the types of parameters. -/
theorem parameterType_mem (schema : Fields) : parameterType schema ∈ parameterTypes := by
  unfold parameterType
  split
  · simp [parameterTypes]
  · repeat' split
    all_goals simp [parameterTypes]

/-- The type of a parameter, if it has one, is one of the types of parameters. -/
theorem parameterTypeOf_mem {schema : Value} {type : Text} (h : parameterTypeOf schema = .ok type) :
    type ∈ parameterTypes := by
  unfold parameterTypeOf at h
  split at h
  · cases h
    exact parameterType_mem _
  · split at h
    · cases h
      simp [parameterTypes]
    · cases h

/-- A parameter that is read has one of the types. -/
theorem extractParameter_type_mem {operation : Text} {value : Value} {parameter : Parameter}
    (h : extractParameter operation value = .ok parameter) : parameter.type ∈ parameterTypes := by
  unfold extractParameter at h
  split at h
  · split at h
    · obtain ⟨type, htype, h⟩ := bind_eq_ok.1 h
      have htype := parameterTypeOf_mem htype
      dsimp only at h
      split at h
      · cases h
        exact htype
      · cases h
    · cases h
  · cases h

/-- All parameters that are read have one of the types. -/
theorem extractParameters_type_mem {operation : Text} {value : Value}
    {parameters : List Parameter} (h : extractParameters operation value = .ok parameters) :
    ∀ parameter ∈ parameters, parameter.type ∈ parameterTypes := by
  intro parameter hmem
  unfold extractParameters at h
  split at h
  · cases h
    simp at hmem
  · obtain ⟨item, -, hitem⟩ := mem_of_mapM_eq_ok h hmem
    exact extractParameter_type_mem hitem
  · cases h

/-- What every endpoint of a document has in common. -/
structure Endpoint.Regular (endpoint : Endpoint) : Prop where
  method_mem : endpoint.method ∈ supportedVerbs
  type_mem : ∀ parameter ∈ endpoint.parameters, parameter.type ∈ parameterTypes

/-- An operation with a supported verb is read into a regular endpoint. -/
theorem extractOperation_regular {operation verb : Text} {schemas fields : Fields} {path : Scalar}
    {entry : Endpoint × List Text} (hverb : verb ∈ supportedVerbs)
    (h : extractOperation operation schemas path verb fields = .ok entry) : entry.1.Regular := by
  unfold extractOperation at h
  obtain ⟨tags, -, h⟩ := bind_eq_ok.1 h
  obtain ⟨id, -, h⟩ := bind_eq_ok.1 h
  obtain ⟨parameters, hparameters, h⟩ := bind_eq_ok.1 h
  obtain ⟨body, -, h⟩ := bind_eq_ok.1 h
  obtain ⟨responses, -, h⟩ := bind_eq_ok.1 h
  dsimp only at h
  split at h
  · cases h
    exact ⟨hverb, extractParameters_type_mem hparameters⟩
  · cases h

/-- An entry of a path is read into a regular endpoint or none. -/
theorem extractEntry_regular {schemas : Fields} {path : Scalar} {item : Scalar × Value}
    {entry : Endpoint × List Text} (h : extractEntry schemas path item = .ok (some entry)) :
    entry.1.Regular := by
  unfold extractEntry at h
  obtain ⟨verb, -, h⟩ := bind_eq_ok.1 h
  dsimp only at h
  split at h
  · next hverb =>
    obtain ⟨shown, -, h⟩ := bind_eq_ok.1 h
    split at h
    · obtain ⟨entry', hentry, h⟩ := map_eq_ok.1 h
      cases h
      exact extractOperation_regular (List.contains_iff_mem.1 hverb) hentry
    · cases h
  · cases h

/-- The operations of a path are read into regular endpoints. -/
theorem extractPathItem_regular {schemas : Fields} {path : Scalar} {value : Value}
    {entries : List (Endpoint × List Text)} (h : extractPathItem schemas path value = .ok entries) :
    ∀ entry ∈ entries, entry.1.Regular := by
  intro entry hmem
  unfold extractPathItem at h
  split at h
  · obtain ⟨found, hfound, h⟩ := bind_eq_ok.1 h
    cases h
    obtain ⟨optional, hoptional, heq⟩ := List.mem_filterMap.1 hmem
    obtain rfl : optional = some entry := heq
    obtain ⟨item, -, hitem⟩ := mem_of_mapM_eq_ok hfound hoptional
    exact extractEntry_regular hitem
  · obtain ⟨shown, -, h⟩ := bind_eq_ok.1 h
    cases h

/-- A document is read into regular endpoints. -/
theorem extractEndpoints_regular {document : Value} {entries : List (Endpoint × List Text)}
    (h : extractEndpoints document = .ok entries) : ∀ entry ∈ entries, entry.1.Regular := by
  intro entry hmem
  unfold extractEndpoints at h
  split at h
  · split at h
    · obtain ⟨schemas, -, h⟩ := bind_eq_ok.1 h
      obtain ⟨items, hitems, h⟩ := bind_eq_ok.1 h
      cases h
      obtain ⟨entries', hentries', hmem⟩ := List.mem_flatten.1 hmem
      obtain ⟨item, -, hitem⟩ := mem_of_mapM_eq_ok hitems hentries'
      exact extractPathItem_regular hitem entry hmem
    · cases h
  · cases h

/-- An endpoint of the catalog with one more is the new one or was there. -/
theorem Catalog.mem_add {catalog : Catalog} {endpoint other : Endpoint} {tags : List Text}
    (h : other ∈ (catalog.add endpoint tags).endpoints) :
    other ∈ catalog.endpoints ∨ other = endpoint := by
  unfold add at h
  dsimp only at h
  split at h
  · exact .inl h
  · simpa using h

/-- The endpoints of a catalog are those that it was made of. -/
theorem Catalog.mem_ofEndpoints {entries : List (Endpoint × List Text)} {endpoint : Endpoint}
    (h : endpoint ∈ (Catalog.ofEndpoints entries).endpoints) :
    ∃ entry ∈ entries, entry.1 = endpoint := by
  have hfold : ∀ (entries : List (Endpoint × List Text)) (catalog : Catalog),
      endpoint ∈ (entries.foldl (fun catalog entry => catalog.add entry.1 entry.2)
        catalog).endpoints →
      endpoint ∈ catalog.endpoints ∨ ∃ entry ∈ entries, entry.1 = endpoint := by
    intro entries
    induction entries with
    | nil => exact fun catalog h => .inl h
    | cons entry entries ih =>
        intro catalog h
        rcases ih _ h with h | ⟨entry', hentry', heq⟩
        · rcases Catalog.mem_add h with h | rfl
          · exact .inl h
          · exact .inr ⟨entry, by simp, rfl⟩
        · exact .inr ⟨entry', by simp [hentry'], heq⟩
  exact (hfold entries {} h).resolve_left (by simp)

namespace Extracted

variable {endpoint : Endpoint}

/-- An endpoint of a document is regular. -/
theorem regular (h : Extracted endpoint) : endpoint.Regular := by
  obtain ⟨document, catalog, hcatalog, hmem⟩ := h
  obtain ⟨entries, hentries, rfl⟩ := map_eq_ok.1 hcatalog
  obtain ⟨entry, hentry, rfl⟩ := Catalog.mem_ofEndpoints hmem
  exact extractEndpoints_regular hentries entry hentry

end Extracted

/-! ## Selected endpoints -/

namespace Catalog

variable {catalog : Catalog} {endpoint : Endpoint}

/-- The endpoint at a position is one of the catalog. -/
theorem mem_of_atIndex? {index : Scalar} (h : catalog.atIndex? index = some endpoint) :
    endpoint ∈ catalog.endpoints := by
  obtain ⟨entry, hentry, rfl⟩ := Option.map_eq_some_iff.1 h
  obtain ⟨place, -, hplace⟩ := List.mem_filterMap.1 (List.mem_of_find?_eq_some hentry)
  obtain ⟨found, hfound, rfl⟩ := Option.map_eq_some_iff.1 hplace
  exact List.mem_of_find?_eq_some hfound

/-- What numbers select comes from the catalog. -/
theorem mem_of_resolve {indices : List Scalar} {selected : List Endpoint}
    (h : catalog.resolve indices = .ok selected) (hmem : endpoint ∈ selected) :
    endpoint ∈ catalog.endpoints := by
  have hfold : endpoint ∈ ([] : List Endpoint) ∨ endpoint ∈ catalog.endpoints := by
    rw [resolve] at h
    generalize ([] : List Endpoint) = start at h ⊢
    induction indices generalizing start with
    | nil =>
        cases h
        exact .inl hmem
    | cons index indices ih =>
        rw [List.foldlM_cons, bind_eq_ok] at h
        obtain ⟨next, hnext, hrest⟩ := h
        rcases ih next hrest with hnew | hold
        · cases hfound : catalog.atIndex? index with
          | none => rw [hfound] at hnext; cases hnext
          | some found =>
              rw [hfound] at hnext
              cases hnext
              rw [select1] at hnew
              split at hnew
              · exact .inl hnew
              · rcases List.mem_append.1 hnew with hnew | hnew
                · exact .inl hnew
                · rw [List.mem_singleton.1 hnew]
                  exact .inr (mem_of_atIndex? hfound)
        · exact .inr hold
  exact hfold.resolve_left List.not_mem_nil

/-- What is selected is in the catalog. -/
theorem mem_of_select {selection : Selection} {selected : List Endpoint}
    (h : catalog.select selection = .ok selected) (hmem : endpoint ∈ selected) :
    endpoint ∈ catalog.endpoints := by
  obtain ⟨found, hfound, h⟩ := bind_eq_ok.1 h
  cases found with
  | nil => cases h
  | cons first rest =>
      cases h
      exact mem_of_resolve hfound hmem

end Catalog

/-! ## The annotated verb -/

/-- Every supported verb has an annotation. -/
theorem upper_mem_annotatedVerbs : ∀ verb ∈ supportedVerbs, verb.upper ∈ annotatedVerbs := by
  decide +kernel

/-- A supported verb comes back from its capitals. -/
theorem lower_upper_of_mem : ∀ verb ∈ supportedVerbs, verb.upper.lower = verb := by
  decide +kernel

namespace Endpoint.Regular

variable {endpoint : Endpoint}

/-- The annotated verb is the verb of the endpoint. -/
theorem annotatedVerb_eq (h : endpoint.Regular) : endpoint.annotatedVerb = endpoint.method.upper :=
  if_pos (List.contains_iff_mem.2 (upper_mem_annotatedVerbs _ h.method_mem))

/-- The annotated verb has an annotation. -/
theorem annotatedVerb_mem (h : endpoint.Regular) : endpoint.annotatedVerb ∈ annotatedVerbs :=
  h.annotatedVerb_eq ▸ upper_mem_annotatedVerbs _ h.method_mem

/-- The verb is read back from the annotation. -/
theorem lower_annotatedVerb (h : endpoint.Regular) : endpoint.annotatedVerb.lower = endpoint.method :=
  h.annotatedVerb_eq ▸ lower_upper_of_mem _ h.method_mem

end Endpoint.Regular

end Scaffold
