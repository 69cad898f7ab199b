import Scaffold.Proofs.Endpoint.Operations

/-!
# Refused documents

Almost every refusal of a document reports what is wrong with it. The rest have two causes
(`Catalog.ofDocument_outcome`): a parameter whose schema is neither a mapping nor absent is asked for
its type all the same, and an integer with too many digits cannot be shown. A document with such a
parameter is never accepted.
-/

namespace Scaffold

variable {ε α β : Type} {e : ExtractionError} {value : Value} {schemas fields : Fields}
  {operation : Text} {loose loose' : Text → Prop} {showable showable' : Bool}

/-! ## Where an error comes from -/

/-- Work in two parts fails in the first or behind it in the second. -/
theorem bind_eq_error {x : Except ε α} {f : α → Except ε β} {e : ε} :
    (x >>= f) = .error e ↔ x = .error e ∨ ∃ a, x = .ok a ∧ f a = .error e := by
  cases x with
  | error e' => simp [bind, Except.bind]
  | ok a => simp [bind, Except.bind]

/-- What is done to an answer does not fail. -/
theorem map_eq_error {x : Except ε α} {f : α → β} {e : ε} :
    x.map f = .error e ↔ x = .error e := by
  cases x with
  | error e' => simp [Except.map]
  | ok a => simp [Except.map]

/-- A walk that fails does so at one of its items. -/
theorem exists_of_mapM_eq_error {f : α → Except ε β} {xs : List α} {e : ε}
    (h : xs.mapM f = .error e) : ∃ x ∈ xs, f x = .error e := by
  induction xs with
  | nil => cases h
  | cons x xs ih =>
      rw [List.mapM_cons, bind_eq_error] at h
      rcases h with h | ⟨first, -, h⟩
      · exact ⟨x, by simp, h⟩
      rcases bind_eq_error.1 h with h | ⟨rest, -, h⟩
      · obtain ⟨x', hmem, hx'⟩ := ih h
        exact ⟨x', by simp [hmem], hx'⟩
      · cases h

/-- A walk with a state fails at one of its items, in some state. -/
theorem exists_of_foldlM_eq_error {f : β → α → Except ε β} {xs : List α} {start : β} {e : ε}
    (h : xs.foldlM f start = .error e) : ∃ x ∈ xs, ∃ state, f state x = .error e := by
  induction xs generalizing start with
  | nil => cases h
  | cons x xs ih =>
      rw [List.foldlM_cons, bind_eq_error] at h
      rcases h with h | ⟨next, -, h⟩
      · exact ⟨x, by simp, start, h⟩
      · obtain ⟨x', hmem, hx'⟩ := ih h
        exact ⟨x', by simp [hmem], hx'⟩

/-- The error reports what is wrong, or it stems from one of the two causes: something that is loose,
or something that cannot be shown. -/
def ExtractionError.Stems (e : ExtractionError) (loose : Text → Prop) (showable : Bool) : Prop :=
  match e with
  | .notLookedUp kind => loose kind
  | .value _ => showable = false
  | _ => True

/-- No parameter is loose, in texts that hold none. -/
def noneLoose (_ : Text) : Prop := False

/-- More causes account for an error as well. -/
theorem ExtractionError.Stems.mono (h : e.Stems loose showable) (hloose : ∀ kind, loose kind → loose' kind)
    (hshowable : showable = false → showable' = false) : e.Stems loose' showable' := by
  cases e with
  | notLookedUp kind => exact hloose kind h
  | value fault => exact hshowable h
  | _ => trivial

/-! ## Parameters -/

/-- A parameter that cannot be given a type: its schema is neither a mapping nor absent. -/
def Value.LooseParameter (kind : Text) (parameter : Value) : Prop :=
  ∃ fields, parameter = .map fields ∧ (Fields.get? fields "name").isSome = true ∧
    (Fields.get? fields "in").isSome = true ∧ (Fields.get fields "schema").fields? = none ∧
      (Fields.get fields "schema").isAbsent = false ∧ (Fields.get fields "schema").kind = kind

/-- An operation with such a parameter. -/
def Operation.Loose (kind : Text) (op : Operation) : Prop :=
  ∃ parameters, op.field "parameters" = .list parameters ∧
    ∃ parameter ∈ parameters, parameter.LooseParameter kind

/-- A schema without a type is neither a mapping nor absent. -/
theorem parameterTypeOf_eq_error (h : parameterTypeOf value = .error e) :
    value.fields? = none ∧ value.isAbsent = false ∧ e = .notLookedUp value.kind := by
  unfold parameterTypeOf at h
  split at h
  · cases h
  · next hvalue =>
    split at h
    · cases h
    · next habsent =>
      refine ⟨?_, by simpa using habsent, (Except.error.inj h).symm⟩
      cases value with
      | map fields => exact absurd rfl (hvalue fields)
      | _ => rfl

/-- A parameter is refused with a report, or because it is loose. -/
theorem extractParameter_stems (h : extractParameter operation value = .error e) :
    e.Stems value.LooseParameter true := by
  unfold extractParameter at h
  split at h
  · next fields =>
    split at h
    · next name location hname hlocation =>
      rcases bind_eq_error.1 h with h | ⟨type, -, h⟩
      · obtain ⟨hfields, habsent, rfl⟩ := parameterTypeOf_eq_error h
        exact ⟨fields, rfl, by rw [hname]; rfl, by rw [hlocation]; rfl, hfields, habsent, rfl⟩
      · dsimp only at h
        split at h
        · cases h
        · obtain rfl := Except.error.inj h
          exact trivial
    · obtain rfl := Except.error.inj h
      exact trivial
  · obtain rfl := Except.error.inj h
    exact trivial

/-- Parameters are refused with a report, or because one of them is loose. -/
theorem extractParameters_stems (h : extractParameters operation value = .error e) :
    e.Stems (fun kind => ∃ parameters, value = .list parameters ∧
      ∃ parameter ∈ parameters, parameter.LooseParameter kind) true := by
  unfold extractParameters at h
  split at h
  · cases h
  · next items =>
    obtain ⟨item, hmem, hitem⟩ := exists_of_mapM_eq_error h
    exact (extractParameter_stems hitem).mono (fun kind hkind => ⟨items, rfl, item, hmem, hkind⟩) id
  · obtain rfl := Except.error.inj h
    exact trivial

/-! ## Bodies and responses -/

/-- What has to be a mapping is refused with its own report only. -/
theorem fieldsOr_stems {error : ExtractionError} (herror : error.Stems noneLoose true)
    (h : fieldsOr error value = .error e) : e.Stems noneLoose true := by
  unfold fieldsOr at h
  split at h
  · cases h
  · split at h
    · cases h
    · obtain rfl := Except.error.inj h
      exact herror

/-- A mapping is always resolved: to what it refers to, or to itself. -/
theorem resolveReference_map (schemas fields : Fields) :
    ∃ schema, resolveReference schemas (.map fields) = .ok schema := by
  unfold resolveReference
  dsimp only
  split
  · exact ⟨_, rfl⟩
  · exact ⟨_, rfl⟩

/-- Only mappings and null are looked up, so nothing loose is. -/
theorem jsonSchema_stems (h : jsonSchema operation schemas fields = .error e) :
    e.Stems noneLoose true := by
  unfold jsonSchema at h
  rcases bind_eq_error.1 h with h | ⟨content, -, h⟩
  · refine fieldsOr_stems ?_ h
    exact trivial
  rcases bind_eq_error.1 h with h | ⟨media, -, h⟩
  · refine fieldsOr_stems ?_ h
    exact trivial
  split at h
  · cases h
  · next schema hschema =>
    obtain ⟨resolved, hresolved⟩ := resolveReference_map schemas schema
    rw [hresolved] at h
    cases h
  · obtain rfl := Except.error.inj h
    exact trivial

/-- A body is refused with a report only. -/
theorem extractBody_stems (h : extractBody operation schemas value = .error e) :
    e.Stems noneLoose true := by
  unfold extractBody at h
  split at h
  · cases h
  · rcases bind_eq_error.1 h with h | ⟨schema, -, h⟩
    · exact jsonSchema_stems h
    · split at h
      · cases h
      · obtain rfl := Except.error.inj h
        exact trivial
  · obtain rfl := Except.error.inj h
    exact trivial

/-- A key is refused only if it cannot be shown. -/
theorem shownKey_stems {name : Scalar} (h : shownKey name = .error e) :
    e.Stems noneLoose name.isShowable := by
  unfold shownKey Scalar.shown at h
  split at h
  · cases h
  · next hshown =>
    obtain rfl := Except.error.inj h
    exact eq_false_of_ne_true hshown

/-- A response is refused with a report, or because its status cannot be shown. -/
theorem extractResponse_stems {status : Scalar}
    (h : extractResponse operation schemas status value = .error e) :
    e.Stems noneLoose status.isShowable := by
  unfold extractResponse at h
  split at h
  · rcases bind_eq_error.1 h with h | ⟨schema, -, h⟩
    · exact (jsonSchema_stems h).mono (fun _ => id) (fun h => by cases h)
    · dsimp only at h
      split at h
      · cases h
      · obtain rfl := Except.error.inj h
        exact trivial
  · rcases bind_eq_error.1 h with h | ⟨shown, -, h⟩
    · exact shownKey_stems h
    · obtain rfl := Except.error.inj h
      exact trivial

/-- A mapping with a part that cannot be shown cannot be shown. -/
theorem isShowable_of_mem {field : Scalar × Value} (hmem : field ∈ fields)
    (h : field.1.isShowable = false ∨ field.2.isShowable = false) :
    (Value.map fields).isShowable = false := by
  show Value.fieldsShowable fields = false
  induction fields with
  | nil => cases hmem
  | cons first fields ih =>
      obtain ⟨name, content⟩ := first
      unfold Value.fieldsShowable
      rcases List.mem_cons.1 hmem with rfl | hmem
      · rcases h with h | h <;> simp [h]
      · simp [ih hmem]

/-- Responses are refused with a report, or because a status cannot be shown. -/
theorem extractResponses_stems (h : extractResponses operation schemas value = .error e) :
    e.Stems noneLoose value.isShowable := by
  unfold extractResponses at h
  split at h
  · cases h
  · next fields =>
    obtain ⟨field, hmem, responses, h⟩ := exists_of_foldlM_eq_error h
    have hshowable : field.1.isShowable = false → (Value.map fields).isShowable = false :=
      fun hfield => isShowable_of_mem hmem (.inl hfield)
    rcases bind_eq_error.1 h with h | ⟨response, -, h⟩
    · exact (extractResponse_stems h).mono (fun _ => id) hshowable
    rcases bind_eq_error.1 h with h | ⟨shown, -, h⟩
    · exact (shownKey_stems h).mono (fun _ => id) hshowable
    · cases h
  · obtain rfl := Except.error.inj h
    exact trivial

/-! ## Operations -/

/-- What is looked up is a part of the mapping. -/
theorem get?_mem {key : Text} (h : Fields.get? fields key = some value) :
    ∃ field ∈ fields, field.2 = value := by
  unfold Fields.get? at h
  obtain ⟨field, hfield, rfl⟩ := Option.map_eq_some_iff.1 h
  exact ⟨field, List.mem_of_find?_eq_some hfield, rfl⟩

/-- A field that cannot be shown keeps its mapping from being shown. -/
theorem isShowable_get {key : Text} (h : (Fields.get fields key).isShowable = false) :
    (Value.map fields).isShowable = false := by
  unfold Fields.get at h
  cases hget : Fields.get? fields key with
  | none =>
      rw [hget] at h
      cases h
  | some value =>
      rw [hget] at h
      obtain ⟨field, hmem, rfl⟩ := get?_mem hget
      exact isShowable_of_mem hmem (.inr h)

/-- Tags are refused with a report only. -/
theorem extractTags_stems (h : extractTags operation value = .error e) : e.Stems noneLoose true := by
  unfold extractTags at h
  split at h
  · cases h
  · split at h
    · cases h
    · obtain rfl := Except.error.inj h
      exact trivial
  · obtain rfl := Except.error.inj h
    exact trivial

/-- The name of an operation is refused only if it cannot be shown. -/
theorem extractId_stems (h : extractId fields = .error e) :
    e.Stems noneLoose (Value.map fields).isShowable := by
  unfold extractId at h
  split at h
  · next value hvalue =>
    have hshown := map_eq_error.1 h
    unfold Value.shown at hshown
    split at hshown
    · cases hshown
    · next hhidden =>
      obtain rfl := Except.error.inj hshown
      unfold Fields.present? at hvalue
      obtain ⟨field, hmem, rfl⟩ := get?_mem (Option.eq_some_of_filter_eq_some hvalue)
      exact isShowable_of_mem hmem (.inr (by simpa using hhidden))
  · cases h

/-- An operation is refused with a report, or because a parameter is loose or a part of it cannot be
shown. The parts are read in the order of the record, and each refusal is followed to its own part.
-/
theorem Operation.extract_stems {op : Operation} (h : op.extract schemas = .error e) :
    e.Stems (fun kind => op.Loose kind) op.content.isShowable := by
  unfold Operation.extract at h
  split at h
  · next fields hcontent =>
    have hfield : ∀ name, op.field name = Fields.get fields name := by
      intro name
      unfold Operation.field
      rw [hcontent]
      rfl
    rw [hcontent]
    have hnone : ∀ {shown : Bool}, e.Stems noneLoose shown →
        (shown = false → (Value.map fields).isShowable = false) →
        e.Stems (fun kind => op.Loose kind) (Value.map fields).isShowable :=
      fun hstems hshown => hstems.mono (fun _ hkind => hkind.elim) hshown
    unfold extractOperation at h
    -- only the parameters can be loose; names and statuses are what has to be shown
    rcases bind_eq_error.1 h with h | ⟨tags, -, h⟩
    · exact hnone (extractTags_stems h) (by simp)
    rcases bind_eq_error.1 h with h | ⟨id, -, h⟩
    · exact hnone (extractId_stems h) fun h => h
    rcases bind_eq_error.1 h with h | ⟨parameters, -, h⟩
    · refine (extractParameters_stems h).mono (fun kind hkind => ?_) (by simp)
      unfold Operation.Loose
      rwa [hfield]
    rcases bind_eq_error.1 h with h | ⟨body, -, h⟩
    · exact hnone (extractBody_stems h) (by simp)
    rcases bind_eq_error.1 h with h | ⟨responses, -, h⟩
    · exact hnone (extractResponses_stems h) isShowable_get
    dsimp only at h
    split at h
    · cases h
    · obtain rfl := Except.error.inj h
      exact trivial
  · obtain rfl := Except.error.inj h
    exact trivial

/-- An entry of a path is refused as its operation is. Entries under foreign verbs are not looked
at. -/
theorem extractEntry_stems {path : Scalar} {entry : Scalar × Value}
    (h : extractEntry schemas path entry = .error e) :
    e.Stems (fun kind => ∃ op, operation? path entry = some op ∧ op.Loose kind)
      (path.isShowable && (entry.1.isShowable && entry.2.isShowable)) := by
  unfold extractEntry at h
  rcases bind_eq_error.1 h with h | ⟨shown, hshown, h⟩
  · exact (shownKey_stems h).mono (fun _ hkind => hkind.elim) fun h => by simp [h]
  obtain rfl := shownKey_eq_ok hshown
  dsimp only at h
  split at h
  · next hverb =>
    rcases bind_eq_error.1 h with h | ⟨title, htitle, h⟩
    · exact (shownKey_stems h).mono (fun _ hkind => hkind.elim) fun h => by simp [h]
    obtain rfl := shownKey_eq_ok htitle
    have hop : operation? path entry = some ⟨path, entry.1.display.lower, entry.2⟩ := by
      unfold operation? supportedVerb?
      rw [if_pos hverb]
      rfl
    split at h
    · next fields hcontent =>
      have hextract : Operation.extract schemas ⟨path, entry.1.display.lower, entry.2⟩ = .error e := by
        unfold Operation.extract
        rw [hcontent]
        exact map_eq_error.1 h
      exact (Operation.extract_stems hextract).mono (fun kind hkind => ⟨_, hop, hkind⟩)
        fun h => by simp [h]
    · obtain rfl := Except.error.inj h
      exact trivial
  · cases h

/-- A path is refused as one of its operations is. -/
theorem extractPathItem_stems {path : Scalar} (h : extractPathItem schemas path value = .error e) :
    e.Stems (fun kind => ∃ op ∈ pathOperations path value, op.Loose kind)
      (path.isShowable && value.isShowable) := by
  unfold extractPathItem at h
  split at h
  · next entries =>
    rcases bind_eq_error.1 h with h | ⟨found, -, h⟩
    · obtain ⟨entry, hmem, hentry⟩ := exists_of_mapM_eq_error h
      refine (extractEntry_stems hentry).mono ?_ ?_
      · rintro kind ⟨op, hop, hkind⟩
        exact ⟨op, List.mem_filterMap.2 ⟨entry, hmem, hop⟩, hkind⟩
      · intro hhidden
        -- the path is shown in a report about any of its entries
        rw [Bool.and_eq_false_iff, Bool.and_eq_false_iff] at hhidden
        rcases hhidden with hpath | hentry
        · rw [hpath]
          rfl
        · rw [isShowable_of_mem hmem hentry, Bool.and_false]
    · cases h
  · rcases bind_eq_error.1 h with h | ⟨shown, -, h⟩
    · exact (shownKey_stems h).mono (fun _ hkind => hkind.elim) fun h => by simp [h]
    · obtain rfl := Except.error.inj h
      exact trivial

/-- The schemas of a document are refused with a report only. -/
theorem componentSchemas_stems (h : componentSchemas fields = .error e) : e.Stems noneLoose true := by
  unfold componentSchemas at h
  rcases bind_eq_error.1 h with h | ⟨components, -, h⟩
  · refine fieldsOr_stems ?_ h
    exact trivial
  · refine fieldsOr_stems ?_ h
    exact trivial

/-- A document is refused as one of its operations is. -/
theorem extractEndpoints_stems {document : Value} (h : extractEndpoints document = .error e) :
    e.Stems (fun kind => ∃ op ∈ document.operations, op.Loose kind) document.isShowable := by
  unfold extractEndpoints at h
  split at h
  · next fields =>
    split at h
    · next paths hpaths =>
      rcases bind_eq_error.1 h with h | ⟨schemas, -, h⟩
      · exact (componentSchemas_stems h).mono (fun _ hkind => hkind.elim) (by simp)
      rcases bind_eq_error.1 h with h | ⟨items, -, h⟩
      · obtain ⟨item, hmem, hitem⟩ := exists_of_mapM_eq_error h
        refine (extractPathItem_stems hitem).mono ?_ ?_
        · rintro kind ⟨op, hop, hkind⟩
          refine ⟨op, List.mem_flatMap.2 ⟨item, ?_, hop⟩, hkind⟩
          rwa [Value.pathItems_map hpaths]
        · intro hhidden
          have hpathsHidden := isShowable_of_mem hmem (Bool.and_eq_false_iff.1 hhidden)
          rw [← hpaths] at hpathsHidden
          exact isShowable_get hpathsHidden
      · cases h
    · obtain rfl := Except.error.inj h
      exact trivial
  · obtain rfl := Except.error.inj h
    exact trivial

/-! ## Accepted documents -/

/-- A loose parameter is never accepted. -/
theorem extractParameter_of_loose {kind : Text} (h : value.LooseParameter kind) :
    extractParameter operation value = .error (.notLookedUp kind) := by
  obtain ⟨fields, rfl, hname, hlocation, hfields, habsent, rfl⟩ := h
  obtain ⟨name, hname⟩ := Option.isSome_iff_exists.1 hname
  obtain ⟨location, hlocation⟩ := Option.isSome_iff_exists.1 hlocation
  have htype : parameterTypeOf (Fields.get fields "schema") =
      .error (.notLookedUp (Fields.get fields "schema").kind) := by
    unfold parameterTypeOf
    split
    · next schema hschema =>
      rw [hschema] at hfields
      cases hfields
    · rw [habsent]
      rfl
  unfold extractParameter
  simp only [hname, hlocation, htype, bind, Except.bind]

/-- A walk that succeeds has succeeded at each of its items. -/
theorem exists_of_mapM_eq_ok {f : α → Except ε β} {xs : List α} {ys : List β} {x : α}
    (h : xs.mapM f = .ok ys) (hx : x ∈ xs) : ∃ y, f x = .ok y := by
  induction xs generalizing ys with
  | nil => cases hx
  | cons first xs ih =>
      rw [List.mapM_cons, bind_eq_ok] at h
      obtain ⟨y, hy, h⟩ := h
      obtain ⟨rest, hrest, -⟩ := bind_eq_ok.1 h
      rcases List.mem_cons.1 hx with rfl | hx
      · exact ⟨y, hy⟩
      · exact ih hrest hx

/-- An accepted operation has no loose parameter. -/
theorem Operation.not_loose_of_extract {op : Operation} {added : Endpoint × List Text}
    (h : op.extract schemas = .ok added) (kind : Text) : ¬ op.Loose kind := by
  rintro ⟨items, hitems, item, hmem, hloose⟩
  unfold Operation.extract at h
  split at h
  · next fields hcontent =>
    unfold extractOperation at h
    obtain ⟨tags, -, h⟩ := bind_eq_ok.1 h
    obtain ⟨id, -, h⟩ := bind_eq_ok.1 h
    obtain ⟨parameters, hparameters, -⟩ := bind_eq_ok.1 h
    have hfield : Fields.get fields "parameters" = .list items := by
      rw [← hitems]
      unfold Operation.field
      rw [hcontent]
      rfl
    rw [hfield] at hparameters
    obtain ⟨parameter, hparameter⟩ := exists_of_mapM_eq_ok hparameters hmem
    rw [extractParameter_of_loose hloose] at hparameter
    cases hparameter
  · cases h

/-- Where all operations are accepted, each one is. -/
theorem Extracts.exists_of_mem {ops : List Operation} {added : List (Endpoint × List Text)}
    {op : Operation} (h : Extracts schemas ops added) (hmem : op ∈ ops) :
    ∃ entry, op.extract schemas = .ok entry := by
  induction h with
  | nil => cases hmem
  | @cons first entry ops added hfirst _ ih =>
      rcases List.mem_cons.1 hmem with rfl | hmem
      · exact ⟨entry, hfirst⟩
      · exact ih hmem

/-- What becomes of a document: it is accepted, and then none of its parameters is loose; or it is
refused with a report about a fault; or a loose parameter is looked up; or something in it cannot be
shown. -/
theorem Catalog.ofDocument_outcome (document : Value) :
    match ofDocument document with
    | .ok _ => ∀ op ∈ document.operations, ∀ kind, ¬ op.Loose kind
    | .error (.notLookedUp kind) => ∃ op ∈ document.operations, op.Loose kind
    | .error (.value _) => document.isShowable = false
    | .error _ => True := by
  cases h : ofDocument document with
  | ok catalog =>
      obtain ⟨added, hadded, -⟩ := map_eq_ok.1 h
      obtain ⟨schemas, -, hextracts⟩ := extractEndpoints_operations hadded
      intro op hmem kind
      obtain ⟨entry, hentry⟩ := hextracts.exists_of_mem hmem
      exact Operation.not_loose_of_extract hentry kind
  | error e =>
      have hstems := extractEndpoints_stems (map_eq_error.1 h)
      cases e with
      | notLookedUp kind => exact hstems
      | value fault => exact hstems
      | _ => trivial

/-- A parameter with a text in the place of its schema. -/
def looseDocument : Value :=
  .map [(.text "paths", .map [(.text "/ping", .map [(.text "get", .map [
    (.text "parameters", .list [.map [(.text "name", .scalar (.text "q")),
      (.text "in", .scalar (.text "query")), (.text "schema", .scalar (.text "oops"))]])])])])]

/-- A document may be refused without a report, although all of it can be shown. -/
theorem Catalog.ofDocument_looseDocument :
    ofDocument looseDocument = .error (.notLookedUp "str") ∧ looseDocument.isShowable = true :=
  ⟨rfl, by decide⟩

end Scaffold
