import Scaffold.Proofs.Endpoint.Catalog
import Scaffold.Proofs.Endpoint.Extracted

/-!
# The operations of a document

A document declares operations: the entries of its path items that are named by a supported verb in
any spelling. An accepted document gives each of them an endpoint, in its order
(`extractEndpoints_operations`), so its catalog holds one endpoint for each pair of verb and path and
lists it under the tags of all its operations (`Catalog.covers_ofDocument`). Other entries of path
items are never looked at: taking any of them away leaves the catalog as it is.
-/

namespace Scaffold

variable {document value : Value} {schemas fields entries paths : Fields} {path name : Scalar}
  {verb operation : Text} {entry : Scalar × Value} {endpoint : Endpoint} {catalog : Catalog}

/-! ## Operations -/

/-- An entry of a path item under a supported verb. -/
structure Operation where
  path : Scalar
  verb : Text
  content : Value

/-- The verb that an entry of a path item is named by, if it is a supported one. -/
def supportedVerb? (name : Scalar) : Option Text :=
  if supportedVerbs.contains name.display.lower then some name.display.lower else none

/-- The operation that an entry of a path item declares. -/
def operation? (path : Scalar) (entry : Scalar × Value) : Option Operation :=
  (supportedVerb? entry.1).map fun verb => ⟨path, verb, entry.2⟩

/-- The operations of a path item. -/
def pathOperations (path : Scalar) : Value → List Operation
  | .map entries => entries.filterMap (operation? path)
  | _ => []

/-- The path items of a document. -/
def Value.pathItems (document : Value) : Fields :=
  ((document.fields?.getD []).get "paths").fields?.getD []

/-- The operations of a document in its order. -/
def Value.operations (document : Value) : List Operation :=
  document.pathItems.flatMap fun item => pathOperations item.1 item.2

namespace Operation

variable {op : Operation}

/-- The operation in messages. -/
def title (op : Operation) : Text := op.verb.upper ++ " " ++ op.path.display

/-- The identity of the endpoint that the operation declares. -/
def key (op : Operation) : EndpointKey := (op.verb, op.path.display)

/-- A field of the operation. -/
def field (op : Operation) (name : Text) : Value := (op.content.fields?.getD []).get name

/-- The tags that the operation declares. -/
def declaredTags (op : Operation) : List Text :=
  match op.field "tags" with
  | .list items => items.filterMap Value.text?
  | _ => []

/-- The tags of the operation, the default one if it declares none. -/
def tags (op : Operation) : List Text :=
  if op.declaredTags.isEmpty then [defaultTag] else op.declaredTags

theorem tags_ne_nil (op : Operation) : op.tags ≠ [] := by
  unfold tags
  split
  · simp
  · next hsome => simpa using hsome

/-- The endpoint of the operation and its tags. -/
def extract (schemas : Fields) (op : Operation) : Except ExtractionError (Endpoint × List Text) :=
  match op.content with
  | .map fields => extractOperation op.title schemas op.path op.verb fields
  | _ => .error (.operationKind op.title)

end Operation

/-! ## What extraction reads -/

theorem textList?_eq_some {items : List Value} {texts : List Text} (h : textList? items = some texts) :
    items.filterMap Value.text? = texts := by
  induction items generalizing texts with
  | nil => exact Option.some.inj h
  | cons item items ih =>
      unfold textList? at h
      simp only [Option.bind_eq_bind, Option.bind_eq_some_iff] at h
      obtain ⟨first, hfirst, rest, hrest, h⟩ := h
      obtain rfl := Option.some.inj h
      rw [List.filterMap_cons_some hfirst, ih hrest]

/-- The tags of an accepted operation are all texts. -/
theorem extractTags_eq_ok {op : Operation} {tags : List Text}
    (h : extractTags operation (op.field "tags") = .ok tags) : tags = op.declaredTags := by
  unfold extractTags at h
  unfold Operation.declaredTags
  split at h
  · next hfield =>
    rw [hfield]
    exact (Except.ok.inj h).symm
  · next items hfield =>
    split at h
    · next texts htexts =>
      obtain rfl := Except.ok.inj h
      rw [hfield]
      exact (textList?_eq_some htexts).symm
    · cases h
  · cases h

/-- The endpoint of an accepted operation has its verb and path, and its tags come along. -/
theorem Operation.extract_eq_ok {op : Operation} {added : Endpoint × List Text}
    (h : op.extract schemas = .ok added) : added.1.key = op.key ∧ added.2 = op.tags := by
  unfold Operation.extract at h
  split at h
  · next fields hcontent =>
    unfold extractOperation at h
    obtain ⟨tags, htags, h⟩ := bind_eq_ok.1 h
    obtain ⟨id, -, h⟩ := bind_eq_ok.1 h
    obtain ⟨parameters, -, h⟩ := bind_eq_ok.1 h
    obtain ⟨body, -, h⟩ := bind_eq_ok.1 h
    obtain ⟨responses, -, h⟩ := bind_eq_ok.1 h
    have hfield : Fields.get fields "tags" = op.field "tags" := by
      unfold Operation.field
      rw [hcontent]
      rfl
    rw [hfield] at htags
    dsimp only at h
    split at h
    · next text summary hpath hsummary =>
      obtain rfl := Except.ok.inj h
      refine ⟨?_, ?_⟩
      · unfold Operation.key
        rw [hpath]
        rfl
      · unfold Operation.tags
        rw [extractTags_eq_ok htags]
    · cases h
  · cases h

theorem shownKey_eq_ok {shown : Text} (h : shownKey name = .ok shown) : shown = name.display := by
  unfold shownKey Scalar.shown at h
  split at h
  · exact (Except.ok.inj h).symm
  · cases h

/-- An entry of an accepted path item is skipped, or it gives the endpoint of its operation. -/
theorem extractEntry_cases {found : Option (Endpoint × List Text)}
    (h : extractEntry schemas path entry = .ok found) :
    (operation? path entry = none ∧ found = none) ∨
      ∃ op added, operation? path entry = some op ∧ found = some added ∧
        op.extract schemas = .ok added := by
  unfold extractEntry at h
  obtain ⟨shown, hshown, h⟩ := bind_eq_ok.1 h
  obtain rfl := shownKey_eq_ok hshown
  dsimp only at h
  unfold operation? supportedVerb?
  split at h
  · next hverb =>
    obtain ⟨title, htitle, h⟩ := bind_eq_ok.1 h
    obtain rfl := shownKey_eq_ok htitle
    right
    rw [if_pos hverb]
    split at h
    · next fields hcontent =>
      obtain ⟨added, hadded, rfl⟩ := map_eq_ok.1 h
      refine ⟨_, added, rfl, rfl, ?_⟩
      unfold Operation.extract
      rw [hcontent]
      exact hadded
    · cases h
  · next hverb =>
    obtain rfl := Except.ok.inj h
    left
    rw [if_neg hverb]
    exact ⟨rfl, rfl⟩

/-- The operations are extracted one by one. -/
abbrev Extracts (schemas : Fields) : List Operation → List (Endpoint × List Text) → Prop :=
  List.Forall₂ fun op added => op.extract schemas = .ok added

theorem mapM_extractEntry_extracts {found : List (Option (Endpoint × List Text))}
    (h : entries.mapM (extractEntry schemas path) = .ok found) :
    Extracts schemas (entries.filterMap (operation? path)) (found.filterMap id) := by
  induction entries generalizing found with
  | nil =>
      cases h
      exact .nil
  | cons entry entries ih =>
      rw [List.mapM_cons, bind_eq_ok] at h
      obtain ⟨first, hfirst, h⟩ := h
      obtain ⟨rest, hrest, h⟩ := bind_eq_ok.1 h
      cases h
      rcases extractEntry_cases hfirst with ⟨hnone, rfl⟩ | ⟨op, added, hsome, rfl, hadded⟩
      · rw [List.filterMap_cons_none hnone, List.filterMap_cons_none rfl]
        exact ih hrest
      · rw [List.filterMap_cons_some hsome]
        exact .cons hadded (ih hrest)

theorem extractPathItem_extracts {added : List (Endpoint × List Text)}
    (h : extractPathItem schemas path value = .ok added) :
    Extracts schemas (pathOperations path value) added := by
  unfold extractPathItem at h
  split at h
  · obtain ⟨found, hfound, h⟩ := bind_eq_ok.1 h
    obtain rfl := Except.ok.inj h
    exact mapM_extractEntry_extracts hfound
  · obtain ⟨shown, -, h⟩ := bind_eq_ok.1 h
    cases h

/-- What an accepted document is: a mapping with path items and with component schemas. -/
theorem extractEndpoints_eq_ok {added : List (Endpoint × List Text)} :
    extractEndpoints document = .ok added ↔
      ∃ (fields paths schemas : Fields) (items : List (List (Endpoint × List Text))),
        document = .map fields ∧ Fields.get fields "paths" = .map paths ∧
        componentSchemas fields = .ok schemas ∧
        List.mapM (fun item => extractPathItem schemas item.1 item.2) paths = .ok items ∧
        items.flatten = added := by
  constructor
  · intro h
    unfold extractEndpoints at h
    split at h
    · next fields =>
      split at h
      · next paths hpaths =>
        obtain ⟨schemas, hschemas, h⟩ := bind_eq_ok.1 h
        obtain ⟨items, hitems, h⟩ := bind_eq_ok.1 h
        exact ⟨fields, paths, schemas, items, rfl, hpaths, hschemas, hitems, Except.ok.inj h⟩
      · cases h
    · cases h
  · rintro ⟨fields, paths, schemas, items, rfl, hpaths, hschemas, hitems, rfl⟩
    unfold extractEndpoints
    simp only [hpaths, hschemas, hitems, bind, Except.bind]

theorem Value.pathItems_map (h : Fields.get fields "paths" = .map paths) :
    (Value.map fields).pathItems = paths := by
  unfold Value.pathItems
  show (Fields.get fields "paths").fields?.getD [] = paths
  rw [h]
  rfl

theorem extractEndpoints_operations {added : List (Endpoint × List Text)}
    (h : extractEndpoints document = .ok added) :
    ∃ schemas, componentSchemas (document.fields?.getD []) = .ok schemas ∧
      Extracts schemas document.operations added := by
  obtain ⟨fields, paths, schemas, items, rfl, hpaths, hschemas, hitems, rfl⟩ :=
    extractEndpoints_eq_ok.1 h
  refine ⟨schemas, hschemas, ?_⟩
  unfold Value.operations
  rw [Value.pathItems_map hpaths]
  clear h hpaths
  induction paths generalizing items with
  | nil =>
      cases hitems
      exact .nil
  | cons item paths ih =>
      rw [List.mapM_cons, bind_eq_ok] at hitems
      obtain ⟨first, hfirst, hitems⟩ := hitems
      obtain ⟨rest, hrest, hitems⟩ := bind_eq_ok.1 hitems
      cases hitems
      rw [List.flatMap_cons, List.flatten_cons]
      exact List.rel_append (extractPathItem_extracts hfirst) (ih rest hrest)

/-! ## What the catalog holds of the operations -/

namespace Extracts

variable {ops : List Operation} {added : List (Endpoint × List Text)} {key : EndpointKey}

theorem map_key (h : Extracts schemas ops added) :
    (added.map fun entry => entry.1.key) = ops.map Operation.key := by
  induction h with
  | nil => rfl
  | cons hop _ ih =>
      rw [List.map_cons, List.map_cons, ih, (Operation.extract_eq_ok hop).1]

/-- The endpoint that is kept for a key is the one of the first operation with that key. -/
theorem exists_first (h : Extracts schemas ops added)
    (hfirst : Catalog.firstAdded? added key = some endpoint) :
    ∃ op, ops.find? (fun op => op.key == key) = some op ∧
      op.extract schemas = .ok (endpoint, op.tags) := by
  induction h with
  | nil => cases hfirst
  | @cons op entry ops added hop _ ih =>
      obtain ⟨hkey, htags⟩ := Operation.extract_eq_ok hop
      unfold Catalog.firstAdded? at hfirst ih
      by_cases hsame : op.key = key
      · rw [List.find?_cons_of_pos (by simp [hkey, hsame])] at hfirst
        obtain rfl := Option.some.inj hfirst
        refine ⟨op, List.find?_cons_of_pos (by simp [hsame]), ?_⟩
        rw [hop, ← htags]
      · rw [List.find?_cons_of_neg (by simp [hkey, hsame])] at hfirst
        rw [List.find?_cons_of_neg (by simp [hsame])]
        exact ih hfirst

/-- The tags that endpoints are added with are those of the operations. -/
theorem mem_listings_iff (h : Extracts schemas ops added) {tag : Text} :
    (tag, key) ∈ Catalog.listingsOf added ↔ ∃ op ∈ ops, op.key = key ∧ tag ∈ op.tags := by
  induction h with
  | nil => simp [Catalog.listingsOf]
  | cons hop _ ih =>
      obtain ⟨hkey, htags⟩ := Operation.extract_eq_ok hop
      unfold Catalog.listingsOf at ih ⊢
      rw [List.flatMap_cons, List.mem_append, ih, hkey, htags]
      simp only [List.mem_map, Prod.mk.injEq, List.mem_cons, exists_eq_or_imp]
      constructor
      · rintro (⟨tag, hmem, rfl, rfl⟩ | hrest)
        · exact .inl ⟨rfl, hmem⟩
        · exact .inr hrest
      · rintro (⟨rfl, hmem⟩ | hrest)
        · exact .inl ⟨tag, hmem, rfl, rfl⟩
        · exact .inr hrest

end Extracts

theorem Catalog.mem_byTag_iff {added : List (Endpoint × List Text)} {tag : Text}
    (hmem : endpoint ∈ (ofEndpoints added).endpoints) :
    (∃ listed, (tag, listed) ∈ (ofEndpoints added).byTag ∧ endpoint ∈ listed) ↔
      (tag, endpoint.key) ∈ listingsOf added := by
  have hlisted : ∀ key, (tag, key) ∈ listingsOf added ↔ key ∈ keysUnder (listingsOf added) tag := by
    intro key
    unfold keysUnder
    rw [List.mem_eraseDups, List.mem_map]
    constructor
    · intro h
      exact ⟨(tag, key), List.mem_filter.2 ⟨h, beq_self_eq_true tag⟩, rfl⟩
    · rintro ⟨⟨name, other⟩, h, rfl⟩
      obtain ⟨hin, hname⟩ := List.mem_filter.1 h
      obtain rfl : name = tag := beq_iff_eq.1 hname
      exact hin
  unfold byTag
  rw [tags_ofEndpoints, hlisted]
  simp only [List.map_map, List.mem_map, Function.comp_apply, Prod.mk.injEq]
  constructor
  · rintro ⟨listed, ⟨name, -, rfl, rfl⟩, hendpoint⟩
    obtain ⟨key, hkey, hfound⟩ := List.mem_filterMap.1 hendpoint
    unfold find? at hfound
    have hsame := List.find?_some hfound
    rwa [beq_iff_eq.1 hsame]
  · intro hkey
    refine ⟨_, ⟨tag, ?_, rfl, rfl⟩, List.mem_filterMap.2 ⟨endpoint.key, hkey, find?_of_mem hmem⟩⟩
    by_contra hnone
    rw [keysUnder_eq_nil hnone] at hkey
    cases hkey

/-! ## Entries that are not looked at -/

/-- A path item without the entries that a test picks. -/
def Value.withoutEntries (drops : Scalar × Value → Bool) : Value → Value
  | .map entries => .map (entries.filter fun entry => !drops entry)
  | value => value

/-- The path items, each without the entries that a test picks. -/
def Value.withoutItemEntries (drops : Scalar → Scalar × Value → Bool) : Value → Value
  | .map paths => .map (paths.map fun item => (item.1, item.2.withoutEntries (drops item.1)))
  | value => value

/-- A document without the entries of path items that a test picks. -/
def Value.withoutOperations (drops : Scalar → Scalar × Value → Bool) : Value → Value
  | .map fields => .map (fields.map fun field =>
      (field.1, if field.1 = .text "paths" then field.2.withoutItemEntries drops else field.2))
  | value => value

theorem get?_map_values (change : Scalar → Value → Value) (fields : Fields) (key : Text) :
    Fields.get? (fields.map fun field => (field.1, change field.1 field.2)) key =
      (Fields.get? fields key).map (change (.text key)) := by
  induction fields with
  | nil => rfl
  | cons field fields ih =>
      unfold Fields.get? at ih ⊢
      by_cases hkey : field.1 = .text key
      · rw [List.map_cons, List.find?_cons_of_pos (by simp [hkey]),
          List.find?_cons_of_pos (by simp [hkey]), hkey]
        rfl
      · rw [List.map_cons, List.find?_cons_of_neg (by simp [hkey]),
          List.find?_cons_of_neg (by simp [hkey])]
        exact ih

theorem mapM_extractEntry_filter (keeps : Scalar × Value → Bool)
    {found : List (Option (Endpoint × List Text))}
    (hkeeps : ∀ entry, keeps entry = false → supportedVerb? entry.1 = none)
    (h : entries.mapM (extractEntry schemas path) = .ok found) :
    ∃ kept, (entries.filter keeps).mapM (extractEntry schemas path) = .ok kept ∧
      kept.filterMap id = found.filterMap id := by
  induction entries generalizing found with
  | nil =>
      cases h
      exact ⟨[], rfl, rfl⟩
  | cons entry entries ih =>
      rw [List.mapM_cons, bind_eq_ok] at h
      obtain ⟨first, hfirst, h⟩ := h
      obtain ⟨rest, hrest, h⟩ := bind_eq_ok.1 h
      cases h
      obtain ⟨kept, hkept, heq⟩ := ih hrest
      by_cases hkeep : keeps entry = true
      · refine ⟨first :: kept, ?_, ?_⟩
        · rw [List.filter_cons_of_pos hkeep, List.mapM_cons, hfirst, hkept]
          rfl
        · rw [← List.singleton_append, List.filterMap_append, heq, ← List.filterMap_append]
          rfl
      · -- The entry is no operation, so it has given no endpoint.
        have hnone : operation? path entry = none := by
          unfold operation?
          rw [hkeeps entry (by simpa using hkeep)]
          rfl
        obtain rfl : first = none := by
          rcases extractEntry_cases hfirst with ⟨-, hfirst⟩ | ⟨op, added, hsome, -, -⟩
          · exact hfirst
          · rw [hnone] at hsome
            cases hsome
        refine ⟨kept, ?_, heq⟩
        rw [List.filter_cons_of_neg hkeep, hkept]

theorem extractPathItem_withoutEntries {drops : Scalar × Value → Bool}
    {added : List (Endpoint × List Text)}
    (hdrops : ∀ entry, drops entry = true → supportedVerb? entry.1 = none)
    (h : extractPathItem schemas path value = .ok added) :
    extractPathItem schemas path (value.withoutEntries drops) = .ok added := by
  unfold extractPathItem at h
  split at h
  · obtain ⟨found, hfound, h⟩ := bind_eq_ok.1 h
    obtain rfl := Except.ok.inj h
    obtain ⟨kept, hkept, heq⟩ := mapM_extractEntry_filter (fun entry => !drops entry)
      (fun entry hkeeps => hdrops entry (by simpa using hkeeps)) hfound
    unfold Value.withoutEntries extractPathItem
    simp only [hkept, bind, Except.bind, heq]
  · obtain ⟨shown, -, h⟩ := bind_eq_ok.1 h
    cases h

theorem mapM_extractPathItem_withoutEntries {drops : Scalar → Scalar × Value → Bool}
    {items : List (List (Endpoint × List Text))}
    (hdrops : ∀ path entry, drops path entry = true → supportedVerb? entry.1 = none)
    (h : List.mapM (fun item => extractPathItem schemas item.1 item.2) paths = .ok items) :
    List.mapM (fun item => extractPathItem schemas item.1 item.2)
      (paths.map fun item => (item.1, item.2.withoutEntries (drops item.1))) = .ok items := by
  induction paths generalizing items with
  | nil => exact h
  | cons item paths ih =>
      rw [List.mapM_cons, bind_eq_ok] at h
      obtain ⟨first, hfirst, h⟩ := h
      obtain ⟨rest, hrest, h⟩ := bind_eq_ok.1 h
      cases h
      rw [List.map_cons, List.mapM_cons, extractPathItem_withoutEntries (hdrops item.1) hfirst, ih hrest]
      rfl

theorem componentSchemas_congr {others : Fields}
    (h : Fields.get? others "components" = Fields.get? fields "components") :
    componentSchemas others = componentSchemas fields := by
  unfold componentSchemas Fields.get
  rw [h]

/-- Entries of path items under no supported verb may be taken away, whatever they hold. -/
theorem Catalog.ofDocument_withoutOperations {drops : Scalar → Scalar × Value → Bool}
    (hdrops : ∀ path entry, drops path entry = true → supportedVerb? entry.1 = none)
    (h : ofDocument document = .ok catalog) :
    ofDocument (document.withoutOperations drops) = .ok catalog := by
  obtain ⟨added, hadded, rfl⟩ := map_eq_ok.1 h
  obtain ⟨fields, paths, schemas, items, rfl, hpaths, hschemas, hitems, rfl⟩ :=
    extractEndpoints_eq_ok.1 hadded
  have hget := get?_map_values (fun name value =>
    if name = .text "paths" then value.withoutItemEntries drops else value) fields
  refine map_eq_ok.2 ⟨_, extractEndpoints_eq_ok.2 ⟨_, _, schemas, items, rfl, ?_, ?_,
    mapM_extractPathItem_withoutEntries hdrops hitems, rfl⟩, rfl⟩
  · unfold Fields.get at hpaths ⊢
    rw [hget]
    cases hfound : Fields.get? fields "paths" with
    | none =>
        rw [hfound] at hpaths
        cases hpaths
    | some value =>
        rw [hfound] at hpaths
        obtain rfl : value = .map paths := hpaths
        rfl
  · rw [← hschemas]
    refine componentSchemas_congr ?_
    rw [hget]
    cases Fields.get? fields "components" with
    | none => rfl
    | some value => rfl

/-! ## Complete catalogs -/

/-- A catalog says all that there is to say of the operations of a document. -/
structure Catalog.Covers (catalog : Catalog) (document : Value) (schemas : Fields) : Prop where
  keys : catalog.endpoints.map Endpoint.key = (document.operations.map Operation.key).eraseDups
  first : ∀ endpoint ∈ catalog.endpoints, ∃ op,
    document.operations.find? (fun op => op.key == endpoint.key) = some op ∧
      op.extract schemas = .ok (endpoint, op.tags)
  listed : ∀ endpoint ∈ catalog.endpoints, ∀ tag,
    (∃ listed, (tag, listed) ∈ catalog.byTag ∧ endpoint ∈ listed) ↔
      ∃ op ∈ document.operations, op.key = endpoint.key ∧ tag ∈ op.tags
  listedSomewhere : ∀ endpoint ∈ catalog.endpoints, ∃ listed ∈ catalog.byTag, endpoint ∈ listed.2
  others : ∀ drops : Scalar → Scalar × Value → Bool,
    (∀ path entry, drops path entry = true → supportedVerb? entry.1 = none) →
      ofDocument (document.withoutOperations drops) = .ok catalog

/-- An accepted document gives one endpoint for each verb and path of its operations, in their order
and from the first of them, lists it under the tags of all of them, and does not look at any other
entry of a path item. -/
theorem Catalog.covers_ofDocument (h : ofDocument document = .ok catalog) :
    ∃ schemas, componentSchemas (document.fields?.getD []) = .ok schemas ∧
      catalog.Covers document schemas := by
  obtain ⟨added, hadded, rfl⟩ := map_eq_ok.1 h
  obtain ⟨schemas, hschemas, hextracts⟩ := extractEndpoints_operations hadded
  have hfirst : ∀ endpoint ∈ (ofEndpoints added).endpoints, ∃ op,
      document.operations.find? (fun op => op.key == endpoint.key) = some op ∧
        op.extract schemas = .ok (endpoint, op.tags) := fun endpoint hmem =>
    hextracts.exists_first (by rw [← find?_ofEndpoints, find?_of_mem hmem])
  have hlisted : ∀ endpoint ∈ (ofEndpoints added).endpoints, ∀ tag,
      (∃ listed, (tag, listed) ∈ (ofEndpoints added).byTag ∧ endpoint ∈ listed) ↔
        ∃ op ∈ document.operations, op.key = endpoint.key ∧ tag ∈ op.tags :=
    fun endpoint hmem tag => (mem_byTag_iff hmem).trans hextracts.mem_listings_iff
  refine ⟨schemas, hschemas, ?_, hfirst, hlisted, fun endpoint hmem => ?_,
    fun drops hdrops => ofDocument_withoutOperations hdrops h⟩
  · rw [keys_ofEndpoints, addedKeys, hextracts.map_key]
  · -- The first operation of the endpoint declares a tag.
    obtain ⟨op, hop, -⟩ := hfirst endpoint hmem
    have hkey : op.key = endpoint.key := by simpa using List.find?_some hop
    obtain ⟨tag, htag⟩ := List.exists_mem_of_ne_nil _ op.tags_ne_nil
    obtain ⟨listed, hin, hendpoint⟩ :=
      (hlisted endpoint hmem tag).2 ⟨op, List.mem_of_find?_eq_some hop, hkey, htag⟩
    exact ⟨(tag, listed), hin, hendpoint⟩

/-- A path item with two spellings of one verb, which declare different tags, and with an entry under
no verb. -/
def spelledDocument : Value :=
  .map [(.text "paths", .map [(.text "/news", .map [
    (.text "get", .map [(.text "tags", .list [.scalar (.text "read")])]),
    (.text "x-note", .scalar (.int 7)),
    (.text "GET", .map [(.text "tags", .list [.scalar (.text "all")])])])])]

theorem Catalog.covers_spelledDocument : ∃ catalog schemas,
    ofDocument spelledDocument = .ok catalog ∧
      componentSchemas (spelledDocument.fields?.getD []) = .ok schemas ∧
        catalog.Covers spelledDocument schemas := by
  have haccepted : ofDocument spelledDocument =
      .ok (ofEndpoints [(⟨"/news", "get", [], none, [], none, []⟩, ["read"]),
        (⟨"/news", "get", [], none, [], none, []⟩, ["all"])]) := rfl
  obtain ⟨schemas, hschemas, hcovers⟩ := covers_ofDocument haccepted
  exact ⟨_, schemas, haccepted, hschemas, hcovers⟩

end Scaffold
