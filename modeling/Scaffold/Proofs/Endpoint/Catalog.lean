import Scaffold.Endpoint.Extraction
import Scaffold.Proofs.Text.EraseDups

/-!
# What a catalog gathers

Of the endpoints that are added under one key a catalog keeps the first one, and it lists the key
once under each tag that it was ever added with. Its two parts agree: no listed key is without an
endpoint, so the lists are numbered without gaps (`Catalog.gathers_ofEndpoints`).
-/

namespace Scaffold

namespace Catalog

variable {added : List (Endpoint × List Text)} {listings : List (Text × EndpointKey)}
  {catalog : Catalog} {endpoint : Endpoint} {key : EndpointKey}

/-! ## What is added -/

/-- The keys of the added endpoints, each at its first place. -/
def addedKeys (added : List (Endpoint × List Text)) : List EndpointKey :=
  (added.map fun entry => entry.1.key).eraseDups

/-- The endpoint that was added first under a key. -/
def firstAdded? (added : List (Endpoint × List Text)) (key : EndpointKey) : Option Endpoint :=
  (added.find? fun entry => entry.1.key == key).map (·.1)

/-- The tags that endpoints were added with, each with the key of the endpoint. -/
def listingsOf (added : List (Endpoint × List Text)) : List (Text × EndpointKey) :=
  added.flatMap fun entry => entry.2.map fun tag => (tag, entry.1.key)

/-- The tags of some listings, each at its first place. -/
def listedTags (listings : List (Text × EndpointKey)) : List Text :=
  (listings.map (·.1)).eraseDups

/-- The keys that are listed under a tag, each at its first place. -/
def keysUnder (listings : List (Text × EndpointKey)) (tag : Text) : List EndpointKey :=
  ((listings.filter fun listing => listing.1 == tag).map (·.2)).eraseDups

/-- What a catalog holds after the given endpoints have been added under the given tags. -/
structure Gathers (catalog : Catalog) (added : List (Endpoint × List Text)) : Prop where
  endpoints : catalog.endpoints.map some = (addedKeys added).map (firstAdded? added)
  tags : catalog.tags.map (·.1) = listedTags (listingsOf added)
  byTag : catalog.byTag.map (fun entry => (entry.1, entry.2.map some)) =
    (listedTags (listingsOf added)).map fun tag =>
      (tag, (keysUnder (listingsOf added) tag).map (firstAdded? added))
  numbered : catalog.numbered.map (fun entry => (entry.tag, entry.endpoint)) =
    catalog.byTag.flatMap fun entry => entry.2.map fun endpoint => (entry.1, endpoint)
  indices : catalog.numbered.map (·.index) = List.range' 1 catalog.numbered.length
  found : ∀ place ∈ catalog.places, (catalog.find? place.2).isSome = true
  alike : ∀ first ∈ catalog.numbered, ∀ second ∈ catalog.numbered,
    first.endpoint.key = second.endpoint.key → first.endpoint = second.endpoint

/-! ## Endpoints -/

theorem ofEndpoints_concat (added : List (Endpoint × List Text)) (entry : Endpoint × List Text) :
    ofEndpoints (added ++ [entry]) = (ofEndpoints added).add entry.1 entry.2 := by
  simp [ofEndpoints]

theorem endpoints_add_of_known (h : (catalog.find? endpoint.key).isSome = true) (tags : List Text) :
    (catalog.add endpoint tags).endpoints = catalog.endpoints := if_pos h

theorem endpoints_add_of_new (h : catalog.find? endpoint.key = none) (tags : List Text) :
    (catalog.add endpoint tags).endpoints = catalog.endpoints ++ [endpoint] :=
  if_neg (by simp [h])

theorem find?_add (catalog : Catalog) (endpoint : Endpoint) (tags : List Text)
    (key : EndpointKey) : (catalog.add endpoint tags).find? key =
      (catalog.find? key).or (if endpoint.key = key then some endpoint else none) := by
  cases hknown : catalog.find? endpoint.key with
  | some other =>
      have hsome : (catalog.find? endpoint.key).isSome = true := by rw [hknown]; rfl
      rw [find?, endpoints_add_of_known hsome, ← find?]
      split
      · next heq => rw [← heq, hknown, Option.some_or]
      · rw [Option.or_none]
  | none =>
      rw [find?, endpoints_add_of_new hknown, List.find?_append, ← find?]
      simp only [List.find?_singleton, beq_iff_eq]

/-- The endpoint under a key is the one that was added first. -/
theorem find?_ofEndpoints (added : List (Endpoint × List Text)) (key : EndpointKey) :
    (ofEndpoints added).find? key = firstAdded? added key := by
  induction added using List.reverseRecOn with
  | nil => rfl
  | append_singleton added entry ih =>
      rw [ofEndpoints_concat, find?_add, ih, firstAdded?, firstAdded?, List.find?_append,
        Option.map_or, List.find?_singleton]
      congr 1
      simp only [beq_iff_eq]
      split <;> rfl

/-- The stored endpoints have the keys that were added, in the order of their first adding. -/
theorem keys_ofEndpoints (added : List (Endpoint × List Text)) :
    (ofEndpoints added).endpoints.map (·.key) = addedKeys added := by
  induction added using List.reverseRecOn with
  | nil => rfl
  | append_singleton added entry ih =>
      have hmem : ((ofEndpoints added).find? entry.1.key).isSome = true ↔
          entry.1.key ∈ added.map fun other => other.1.key := by
        rw [find?_ofEndpoints, firstAdded?, Option.isSome_map, List.find?_isSome]
        simp
      rw [ofEndpoints_concat, addedKeys, List.map_append, List.map_singleton]
      by_cases hknown : ((ofEndpoints added).find? entry.1.key).isSome = true
      · rw [endpoints_add_of_known hknown, eraseDups_concat_of_mem (hmem.1 hknown), ih, addedKeys]
      · rw [endpoints_add_of_new (Option.not_isSome_iff_eq_none.1 hknown),
          eraseDups_concat_of_not_mem (mt hmem.2 hknown), List.map_append, ih, addedKeys]
        rfl

/-- Each stored endpoint is the one under its key. -/
theorem find?_of_mem (h : endpoint ∈ (ofEndpoints added).endpoints) :
    (ofEndpoints added).find? endpoint.key = some endpoint := by
  induction added using List.reverseRecOn with
  | nil => cases h
  | append_singleton added entry ih =>
      rw [ofEndpoints_concat] at h ⊢
      rw [find?_add]
      by_cases hknown : ((ofEndpoints added).find? entry.1.key).isSome = true
      · rw [endpoints_add_of_known hknown] at h
        rw [ih h, Option.some_or]
      · have hnone := Option.not_isSome_iff_eq_none.1 hknown
        rw [endpoints_add_of_new hnone] at h
        rcases List.mem_append.1 h with hmem | hmem
        · rw [ih hmem, Option.some_or]
        · rw [List.mem_singleton.1 hmem, hnone, if_pos rfl, Option.none_or]

theorem endpoints_ofEndpoints (added : List (Endpoint × List Text)) :
    (ofEndpoints added).endpoints.map some = (addedKeys added).map (firstAdded? added) := by
  rw [← keys_ofEndpoints, List.map_map]
  refine List.map_congr_left fun endpoint hmem => ?_
  rw [Function.comp_apply, ← find?_ofEndpoints, find?_of_mem hmem]

/-! ## Tags -/

/-- Listing a key puts it behind the others of its tag, and a new tag behind the others. -/
theorem tagKey_map {tags : List Text} (hnodup : tags.Nodup) (keys : Text → List EndpointKey)
    (key : EndpointKey) (tag : Text) :
    tagKey key (tags.map fun name => (name, keys name)) tag =
      if tag ∈ tags then tags.map fun name => (name,
        if name = tag ∧ key ∉ keys name then keys name ++ [key] else keys name)
      else tags.map (fun name => (name, keys name)) ++ [(tag, [key])] := by
  induction tags with
  | nil => rfl
  | cons name tags ih =>
      obtain ⟨hname, hnodup⟩ := List.nodup_cons.1 hnodup
      by_cases htag : name = tag
      · subst htag
        have hrest : ∀ other ∈ tags, ¬ (other = name ∧ key ∉ keys other) := by
          rintro other hother ⟨rfl, -⟩
          exact hname hother
        simp only [List.map_cons, tagKey, if_true, List.mem_cons, true_or, true_and]
        congr 1
        · by_cases hkey : key ∈ keys name <;> simp [hkey]
        · exact List.map_congr_left fun other hother => by rw [if_neg (hrest other hother)]
      · simp only [List.map_cons, tagKey, ih hnodup, List.mem_cons, Ne.symm htag,
          false_or, htag, false_and, if_false]
        split <;> rfl

theorem listedTags_concat (listings : List (Text × EndpointKey)) (listing : Text × EndpointKey) :
    listedTags (listings ++ [listing]) =
      if listing.1 ∈ listedTags listings then listedTags listings
      else listedTags listings ++ [listing.1] := by
  unfold listedTags
  rw [List.map_append, List.map_singleton]
  split
  · next h => exact eraseDups_concat_of_mem (List.mem_eraseDups.1 h)
  · next h => exact eraseDups_concat_of_not_mem (mt List.mem_eraseDups.2 h)

theorem keysUnder_concat (listings : List (Text × EndpointKey)) (tag name : Text)
    (key : EndpointKey) : keysUnder (listings ++ [(tag, key)]) name =
      if name = tag ∧ key ∉ keysUnder listings name then keysUnder listings name ++ [key]
      else keysUnder listings name := by
  unfold keysUnder
  rw [List.filter_append, List.map_append]
  by_cases htag : name = tag
  · subst htag
    simp only [List.filter_singleton, beq_self_eq_true, true_and]
    split
    · next h => exact eraseDups_concat_of_not_mem (mt List.mem_eraseDups.2 h)
    · next h => exact eraseDups_concat_of_mem (List.mem_eraseDups.1 (not_not.1 h))
  · simp [htag, Ne.symm htag]

theorem keysUnder_eq_nil {tag : Text} (h : tag ∉ listedTags listings) :
    keysUnder listings tag = [] := by
  have hnone : (listings.filter fun listing => listing.1 == tag) = [] := by
    rw [List.filter_eq_nil_iff]
    rintro listing hmem heq
    exact h (List.mem_eraseDups.2 (List.mem_map.2 ⟨listing, hmem, beq_iff_eq.1 heq⟩))
  rw [keysUnder, hnone]
  rfl

/-- The lists after all listings, one for each tag. -/
theorem foldl_tagKey (listings : List (Text × EndpointKey)) :
    listings.foldl (fun tags listing => tagKey listing.2 tags listing.1) [] =
      (listedTags listings).map fun tag => (tag, keysUnder listings tag) := by
  induction listings using List.reverseRecOn with
  | nil => rfl
  | append_singleton listings listing ih =>
      obtain ⟨tag, key⟩ := listing
      have hnodup : (listedTags listings).Nodup := nodup_eraseDups _
      rw [List.foldl_append, ih, List.foldl_cons, List.foldl_nil, tagKey_map hnodup,
        listedTags_concat]
      split
      · simp only [keysUnder_concat]
      · next hnew =>
        rw [List.map_append, List.map_singleton, keysUnder_concat, keysUnder_eq_nil hnew,
          if_pos ⟨rfl, List.not_mem_nil⟩, List.nil_append]
        congr 1
        refine List.map_congr_left fun name hname => ?_
        have hne : name ≠ tag := by
          rintro rfl
          exact hnew hname
        simp [keysUnder_concat, hne]

theorem tags_ofEndpoints (added : List (Endpoint × List Text)) :
    (ofEndpoints added).tags =
      (listedTags (listingsOf added)).map fun tag => (tag, keysUnder (listingsOf added) tag) := by
  rw [← foldl_tagKey]
  induction added using List.reverseRecOn with
  | nil => rfl
  | append_singleton added entry ih =>
      have hlistings : listingsOf (added ++ [entry]) =
          listingsOf added ++ entry.2.map fun tag => (tag, entry.1.key) := by
        simp [listingsOf]
      rw [ofEndpoints_concat, hlistings, List.foldl_append, ← ih, List.foldl_map]
      rfl

/-- What is listed under a tag has been added. -/
theorem mem_addedKeys_of_keysUnder {tag : Text} (h : key ∈ keysUnder (listingsOf added) tag) :
    key ∈ addedKeys added := by
  obtain ⟨listing, hlisting, rfl⟩ := List.mem_map.1 (List.mem_eraseDups.1 h)
  obtain ⟨entry, hentry, hlisting⟩ := List.mem_flatMap.1 (List.mem_of_mem_filter hlisting)
  obtain ⟨tag, -, rfl⟩ := List.mem_map.1 hlisting
  exact List.mem_eraseDups.2 (List.mem_map.2 ⟨entry, hentry, rfl⟩)

theorem firstAdded?_isSome (h : key ∈ addedKeys added) : (firstAdded? added key).isSome = true := by
  obtain ⟨entry, hentry, rfl⟩ := List.mem_map.1 (List.mem_eraseDups.1 h)
  rw [firstAdded?, Option.isSome_map, List.find?_isSome]
  exact ⟨entry, hentry, by simp⟩

/-! ## Numbers -/

/-- All listed keys have an endpoint. -/
def Complete (catalog : Catalog) : Prop :=
  ∀ place ∈ catalog.places, (catalog.find? place.2).isSome = true

theorem complete_ofEndpoints (added : List (Endpoint × List Text)) :
    (ofEndpoints added).Complete := by
  intro place hplace
  obtain ⟨row, hrow, hplace⟩ := List.mem_flatMap.1 hplace
  obtain ⟨key, hkey, rfl⟩ := List.mem_map.1 hplace
  rw [tags_ofEndpoints] at hrow
  obtain ⟨tag, -, rfl⟩ := List.mem_map.1 hrow
  rw [find?_ofEndpoints]
  exact firstAdded?_isSome (mem_addedKeys_of_keysUnder hkey)

/-- Places that all have an endpoint are numbered one by one. -/
theorem index_numbered (h : catalog.Complete) :
    catalog.numbered.map (·.index) = List.range' 1 catalog.places.length := by
  have hfrom : ∀ (places : List (Text × EndpointKey)) (start : Nat),
      (∀ place ∈ places, (catalog.find? place.2).isSome = true) →
      ((places.zipIdx start).filterMap fun place => (catalog.find? place.1.2).map fun endpoint =>
        (⟨place.2, place.1.1, endpoint⟩ : Numbered)).map (·.index) =
        List.range' start places.length := by
    intro places
    induction places with
    | nil => exact fun start _ => rfl
    | cons place places ih =>
        intro start hfound
        obtain ⟨endpoint, hendpoint⟩ := Option.isSome_iff_exists.1 (hfound place (by simp))
        rw [List.zipIdx_cons, List.filterMap_cons_some (by rw [hendpoint]; rfl), List.map_cons,
          ih _ fun other hother => hfound other (by simp [hother])]
        rfl
  exact hfrom catalog.places 1 h

theorem map_numbered (catalog : Catalog) :
    catalog.numbered.map (fun entry => (entry.tag, entry.endpoint)) =
      catalog.byTag.flatMap fun entry => entry.2.map fun endpoint => (entry.1, endpoint) := by
  have hfrom : ∀ (places : List (Text × EndpointKey)) (start : Nat),
      ((places.zipIdx start).filterMap fun place => (catalog.find? place.1.2).map fun endpoint =>
        (⟨place.2, place.1.1, endpoint⟩ : Numbered)).map (fun entry => (entry.tag, entry.endpoint)) =
        places.filterMap fun place => (catalog.find? place.2).map fun endpoint =>
          (place.1, endpoint) := by
    intro places
    induction places with
    | nil => exact fun _ => rfl
    | cons place places ih =>
        intro start
        rw [List.zipIdx_cons, List.filterMap_cons, List.filterMap_cons]
        cases catalog.find? place.2 with
        | none => exact ih _
        | some endpoint => exact congrArg _ (ih _)
  rw [numbered, hfrom, places, byTag, List.filterMap_flatMap, List.flatMap_map]
  refine List.flatMap_congr fun entry _ => ?_
  rw [List.filterMap_map, List.map_filterMap]
  rfl

/-- A numbered endpoint is the one under its key. -/
theorem find?_of_mem_numbered {entry : Numbered} (h : entry ∈ catalog.numbered) :
    catalog.find? entry.endpoint.key = some entry.endpoint := by
  obtain ⟨place, -, hplace⟩ := List.mem_filterMap.1 h
  obtain ⟨endpoint, hendpoint, rfl⟩ := Option.map_eq_some_iff.1 hplace
  have hkey : (endpoint.key == place.1.2) = true :=
    List.find?_some (p := fun endpoint : Endpoint => endpoint.key == place.1.2) hendpoint
  rwa [← beq_iff_eq.1 hkey] at hendpoint

/-- Whatever endpoints are added, under whatever tags: the catalog keeps the first endpoint of each
key in the order of first adding, lists each key once under each of its tags, and numbers all places
of the lists from one without gaps. -/
theorem gathers_ofEndpoints (added : List (Endpoint × List Text)) :
    (ofEndpoints added).Gathers added where
  endpoints := endpoints_ofEndpoints added
  tags := by
    rw [tags_ofEndpoints, List.map_map]
    exact List.map_id _
  byTag := by
    rw [byTag, tags_ofEndpoints, List.map_map, List.map_map]
    refine List.map_congr_left fun tag _ => ?_
    have hlookup : ∀ keys : List EndpointKey, (∀ key ∈ keys, key ∈ addedKeys added) →
        (keys.filterMap (ofEndpoints added).find?).map some = keys.map (firstAdded? added) := by
      intro keys
      induction keys with
      | nil => exact fun _ => rfl
      | cons key keys ih =>
          intro hkeys
          obtain ⟨endpoint, hendpoint⟩ :=
            Option.isSome_iff_exists.1 (firstAdded?_isSome (hkeys key (by simp)))
          rw [List.filterMap_cons_some ((find?_ofEndpoints added key).trans hendpoint), List.map_cons,
            List.map_cons, hendpoint, ih fun other hother => hkeys other (by simp [hother])]
    exact congrArg _ (hlookup _ fun key hkey => mem_addedKeys_of_keysUnder hkey)
  numbered := map_numbered _
  indices := by
    have hindex := index_numbered (complete_ofEndpoints added)
    have hlength := congrArg List.length hindex
    rw [List.length_map, List.length_range'] at hlength
    rw [hindex, hlength]
  found := complete_ofEndpoints added
  alike := by
    intro first hfirst second hsecond hkey
    have hfound := find?_of_mem_numbered hfirst
    rw [hkey, find?_of_mem_numbered hsecond] at hfound
    exact (Option.some.inj hfound).symm

end Catalog

end Scaffold
