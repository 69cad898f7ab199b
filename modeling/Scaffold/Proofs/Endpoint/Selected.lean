import Scaffold.Proofs.Endpoint.Catalog
import Scaffold.Proofs.Endpoint.Entries
import Scaffold.Proofs.Endpoint.Extracted

/-!
# What a selection gives

Numbers select the endpoints at their places, each key at its first place, and are refused only if
there is none or one lies outside of the catalog; all numbers together select each stored endpoint
once (`Catalog.select_resolves`).
-/

namespace Scaffold

/-- The endpoints are those of a row, each key at its first place only. -/
structure FirstOf (selected found : List Endpoint) : Prop where
  sublist : selected.Sublist found
  keys : selected.map (·.key) = (found.map (·.key)).eraseDups

theorem FirstOf.ne_nil {selected found : List Endpoint} (h : FirstOf selected found)
    (hne : found ≠ []) : selected ≠ [] := by
  rintro rfl
  obtain ⟨endpoint, hmem⟩ := List.exists_mem_of_ne_nil found hne
  have hkey : endpoint.key ∈ (found.map (·.key)).eraseDups :=
    List.mem_eraseDups.2 (List.mem_map_of_mem hmem)
  rw [← h.keys] at hkey
  cases hkey

/-- The number of a place, the places being numbered from one. -/
def numberAt {count : Nat} (place : Fin count) : Int := (place.val : Int) + 1

namespace Catalog

variable {added : List (Endpoint × List Text)} {catalog : Catalog} {endpoint : Endpoint}
  {selected found : List Endpoint} {place : Nat} {index : Int} {indices : List Int}

/-! ## Numbers -/

/-- The numbers of a catalog are those of its places. -/
theorem index_ofEndpoints (h : place < (ofEndpoints added).numbered.length) :
    (ofEndpoints added).numbered[place].index = place + 1 := by
  have hindices := (gathers_ofEndpoints added).indices
  have hplace := congrArg (fun indices => indices[place]?) hindices
  simp only [List.getElem?_map, List.getElem?_eq_getElem h, Option.map_some] at hplace
  rw [List.getElem?_range' h] at hplace
  have := Option.some.inj hplace
  omega

theorem sameKey_int (m n : Int) : (Scalar.int m).sameKey (.int n) = decide (m = n) := by
  show (m * 1 == n * 1) = decide (m = n)
  rw [Int.mul_one, Int.mul_one]
  rfl

/-- A number within the catalog stands for the endpoint at its place. -/
theorem atIndex?_of_place (h : place < (ofEndpoints added).numbered.length) :
    (ofEndpoints added).atIndex? (.int (place + 1)) =
      some (ofEndpoints added).numbered[place].endpoint := by
  have hfind : ((ofEndpoints added).numbered.find? fun entry =>
      (Scalar.int entry.index).sameKey (.int (place + 1))) =
        some (ofEndpoints added).numbered[place] := by
    refine List.find?_eq_some_iff_getElem.2 ⟨?_, place, h, rfl, fun other hother => ?_⟩
    · rw [sameKey_int, index_ofEndpoints h, decide_eq_true_iff]
      omega
    · rw [sameKey_int, index_ofEndpoints (by omega), Bool.not_eq_true', decide_eq_false_iff_not]
      omega
  rw [atIndex?, hfind]
  rfl

theorem atIndex?_eq_none (h : index < 1 ∨ (ofEndpoints added).numbered.length < index) :
    (ofEndpoints added).atIndex? (.int index) = none := by
  rw [atIndex?, Option.map_eq_none_iff, List.find?_eq_none]
  intro entry hentry
  obtain ⟨place, hplace, rfl⟩ := List.getElem_of_mem hentry
  rw [sameKey_int, index_ofEndpoints hplace, decide_eq_true_iff]
  omega

/-! ## Rows of numbers -/

theorem firstOf_select1 (h : FirstOf selected found) (endpoint : Endpoint) :
    FirstOf (select1 selected endpoint) (found ++ [endpoint]) := by
  have hknown : (selected.any fun other => other.key == endpoint.key) = true ↔
      endpoint.key ∈ found.map (·.key) := by
    rw [← List.mem_eraseDups, ← h.keys, List.any_eq_true, List.mem_map]
    simp only [beq_iff_eq]
  rw [select1]
  split
  · next hmem =>
    refine ⟨h.sublist.trans (List.sublist_append_left ..), ?_⟩
    rw [List.map_append, List.map_singleton, eraseDups_concat_of_mem (hknown.1 hmem), h.keys]
  · next hmem =>
    refine ⟨h.sublist.append (List.Sublist.refl _), ?_⟩
    rw [List.map_append, List.map_append, List.map_singleton,
      eraseDups_concat_of_not_mem (mt hknown.2 hmem), h.keys]

/-- What is found is selected at its first places. -/
theorem firstOf_foldl (found : List Endpoint) : FirstOf (found.foldl select1 []) found := by
  induction found using List.reverseRecOn with
  | nil => exact ⟨.refl _, rfl⟩
  | append_singleton found endpoint ih =>
      rw [List.foldl_append]
      exact firstOf_select1 ih endpoint

/-- The endpoints at some places. -/
def endpointsAt (catalog : Catalog) (places : List (Fin catalog.numbered.length)) :
    List Endpoint :=
  places.map fun place => catalog.numbered[place].endpoint

/-- Numbers of places find the endpoints there. -/
theorem resolve_places (places : List (Fin (ofEndpoints added).numbered.length)) :
    (ofEndpoints added).resolve ((places.map numberAt).map .int) =
      .ok (((ofEndpoints added).endpointsAt places).foldl select1 []) := by
  rw [resolve]
  generalize ([] : List Endpoint) = start
  induction places generalizing start with
  | nil => rfl
  | cons place places ih =>
      rw [List.map_cons, List.map_cons, List.foldlM_cons, numberAt, atIndex?_of_place place.isLt]
      exact ih _

theorem resolve_error (h : ∃ index ∈ indices, index < 1 ∨
      (ofEndpoints added).numbered.length < index) :
    ∃ error, (ofEndpoints added).resolve (indices.map .int) = .error error := by
  rw [resolve]
  generalize ([] : List Endpoint) = start
  induction indices generalizing start with
  | nil => simp at h
  | cons index indices ih =>
      rw [List.map_cons, List.foldlM_cons]
      cases hindex : (ofEndpoints added).atIndex? (.int index) with
      | none => exact ⟨_, rfl⟩
      | some endpoint =>
          obtain ⟨other, hother, hout⟩ := h
          rcases List.mem_cons.1 hother with rfl | hother
          · rw [atIndex?_eq_none hout] at hindex
            cases hindex
          · exact ih ⟨other, hother, hout⟩ _

/-- Numbers within the catalog are those of places. -/
theorem exists_places (h : ∀ index ∈ indices,
      ¬ (index < 1 ∨ (ofEndpoints added).numbered.length < index)) :
    ∃ places : List (Fin (ofEndpoints added).numbered.length), indices = places.map numberAt := by
  induction indices with
  | nil => exact ⟨[], rfl⟩
  | cons index indices ih =>
      obtain ⟨hindex, hrest⟩ := List.forall_mem_cons.1 h
      obtain ⟨places, rfl⟩ := ih hrest
      refine ⟨⟨(index - 1).toNat, by omega⟩ :: places, ?_⟩
      rw [List.map_cons]
      congr 1
      show index = ((index - 1).toNat : Int) + 1
      omega

/-! ## Selections -/

/-- Numbers of places select the endpoints there. -/
theorem select_places {places : List (Fin (ofEndpoints added).numbered.length)}
    (hne : places ≠ []) :
    ∃ selected, (ofEndpoints added).select (.these ((places.map numberAt).map .int)) =
      .ok selected ∧ FirstOf selected ((ofEndpoints added).endpointsAt places) := by
  have hfirst := firstOf_foldl ((ofEndpoints added).endpointsAt places)
  have hfound : (ofEndpoints added).endpointsAt places ≠ [] := by simpa [endpointsAt] using hne
  refine ⟨_, ?_, hfirst⟩
  rw [select, resolve_places]
  cases hselected : ((ofEndpoints added).endpointsAt places).foldl select1 [] with
  | nil => exact absurd hselected (hfirst.ne_nil hfound)
  | cons endpoint rest => rfl

/-- To select all is to select the numbers of all places. -/
theorem select_all (added : List (Endpoint × List Text)) :
    (ofEndpoints added).select .all = (ofEndpoints added).select
      (.these (((List.finRange (ofEndpoints added).numbered.length).map numberAt).map .int)) := by
  have hindices : ((ofEndpoints added).numbered.map fun entry => Scalar.int entry.index) =
      ((List.finRange (ofEndpoints added).numbered.length).map numberAt).map .int := by
    refine List.ext_getElem (by simp) fun place hplace _ => ?_
    have hplace : place < (ofEndpoints added).numbered.length := by simpa using hplace
    simp [index_ofEndpoints hplace, numberAt]
  show (ofEndpoints added).select (.these ((ofEndpoints added).numbered.map _)) = _
  rw [hindices]

theorem endpointsAt_finRange (catalog : Catalog) :
    catalog.endpointsAt (List.finRange _) = catalog.numbered.map (·.endpoint) := by
  refine List.ext_getElem (by simp [endpointsAt]) fun place hplace _ => ?_
  simp [endpointsAt]

/-- Numbers are refused exactly if there is none or one lies outside of the catalog. -/
theorem select_error_iff : (∃ error, (ofEndpoints added).select (.these (indices.map .int)) =
      .error error) ↔
    indices = [] ∨ ∃ index ∈ indices, index < 1 ∨
      ((ofEndpoints added).numbered.length : Int) < index := by
  constructor
  · rintro ⟨error, herror⟩
    by_contra hno
    rw [not_or, not_exists] at hno
    obtain ⟨hne, hin⟩ := hno
    obtain ⟨places, rfl⟩ := exists_places fun index hmem hout => hin index ⟨hmem, hout⟩
    obtain ⟨selected, hselected, -⟩ := select_places (by simpa using hne)
    rw [hselected] at herror
    cases herror
  · rintro (rfl | hout)
    · exact ⟨_, rfl⟩
    · obtain ⟨error, herror⟩ := resolve_error hout
      refine ⟨error, ?_⟩
      rw [select, herror]
      rfl

/-! ## All endpoints -/

/-- An endpoint that was added with a tag is numbered. -/
theorem mem_numbered_of_tagged (htags : ∀ entry ∈ added, entry.2 ≠ [])
    (h : endpoint ∈ (ofEndpoints added).endpoints) :
    endpoint ∈ (ofEndpoints added).numbered.map (·.endpoint) := by
  have hfound := find?_of_mem h
  have hkey : endpoint.key ∈ addedKeys added := by
    rw [← keys_ofEndpoints]
    exact List.mem_map_of_mem h
  obtain ⟨entry, hentry, heq⟩ := List.mem_map.1 (List.mem_eraseDups.1 hkey)
  obtain ⟨tag, htag⟩ := List.exists_mem_of_ne_nil _ (htags entry hentry)
  have hlisted : (tag, endpoint.key) ∈ listingsOf added :=
    List.mem_flatMap.2 ⟨entry, hentry, List.mem_map.2 ⟨tag, htag, by rw [heq]⟩⟩
  have hrow : (tag, keysUnder (listingsOf added) tag) ∈ (ofEndpoints added).tags := by
    rw [tags_ofEndpoints]
    exact List.mem_map_of_mem (List.mem_eraseDups.2 (List.mem_map_of_mem hlisted))
  have hunder : endpoint.key ∈ keysUnder (listingsOf added) tag :=
    List.mem_eraseDups.2 (List.mem_map.2 ⟨_, List.mem_filter.2 ⟨hlisted, by simp⟩, rfl⟩)
  have hplace : (tag, endpoint) ∈
      (ofEndpoints added).numbered.map fun entry => (entry.tag, entry.endpoint) := by
    rw [map_numbered]
    refine List.mem_flatMap.2 ⟨_, List.mem_map_of_mem hrow, List.mem_map_of_mem ?_⟩
    exact List.mem_filterMap.2 ⟨endpoint.key, hunder, hfound⟩
  obtain ⟨place, hmem, hsame⟩ := List.mem_map.1 hplace
  exact List.mem_map.2 ⟨place, hmem, (Prod.mk.inj hsame).2⟩

theorem mem_endpoints_of_numbered (h : endpoint ∈ catalog.numbered.map (·.endpoint)) :
    endpoint ∈ catalog.endpoints := by
  obtain ⟨entry, hentry, rfl⟩ := List.mem_map.1 h
  exact List.mem_of_find?_eq_some (find?_of_mem_numbered hentry)

/-- If each endpoint was added with a tag, the first places of all keys are all endpoints. -/
theorem perm_of_tagged (htags : ∀ entry ∈ added, entry.2 ≠ [])
    (h : FirstOf selected ((ofEndpoints added).numbered.map (·.endpoint))) :
    selected.Perm (ofEndpoints added).endpoints := by
  have hselected : selected.Nodup := by
    have hkeys : (selected.map (·.key)).Nodup := h.keys ▸ nodup_eraseDups _
    exact hkeys.of_map
  have hendpoints : (ofEndpoints added).endpoints.Nodup := by
    have hkeys : ((ofEndpoints added).endpoints.map (·.key)).Nodup := by
      rw [keys_ofEndpoints]
      exact nodup_eraseDups _
    exact hkeys.of_map
  refine (List.perm_ext_iff_of_nodup hselected hendpoints).2 fun endpoint => ⟨fun hmem => ?_, fun hmem => ?_⟩
  · exact mem_endpoints_of_numbered (h.sublist.subset hmem)
  · have hkey : endpoint.key ∈ selected.map (·.key) := by
      rw [h.keys]
      exact List.mem_eraseDups.2 (List.mem_map_of_mem (mem_numbered_of_tagged htags hmem))
    obtain ⟨other, hother, hsame⟩ := List.mem_map.1 hkey
    have hstored := find?_of_mem (mem_endpoints_of_numbered (h.sublist.subset hother))
    rw [hsame, find?_of_mem hmem] at hstored
    rwa [Option.some.inj hstored]

/-- Selections of a catalog to which endpoints have been added. Numbers are refused exactly if there
is none or one lies outside of the catalog; else they select the endpoints at their places, each key
at its first place. All numbers are refused only if there are none, and select each stored endpoint
once if all were added with tags. A row of entries in which a number stands selects what its numbers
select. -/
theorem select_resolves (added : List (Endpoint × List Text)) :
    let catalog := ofEndpoints added
    (∀ indices : List Int,
      (∃ error, catalog.select (.these (indices.map .int)) = .error error) ↔
        indices = [] ∨ ∃ index ∈ indices, index < 1 ∨ (catalog.numbered.length : Int) < index) ∧
    (∀ places : List (Fin catalog.numbered.length), places ≠ [] →
      ∃ selected, catalog.select (.these ((places.map numberAt).map .int)) = .ok selected ∧
        FirstOf selected (catalog.endpointsAt places)) ∧
    ((∃ error, catalog.select .all = .error error) ↔ catalog.numbered = []) ∧
    (catalog.numbered ≠ [] →
      ∃ selected, catalog.select .all = .ok selected ∧
        FirstOf selected (catalog.numbered.map (·.endpoint)) ∧
        ((∀ entry ∈ added, entry.2 ≠ []) → selected.Perm catalog.endpoints)) ∧
    ∀ entries : List ListEntry, entries.filterMap ListEntry.value? ≠ [] →
      Selection.parse (ListEntry.row entries) =
        .ok (.these ((entries.filterMap ListEntry.value?).map .int)) ∧
      (Selection.parse (ListEntry.row entries) >>= catalog.select) =
        catalog.select (.these ((entries.filterMap ListEntry.value?).map .int)) := by
  intro catalog
  have hall : catalog.numbered ≠ [] → ∃ selected, catalog.select .all = .ok selected ∧
      FirstOf selected (catalog.numbered.map (·.endpoint)) := by
    intro hne
    have hplaces : List.finRange (ofEndpoints added).numbered.length ≠ [] := by
      rw [Ne, List.finRange_eq_nil_iff]
      exact mt List.length_eq_zero_iff.1 hne
    obtain ⟨selected, hselected, hfirst⟩ := select_places hplaces
    rw [endpointsAt_finRange] at hfirst
    exact ⟨selected, (select_all added).trans hselected, hfirst⟩
  refine ⟨fun indices => select_error_iff, fun places hne => select_places hne, ⟨?_, ?_⟩, ?_, ?_⟩
  · rintro ⟨error, herror⟩
    by_contra hne
    obtain ⟨selected, hselected, -⟩ := hall hne
    rw [hselected] at herror
    cases herror
  · intro hnil
    rw [show catalog.select .all = _ from select_all added]
    refine select_error_iff.2 (.inl ?_)
    rw [List.map_eq_nil_iff, List.finRange_eq_nil_iff, List.length_eq_zero_iff]
    exact hnil
  · intro hne
    obtain ⟨selected, hselected, hfirst⟩ := hall hne
    exact ⟨selected, hselected, hfirst, fun htags => perm_of_tagged htags hfirst⟩
  · intro entries hne
    have hparse := Selection.parse_row hne
    refine ⟨hparse, ?_⟩
    rw [hparse]
    rfl

end Catalog

end Scaffold
