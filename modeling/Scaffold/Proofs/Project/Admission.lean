import Scaffold.Proofs.Project.Writing

/-!
# Admission

Which endpoints extending a feature takes in: of the endpoints that the service file does not
annotate, in order, each one whose method name is free (`admission_cons`). The names that are taken
in are different and none is a member of the service file (`nodup_admitted`,
`not_hasMember_of_admitted`); if all names differ, nothing else decides (`admitted_eq_filter`).
-/

namespace Scaffold

variable {service content name : Text} {endpoints : List Endpoint} {endpoint : Endpoint}

/-- Whether a method name is used by an endpoint taken in before or by the service file. -/
def nameTaken (content : Text) (admitted : List Endpoint) (name : Text) : Bool :=
  admitted.any (fun endpoint => endpoint.methodName == name) || hasMember content name

theorem nameOwner?_isNone (service content : Text) (admitted : List Endpoint) (name : Text) :
    (nameOwner? service content admitted name).isNone = !nameTaken content admitted name := by
  rw [nameOwner?, nameTaken]
  cases hfind : admitted.find? fun endpoint => endpoint.methodName == name with
  | none =>
      have hany : admitted.any (fun endpoint => endpoint.methodName == name) = false := by
        simpa using hfind
      rw [hany]
      cases hasMember content name <;> rfl
  | some owner =>
      have hany : admitted.any (fun endpoint => endpoint.methodName == name) = true :=
        List.any_eq_true.2 ⟨owner, List.mem_of_find?_eq_some hfind, by simpa using List.find?_some hfind⟩
      rw [hany]
      rfl

/-- An endpoint is taken in at the end, or not at all. -/
theorem admitted_consider (service content : Text) (start : Admission) (endpoint : Endpoint) :
    (consider service content start endpoint).admitted =
      if nameTaken content start.admitted endpoint.methodName then start.admitted
      else start.admitted ++ [endpoint] := by
  have howner := nameOwner?_isNone service content start.admitted endpoint.methodName
  rw [consider]
  split
  · next hnone =>
    rw [hnone] at howner
    rw [if_neg]
    simpa using howner
  · next owner hsome =>
    rw [hsome] at howner
    rw [if_pos]
    simpa using howner

/-- What the names taken in one after the other have in common. -/
theorem foldl_consider_induction {motive : List Endpoint → Prop} {start : Admission}
    (hstart : motive start.admitted)
    (hstep : ∀ admitted, motive admitted → ∀ endpoint ∈ endpoints,
      nameTaken content admitted endpoint.methodName = false → motive (admitted ++ [endpoint])) :
    motive (endpoints.foldl (consider service content) start).admitted := by
  induction endpoints generalizing start with
  | nil => exact hstart
  | cons first rest ih =>
      refine ih ?_ fun admitted hadmitted endpoint hendpoint =>
        hstep admitted hadmitted endpoint (List.mem_cons_of_mem _ hendpoint)
      rw [admitted_consider]
      split
      · exact hstart
      · next hfree => exact hstep _ hstart first List.mem_cons_self (by simpa using hfree)

/-- The endpoints of a selection that the service file does not annotate. -/
def freshEndpoints (content : Text) (endpoints : List Endpoint) : List Endpoint :=
  endpoints.filter fun endpoint => !(annotatedKeys content).contains endpoint.key

theorem foldl_consider_sublist (service content : Text) (endpoints : List Endpoint)
    (start : Admission) :
    ∃ more, more.Sublist endpoints ∧
      (endpoints.foldl (consider service content) start).admitted = start.admitted ++ more := by
  induction endpoints generalizing start with
  | nil => exact ⟨[], .refl _, by simp⟩
  | cons first rest ih =>
      obtain ⟨more, hmore, hadmitted⟩ := ih (consider service content start first)
      rw [admitted_consider] at hadmitted
      split at hadmitted
      · exact ⟨more, hmore.cons _, hadmitted⟩
      · exact ⟨first :: more, hmore.cons_cons _, by rw [List.foldl_cons, hadmitted]; simp⟩

/-- The endpoints that are taken in are fresh ones, in their order. -/
theorem admitted_sublist (service content : Text) (endpoints : List Endpoint) :
    (admission service content endpoints).admitted.Sublist (freshEndpoints content endpoints) := by
  obtain ⟨more, hmore, hadmitted⟩ :=
    foldl_consider_sublist service content (freshEndpoints content endpoints) {}
  have heq : (admission service content endpoints).admitted = more := hadmitted
  rwa [heq]

/-- Only fresh endpoints are taken in. -/
theorem mem_fresh_of_admitted (h : endpoint ∈ (admission service content endpoints).admitted) :
    endpoint ∈ freshEndpoints content endpoints :=
  (admitted_sublist service content endpoints).subset h

theorem mem_of_admitted (h : endpoint ∈ (admission service content endpoints).admitted) :
    endpoint ∈ endpoints :=
  (List.mem_filter.1 (mem_fresh_of_admitted h)).1

/-- The method names that are taken in are different. -/
theorem nodup_admitted (service content : Text) (endpoints : List Endpoint) :
    ((admission service content endpoints).admitted.map (·.methodName)).Nodup := by
  refine foldl_consider_induction
    (motive := fun admitted : List Endpoint => (admitted.map (·.methodName)).Nodup)
    ?_ fun admitted hadmitted endpoint _ hfree => ?_
  · exact List.nodup_nil
  · rw [nameTaken, Bool.or_eq_false_iff, List.any_eq_false] at hfree
    rw [List.map_append, List.nodup_append]
    refine ⟨hadmitted, by simp, ?_⟩
    intro name hname other hother
    obtain ⟨owner, howner, rfl⟩ := List.mem_map.1 hname
    rw [List.map_singleton, List.mem_singleton] at hother
    rw [hother]
    simpa using hfree.1 owner howner

/-- No method name that is taken in is a member of the service file. -/
theorem not_hasMember_of_admitted
    (h : endpoint ∈ (admission service content endpoints).admitted) :
    hasMember content endpoint.methodName = false := by
  have hall : ∀ other ∈ (admission service content endpoints).admitted,
      hasMember content other.methodName = false := by
    refine foldl_consider_induction
      (motive := fun admitted => ∀ other ∈ admitted, hasMember content other.methodName = false)
      (List.forall_mem_nil _) fun admitted hadmitted other _ hfree => ?_
    rw [nameTaken, Bool.or_eq_false_iff] at hfree
    exact List.forall_mem_append.2 ⟨hadmitted, List.forall_mem_singleton.2 hfree.2⟩
  exact hall endpoint h

theorem foldl_consider_of_nodup {start : Admission}
    (h : ((start.admitted ++ endpoints).map (·.methodName)).Nodup) :
    (endpoints.foldl (consider service content) start).admitted =
      start.admitted ++ endpoints.filter fun endpoint => !hasMember content endpoint.methodName := by
  induction endpoints generalizing start with
  | nil => simp
  | cons first rest ih =>
      have hfirst : start.admitted.any (fun endpoint => endpoint.methodName == first.methodName) =
          false := by
        rw [List.map_append, List.nodup_append] at h
        rw [List.any_eq_false]
        intro other hother
        simpa using h.2.2 other.methodName (List.mem_map_of_mem hother) first.methodName (by simp)
      have hadmitted := admitted_consider service content start first
      rw [nameTaken, hfirst, Bool.false_or] at hadmitted
      rw [List.foldl_cons]
      cases hmember : hasMember content first.methodName with
      | true =>
          rw [hmember, if_pos rfl] at hadmitted
          rw [ih, hadmitted, List.filter_cons_of_neg (by simp [hmember])]
          rw [hadmitted]
          refine List.Nodup.sublist (List.Sublist.map _ ?_) h
          exact List.Sublist.append_left (List.sublist_cons_self ..) _
      | false =>
          rw [hmember, if_neg Bool.false_ne_true] at hadmitted
          rw [ih, hadmitted, List.filter_cons_of_pos (by simp [hmember]), List.append_assoc,
            List.singleton_append]
          rw [hadmitted, List.append_assoc, List.singleton_append]
          exact h

/-- If all method names differ, the endpoints whose names are no members of the service file are
taken in. -/
theorem admitted_eq_filter (service content : Text)
    (h : (endpoints.map (·.methodName)).Nodup) :
    (admission service content endpoints).admitted =
      (freshEndpoints content endpoints).filter fun endpoint =>
        !hasMember content endpoint.methodName := by
  have hfresh : ((freshEndpoints content endpoints).map (·.methodName)).Nodup :=
    h.sublist (List.filter_sublist.map _)
  exact foldl_consider_of_nodup (by rwa [List.nil_append])

/-- A name that has an owner keeps one. -/
theorem nameTaken_foldl_consider {start : Admission}
    (h : nameTaken content start.admitted name = true) :
    nameTaken content (endpoints.foldl (consider service content) start).admitted name = true := by
  obtain ⟨more, -, hadmitted⟩ := foldl_consider_sublist service content endpoints start
  rw [nameTaken, Bool.or_eq_true] at h ⊢
  rw [hadmitted, List.any_append, Bool.or_eq_true]
  exact h.imp_left .inl

/-- The name of an endpoint that has been considered has an owner. -/
theorem nameTaken_of_considered (start : Admission) (h : endpoint ∈ endpoints) :
    nameTaken content (endpoints.foldl (consider service content) start).admitted
      endpoint.methodName = true := by
  induction endpoints generalizing start with
  | nil => cases h
  | cons first rest ih =>
      rcases List.mem_cons.1 h with rfl | h
      · rw [List.foldl_cons]
        refine nameTaken_foldl_consider ?_
        rw [admitted_consider]
        split
        · assumption
        · simp [nameTaken]
      · exact ih _ h

/-- Nothing is taken in if the service file annotates every endpoint or has a member of its
name. -/
theorem admitted_eq_nil (service : Text) (h : ∀ endpoint ∈ endpoints,
      endpoint.key ∈ annotatedKeys content ∨ hasMember content endpoint.methodName = true) :
    (admission service content endpoints).admitted = [] := by
  rw [List.eq_nil_iff_forall_not_mem]
  intro endpoint hadmitted
  obtain ⟨hmem, hfresh⟩ := List.mem_filter.1 (mem_fresh_of_admitted hadmitted)
  rcases h endpoint hmem with hkey | hmember
  · simp [hkey] at hfresh
  · simp [not_hasMember_of_admitted hadmitted] at hmember

/-- Nothing more is taken in by a later service file that has kept annotations and members and has
the names that were taken in before. -/
theorem admitted_eq_nil_of_kept {later : Text} (service : Text)
    (hkeys : annotatedKeys content ⊆ annotatedKeys later)
    (hmembers : ∀ endpoint ∈ endpoints, hasMember content endpoint.methodName = true →
      hasMember later endpoint.methodName = true)
    (hnames : ∀ endpoint ∈ (admission service content endpoints).admitted,
      hasMember later endpoint.methodName = true) :
    (admission service later endpoints).admitted = [] := by
  refine admitted_eq_nil service fun endpoint hmem => ?_
  by_cases hkey : endpoint.key ∈ annotatedKeys content
  · exact .inl (hkeys hkey)
  · have hfresh : endpoint ∈ freshEndpoints content endpoints :=
      List.mem_filter.2 ⟨hmem, by simpa using hkey⟩
    have htaken : nameTaken content (admission service content endpoints).admitted
        endpoint.methodName = true := nameTaken_of_considered {} hfresh
    rw [nameTaken, Bool.or_eq_true, List.any_eq_true] at htaken
    rcases htaken with ⟨owner, howner, heq⟩ | hmember
    · rw [← beq_iff_eq.1 heq]
      exact .inr (hnames owner howner)
    · exact .inr (hmembers endpoint hmem hmember)

/-- All endpoints are taken in where there is no service file. -/
theorem admitted_of_nil (service : Text) (h : (endpoints.map (·.methodName)).Nodup)
    (hnames : ∀ endpoint ∈ endpoints, endpoint.methodName ≠ []) :
    (admission service [] endpoints).admitted = endpoints := by
  rw [admitted_eq_filter service [] h, freshEndpoints, List.filter_filter, List.filter_eq_self]
  intro endpoint hendpoint
  have hmember : hasMember [] endpoint.methodName = false := by
    obtain ⟨c, rest, hname⟩ := List.exists_cons_of_ne_nil (hnames endpoint hendpoint)
    rw [hname]
    rfl
  simp [hmember, annotatedKeys, annotationsFrom]

end Scaffold
