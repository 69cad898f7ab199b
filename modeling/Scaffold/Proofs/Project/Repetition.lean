import Scaffold.Proofs.Project.Independence

/-!
# Extending a feature again

Once a feature has been extended, going through the same slots again writes nothing, provided that
nothing is written twice to any one of them (`Slot.Rests`). So a second run that takes in the same
endpoints leaves the tree as it is (`generateAppend_again`).
-/

namespace Scaffold

variable {target : Target} {config : Config} {endpoints admitted : List Endpoint} {layers : Layers}
  {project name content : Text} {desk : Desk} {tree middle other : Tree} {slot : Slot}

/-- What is written to the slot once is not written to again. -/
def Slot.Rests (slot : Slot) (entry : Option Entry) : Prop :=
  ∀ text, slot.text? entry = some text → slot.text? (some (.file (.text text))) = none

theorem Slot.text?_folder (path : Text) (entry : Option Entry) :
    (Slot.folder path).text? entry = none := by
  cases entry <;> rfl

/-- A slot that stands in a tree can be gone through in it. -/
theorem Slot.Stands.allows (h : slot.Stands target tree) : slot.Allows target tree tree := by
  obtain ⟨hfind, h⟩ := h
  refine ⟨hfind, ?_⟩
  cases slot with
  | folder path => exact h
  | file path full reads update =>
      obtain ⟨entry, hget, htext⟩ := h
      rw [hget]
      cases entry with
      | folder => exact Bool.eq_false_iff.2 fun hreads => nomatch htext hreads
      | file content =>
          cases content with
          | text text => trivial
          | bytes bytes => exact Bool.eq_false_iff.2 fun hreads => nomatch htext hreads

namespace Extended

variable (h : Extended config target admitted layers tree middle other)
  (hplaced : Placed target.feature admitted)

include h hplaced

/-- The slots stand in the end: the errors do not lie at their places. -/
theorem stands_other (hslot : slot ∈ appendSlots target.feature admitted layers) :
    slot.Stands target other := by
  have hsited := (spread_appendSlots hplaced).sited slot hslot
  have hstands := h.stands slot hslot
  refine hstands.keeps h.errors.below fun hfile => ?_
  obtain ⟨entry, hget⟩ : ∃ entry, middle.get? (slot.place target) = some entry := by
    cases slot with
    | folder path => exact absurd rfl (hfile path)
    | file path full reads update =>
        obtain ⟨-, entry, hget, -⟩ := hstands
        exact ⟨entry, hget⟩
  rw [hget]
  exact h.errors.get?_of_some (fun path text hmade heq => Slot.place_ne_errorPlace config hsited
    (heq.symm.trans (place_of_mem_errorItems hmade))) hget

/-- Nothing is written to a slot at rest any more. -/
theorem text?_eq_none (hslot : slot ∈ appendSlots target.feature admitted layers)
    (hrests : slot.Rests (tree.get? (slot.place target))) :
    slot.text? (other.get? (slot.place target)) = none := by
  by_cases hfolder : ∃ path, slot = .folder path
  · obtain ⟨path, rfl⟩ := hfolder
    exact Slot.text?_folder ..
  · rw [h.get?_place hplaced hslot fun path heq => hfolder ⟨path, heq⟩]
    cases htext : slot.text? (tree.get? (slot.place target)) with
    | none => exact htext
    | some text => exact hrests text htext

variable (hrests : ∀ slot ∈ appendSlots target.feature admitted layers,
  slot.Rests (tree.get? (slot.place target)))

include hrests

/-- Nothing is written when the slots are gone through again. -/
theorem written_eq_nil : Slot.written target (appendSlots target.feature admitted layers) other =
    [] := by
  refine List.filterMap_eq_nil_iff.2 fun slot hslot => ?_
  rw [Slot.written?, h.text?_eq_none hplaced hslot (hrests slot hslot)]
  rfl

/-- What is made of the slots when they are gone through again is there. -/
theorem makes_other :
    other.Makes (Slot.items target (appendSlots target.feature admitted layers) other) other where
  below := .refl other
  holds item hitem := by
    obtain ⟨slot, hslot, hitem⟩ := List.mem_filterMap.1 hitem
    have hstands := h.stands_other hplaced hslot
    have htext := h.text?_eq_none hplaced hslot (hrests slot hslot)
    cases slot with
    | folder path =>
        rw [← Option.some.inj hitem]
        exact ⟨hstands.1, hstands.2⟩
    | file path full reads update =>
        obtain ⟨text, hsome, -⟩ := Option.map_eq_some_iff.1 hitem
        exact absurd (htext.symm.trans hsome) nofun
  rest _ _ := rfl

end Extended

/-- Extending a feature by the endpoints by which it has just been extended changes nothing. -/
theorem generateAppend_again (hname : FeatureName name)
    (hmethods : ∀ endpoint ∈ endpoints, '/' ∉ endpoint.methodName) (hsound : desk.tree.Sound)
    (hfolder : desk.tree.Holds (.folder (config.featurePath name)))
    (htarget : config.target project name desk.tree = .ok target)
    (hcontent : target.readService desk.tree = .ok content)
    (hnew : (target.admission content endpoints).admitted ≠ [])
    (h : Extended config target (target.admission content endpoints).admitted layers tree middle
      desk.tree)
    (hrests : ∀ slot ∈ appendSlots target.feature (target.admission content endpoints).admitted
      layers, slot.Rests (tree.get? (slot.place target))) :
    ∃ outcome desk', (generateAppend config project name endpoints layers).runOn desk =
        (.ok outcome, desk') ∧
      (∀ place, desk'.tree.get? place = desk.tree.get? place) ∧ outcome.filesWritten = [] := by
  have hplaced : Placed target.feature (target.admission content endpoints).admitted :=
    .of_target hname (fun endpoint hmem => hmethods endpoint (mem_of_admitted hmem)) htarget
  obtain ⟨outcome, desk', hrun⟩ := generateAppend_runOn hname hmethods hsound hfolder htarget
    hcontent hnew (.refl _) h.showable (fun slot hslot => (h.stands_other hplaced hslot).allows)
    fun _ hmakes => .inl (hmakes.below.has h.has)
  obtain ⟨target', content', htarget', hcontent', -, hcases⟩ :=
    generateAppend_makes hname hmethods hsound hfolder hrun
  obtain rfl : target = target' := Except.ok.inj (htarget.symm.trans htarget')
  obtain rfl : content = content' := Except.ok.inj (hcontent.symm.trans hcontent')
  obtain ⟨hempty, -⟩ | ⟨-, ⟨middle', hextended⟩, hwritten, -⟩ := hcases
  · exact absurd hempty hnew
  · refine ⟨outcome, desk', hrun, fun place => ?_, ?_⟩
    · exact (hextended.makes h.has).agree (h.makes_other hplaced hrests) (fun _ => Iff.rfl) place
    · rw [hwritten, h.written_eq_nil hplaced hrests]

end Scaffold
