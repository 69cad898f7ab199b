import Scaffold.Proofs.Project.Append

/-!
# Warnings

What extending a file does with it (`Part.settle`) depends on the text of that file alone. Of the
steps that extend a feature each one warns about the files that it skips, once each and in order
(`appendLayers_warns`).
-/

namespace Scaffold

variable {desk desk' : Desk} {target : Target} {feature : Feature} {endpoints : List Endpoint}
  {layers : Layers} {part : Part} {parts parts' : List Part} {slots others : List Slot}
  {α β : Type} {tree other : Tree}

/-! ## Single files -/

/-- What becomes of a file: its text, whether it has been written, and a warning. -/
structure Settled where
  text : Text
  isWritten : Bool := false
  warning? : Option Text := none

/-- The warning about a file that lacks an anchor. -/
def Part.skipped (part : Part) (anchor : MissingAnchor) : Text :=
  "Skipped " ++ part.path ++ ": " ++ anchor.message

/-- What becomes of the file of a part. A missing file is rendered in full, a file without an anchor
is left alone. -/
def Part.settle (part : Part) : Option Text → Settled
  | none => { text := part.full, isWritten := true }
  | some old =>
    match part.extend (universalNewlines old) with
    | .error anchor => { text := old, warning? := some (part.skipped anchor) }
    | .ok updated =>
      if updated = universalNewlines old then { text := old }
      else { text := updated, isWritten := true }

/-- What becomes of the file of a part in a tree. -/
def Part.settleIn (part : Part) (target : Target) (tree : Tree) : Settled :=
  part.settle (tree.textAt? (target.path part.path).resolve)

/-- The warning about the file of a part in a tree, if any. -/
def Part.warningIn? (part : Part) (target : Target) (tree : Tree) : Option Text :=
  (part.settleIn target tree).warning?

theorem Part.settleIn_congr
    (h : other.get? (part.slot.place target) = tree.get? (part.slot.place target)) :
    part.settleIn target other = part.settleIn target tree := by
  have htext : other.textAt? (part.slot.place target) = tree.textAt? (part.slot.place target) := by
    rw [Tree.textAt?, Tree.textAt?, h]
  exact congrArg part.settle htext

/-- The text that is written of a part, if any, is what becomes of its file. -/
theorem Part.text?_slot (h : tree.get? (part.slot.place target) = none ∨
      ∃ text, tree.get? (part.slot.place target) = some (.file (.text text))) :
    part.slot.text? (tree.get? (part.slot.place target)) =
      if (part.settleIn target tree).isWritten then some (part.settleIn target tree).text
      else none := by
  rw [Part.settleIn]
  have hplace : (target.path part.path).resolve = part.slot.place target := rfl
  rw [hplace]
  rcases h with hnone | ⟨text, htext⟩
  · rw [Tree.textAt?_of_none hnone, hnone]
    rfl
  · rw [Tree.textAt?_of_get htext, htext]
    show part.update (universalNewlines text) = _
    rw [Part.update, Part.settle]
    cases part.extend (universalNewlines text) with
    | error anchor => rfl
    | ok updated =>
        dsimp only
        split <;> rfl

/-- A file that is not written keeps its text. -/
theorem Part.settle_text_of_not_written {old : Text}
    (h : (part.settle (some old)).isWritten = false) : (part.settle (some old)).text = old := by
  rw [Part.settle] at h ⊢
  cases hextend : part.extend (universalNewlines old) with
  | error anchor => rfl
  | ok updated =>
      rw [hextend] at h
      dsimp only at h ⊢
      split at h
      · next hsame => rw [if_pos hsame]
      · cases h

/-! ## Steps -/

/-- The step warns about the files of the parts that it skips. `warnings` gives the warnings of an
answer, `before` those that have been given before. -/
def Warns (target : Target) (warnings : α → List Text) (before : List Text)
    (step : Work WorkError α) (parts : List Part) : Prop :=
  ∀ desk desk' answer, Ready target desk.tree → step.runOn desk = (.ok answer, desk') →
    warnings answer = before ++ parts.filterMap (·.warningIn? target desk.tree)

namespace Warns

variable {warnings : α → List Text} {warnings' : β → List Text} {before : List Text}

theorem pure (warnings : α → List Text) (answer : α) :
    Warns target warnings (warnings answer) (Pure.pure answer) [] := by
  intro desk desk' answer' _ h
  obtain ⟨heq, -⟩ := Prod.mk.injEq .. ▸ h
  obtain rfl := Except.ok.inj heq
  rw [List.filterMap_nil, List.append_nil]

/-- One step after another, which goes through other slots. -/
theorem bind {names : α → List Text} {written : List Text} {first : Work WorkError α}
    {next : α → Work WorkError β} (hdoes : Does target names written first slots)
    (h : Warns target warnings before first parts)
    (h' : ∀ answer, Warns target warnings' (warnings answer) (next answer) parts')
    (hspread : Slot.Spread (slots ++ others)) (hparts : ∀ part ∈ parts', part.slot ∈ others) :
    Warns target warnings' before (first >>= next) (parts ++ parts') := by
  intro desk desk' answer hready hrun
  obtain ⟨middle, between, hfirst, hnext⟩ := Work.runOn_bind_eq_ok.1 hrun
  obtain ⟨hmakes, -, -⟩ := hdoes.makes hready hfirst
  have hsame : parts'.filterMap (·.warningIn? target between.tree) =
      parts'.filterMap (·.warningIn? target desk.tree) := by
    refine List.filterMap_congr fun part hpart => ?_
    have hslot := hparts part hpart
    refine congrArg Settled.warning? (Part.settleIn_congr (Slot.get?_of_makes hready hmakes
      (fun slot hslot => hspread.sited slot (List.mem_append_left _ hslot))
      (hspread.sited _ (List.mem_append_right _ hslot)) nofun fun slot hmem => ?_))
    exact (List.pairwise_append.1 hspread.apart).2.2 slot hmem _ hslot
  rw [h' middle _ _ _ (hready.of_makes hmakes) hnext, h _ _ _ hready hfirst, hsame,
    List.filterMap_append, List.append_assoc]

theorem shift {step : Work WorkError α} (h : Warns target warnings [] step parts)
    (earlier : List Text) :
    Warns target (fun answer => earlier ++ warnings answer) earlier step parts := by
  intro desk desk' answer hready hrun
  show earlier ++ warnings answer = _
  rw [h _ _ _ hready hrun, List.nil_append]

/-- An answer may be put in another form at the end. -/
theorem map {step : Work WorkError α} (h : Warns target warnings before step parts) (f : α → β)
    (hf : ∀ answer, warnings' (f answer) = warnings answer) :
    Warns target warnings' before (step >>= fun answer => Pure.pure (f answer)) parts := by
  intro desk desk' answer hready hrun
  obtain ⟨first, middle, hfirst, hlast⟩ := Work.runOn_bind_eq_ok.1 hrun
  obtain ⟨heq, -⟩ := Prod.mk.injEq .. ▸ hlast
  obtain rfl := Except.ok.inj heq
  rw [hf, h _ _ _ hready hfirst]

/-- A step that is left out gives no warning. -/
theorem ite {step : Work WorkError α} {condition : Prop} [Decidable condition]
    (warnings : α → List Text) (other : α)
    (h : condition → Warns target warnings (warnings other) step parts) :
    Warns target warnings (warnings other) (if condition then step else Pure.pure other)
      (if condition then parts else []) := by
  split
  · next hcondition => exact h hcondition
  · exact Warns.pure warnings other

/-- Several steps that report their warnings, one after the other. -/
theorem mapM {γ : Type} {step : γ → Work WorkError α} {names : α → List Text} {xs : List γ}
    {slot : γ → Slot} {part? : γ → Option Part}
    (hdoes : ∀ x ∈ xs, Does target names [] (step x) [slot x])
    (h : ∀ x ∈ xs, Warns target warnings [] (step x) (part? x).toList)
    (hspread : Slot.Spread (xs.map slot))
    (hparts : ∀ x ∈ xs, ∀ part ∈ part? x, part.slot = slot x) :
    Warns target (fun answers : List α => answers.flatMap warnings) [] (xs.mapM step)
      (xs.filterMap part?) := by
  induction xs with
  | nil => exact Warns.pure (fun answers : List α => answers.flatMap warnings) []
  | cons x xs ih =>
      have hrest := ih (fun y hy => hdoes y (List.mem_cons_of_mem _ hy))
        (fun y hy => h y (List.mem_cons_of_mem _ hy))
        (hspread.sublist (List.sublist_cons_self ..))
        fun y hy => hparts y (List.mem_cons_of_mem _ hy)
      have hsplit : (x :: xs).filterMap part? = (part? x).toList ++ xs.filterMap part? := by
        cases hx : part? x <;> simp [hx]
      have hslots : ∀ part ∈ xs.filterMap part?, part.slot ∈ xs.map slot := by
        intro part hpart
        obtain ⟨y, hy, hsome⟩ := List.mem_filterMap.1 hpart
        rw [hparts y (List.mem_cons_of_mem _ hy) part hsome]
        exact List.mem_map_of_mem hy
      rw [List.mapM_cons, hsplit]
      refine (h x List.mem_cons_self).bind (hdoes x List.mem_cons_self) (fun first => ?_) hspread
        hslots
      exact (hrest.shift (warnings first)).map (first :: ·) fun _ => by simp

end Warns

/-! ## Layers -/

/-- Extending one file warns if it skips the file. -/
theorem appendPart_warns {folder : List Text} {last : Text}
    (hrel : Path.Relative part.path (folder ++ [last])) :
    Warns target Report.warnings [] (appendPart target part) [part] := by
  intro desk desk' report hready hrun
  have hone : [part].filterMap (·.warningIn? target desk.tree) =
      (part.settleIn target desk.tree).warning?.toList := by
    rw [List.filterMap_cons, Part.warningIn?]
    cases (part.settleIn target desk.tree).warning? <;> rfl
  rw [hone, Part.settleIn, List.nil_append]
  obtain ⟨known, middle, hask, hrest⟩ := Work.runOn_bind_eq_ok.1 hrun
  obtain ⟨hhas, rfl⟩ := runOn_ask_eq_ok.1 hask
  cases known with
  | false =>
      obtain ⟨⟨⟩, created, hcreate, hreport⟩ := Work.runOn_bind_eq_ok.1 hrest
      obtain ⟨heq, -⟩ := Prod.mk.injEq .. ▸ hreport
      obtain rfl := Except.ok.inj heq
      have hnone := get?_eq_none_of_made hready hrel hhas (createFile_makes hcreate)
      rw [Tree.textAt?_of_none hnone]
      rfl
  | true =>
      obtain ⟨content, read, hread, hrest⟩ := Work.runOn_bind_eq_ok.1 hrest
      obtain ⟨hread, rfl⟩ := runOn_readText_eq_ok.1 hread
      obtain ⟨text, -, hget, rfl⟩ := readText_eq_ok hread
      rw [Tree.textAt?_of_get hget, Part.settle]
      cases hextend : part.extend (universalNewlines text) with
      | error anchor =>
        rw [hextend] at hrest
        obtain ⟨⟨⟩, warned, -, hreport⟩ := Work.runOn_bind_eq_ok.1 hrest
        obtain ⟨heq, -⟩ := Prod.mk.injEq .. ▸ hreport
        obtain rfl := Except.ok.inj heq
        rfl
      | ok updated =>
        rw [hextend] at hrest
        dsimp only at hrest ⊢
        by_cases hsame : updated = universalNewlines text
        · rw [if_pos hsame] at hrest
          obtain ⟨⟨⟩, said, -, hreport⟩ := Work.runOn_bind_eq_ok.1 hrest
          obtain ⟨heq, -⟩ := Prod.mk.injEq .. ▸ hreport
          obtain rfl := Except.ok.inj heq
          rw [if_pos hsame]
          rfl
        · rw [if_neg hsame] at hrest
          obtain ⟨⟨⟩, written, -, hrest⟩ := Work.runOn_bind_eq_ok.1 hrest
          obtain ⟨⟨⟩, said, -, hreport⟩ := Work.runOn_bind_eq_ok.1 hrest
          obtain ⟨heq, -⟩ := Prod.mk.injEq .. ▸ hreport
          obtain rfl := Except.ok.inj heq
          rw [if_neg hsame]
          rfl

/-- A file that is left alone once it is there gives no warning. -/
theorem once_warns {file : FeatureFile} {quiet : Work WorkError Report}
    (hquiet : ∀ desk, ∃ desk', quiet.runOn desk = (.ok {}, desk')) :
    Warns target Report.warnings []
      (ask (·.has (target.path file.1)) >>= fun known =>
        if known = true then quiet
        else createFile target file >>= fun _ => pure { written := [file.1] }) [] := by
  intro desk desk' report _ hrun
  obtain ⟨known, middle, -, hrest⟩ := Work.runOn_bind_eq_ok.1 hrun
  cases known with
  | false =>
      obtain ⟨⟨⟩, created, -, hreport⟩ := Work.runOn_bind_eq_ok.1 hrest
      obtain ⟨heq, -⟩ := Prod.mk.injEq .. ▸ hreport
      obtain rfl := Except.ok.inj heq
      rfl
  | true =>
      obtain ⟨last, hquiet⟩ := hquiet middle
      rw [if_pos rfl, hquiet, Prod.mk.injEq] at hrest
      obtain ⟨heq, -⟩ := hrest
      obtain rfl := Except.ok.inj heq
      rfl

theorem appendParts_warns (hspread : Slot.Spread (parts.map Part.slot)) :
    Warns target Report.warnings [] (appendParts target parts) parts := by
  have hrel : ∀ part ∈ parts, ∃ folder last, Path.Relative part.path (folder ++ [last]) := by
    intro part hpart
    obtain ⟨folder, last, hsited⟩ := hspread.sited part.slot (List.mem_map_of_mem hpart)
    exact ⟨folder, last, hsited.relative⟩
  have hdoes : ∀ part ∈ parts, Does target Report.written [] (appendPart target part) [part.slot] := by
    intro part hpart
    obtain ⟨folder, last, hrel⟩ := hrel part hpart
    exact appendPart_does hrel
  have hall : Warns target (fun reports : List Report => reports.flatMap Report.warnings) []
      (parts.mapM (appendPart target)) (parts.filterMap some) := by
    refine Warns.mapM hdoes (fun part hpart => ?_) hspread fun part _ same hsame => ?_
    · obtain ⟨folder, last, hrel⟩ := hrel part hpart
      exact appendPart_warns hrel
    · rw [Option.some.inj hsame]
  rw [List.filterMap_some] at hall
  exact hall.map Report.concat fun _ => rfl

theorem appendPartsIf_warns {condition : Prop} [Decidable condition]
    (hspread : Slot.Spread (if condition then parts.map Part.slot else [])) :
    Warns target Report.warnings [] (if condition then appendParts target parts else pure {})
      (if condition then parts else []) := by
  refine Warns.ite Report.warnings {} fun hchosen => ?_
  rw [if_pos hchosen] at hspread
  exact appendParts_warns hspread

theorem appendData_warns (hshowable : endpoints.all (·.hasShowableModels) = true)
    (hspread : Slot.Spread (dataSlots target.feature endpoints)) :
    Warns target Report.warnings [] (appendData target endpoints)
      (dataParts target.feature endpoints) := by
  have hsub : Slot.Spread ((modelFiles target.feature.modelFolder endpoints).map onceSlot) :=
    hspread.sublist (List.sublist_append_left ..)
  have hdoes : ∀ file ∈ modelFiles target.feature.modelFolder endpoints,
      Does target Report.written [] (appendModel target file) [onceSlot file] := by
    intro file hfile
    obtain ⟨folder, last, hsited⟩ := hsub.sited _ (List.mem_map_of_mem hfile)
    exact appendModel_does hsited.relative
  have hmodels : Warns target (fun reports : List Report => reports.flatMap Report.warnings) []
      ((modelFiles target.feature.modelFolder endpoints).mapM (appendModel target))
      ((modelFiles target.feature.modelFolder endpoints).filterMap fun _ => none) :=
    Warns.mapM hdoes (fun file _ => once_warns fun desk => ⟨desk, rfl⟩) hsub nofun
  rw [List.filterMap_none] at hmodels
  have hlast : ∀ models : List Report, Warns target Report.warnings
      (models.flatMap Report.warnings)
      (appendParts target (dataParts target.feature endpoints) >>= fun parts =>
        pure (Report.concat (models ++ [parts]))) (dataParts target.feature endpoints) := fun models =>
    ((appendParts_warns (hspread.sublist (List.sublist_append_right ..))).shift _).map _
      fun parts => by simp [Report.concat]
  have hcheck : checkModels endpoints = pure () := by
    rw [checkModels, if_pos hshowable]
  unfold appendData
  rw [hcheck, pure_bind]
  exact hmodels.bind (Does.mapM hdoes hsub) hlast hspread fun part hpart =>
    List.mem_map_of_mem hpart

theorem appendScreen_warns : Warns target Report.warnings [] (appendScreen target) [] := by
  have hquiet : ∀ (text : Text) (desk : Desk), ∃ desk',
      (Work.say text >>= fun _ => pure {} : Work WorkError Report).runOn desk = (.ok {}, desk') :=
    fun text desk => ⟨desk.tell (text ++ ['\n']), Work.runOn_bind_of_ok (Work.runOn_say _ _)⟩
  unfold appendScreen
  -- the texts are long, and are kept closed
  generalize screenPath target.feature.name = path
  generalize renderScreen target.feature = text
  have honce : Warns target Report.warnings [] _ [] :=
    @once_warns target (path, text) _ (hquiet ("  " ++ path ++ " already exists (no changes)"))
  exact honce

/-- The parts, if they are chosen, have slots among those of the chosen parts. -/
theorem slot_mem_ite {condition : Prop} [Decidable condition]
    (h : part ∈ if condition then parts else []) :
    part.slot ∈ if condition then parts.map Part.slot else [] := by
  split at h
  · next hchosen =>
    rw [if_pos hchosen]
    exact List.mem_map_of_mem h
  · cases h

/-- The files of the events, the state and the bloc. -/
def blocParts (feature : Feature) (endpoints : List Endpoint) : List Part :=
  [eventPart feature endpoints, statePart feature endpoints, blocPart feature endpoints]

theorem appendPresentation_warns {components : Components}
    (hname : FeatureName target.feature.name)
    (hspread : Slot.Spread (presentationSlots target.feature endpoints components)) :
    Warns target Report.warnings [] (appendPresentation target endpoints components)
      (if components.bloc then blocParts target.feature endpoints else []) := by
  rw [presentationSlots, List.append_assoc] at hspread
  rw [appendPresentation_eq]
  have hspreadBloc := hspread.sublist (List.sublist_append_left ..)
  have hspreadRest := hspread.sublist (List.sublist_append_right ..)
  have hbloc : Warns target Report.warnings [] (if components.bloc then
      appendParts target (blocParts target.feature endpoints) else pure {})
      (if components.bloc then blocParts target.feature endpoints else []) :=
    appendPartsIf_warns hspreadBloc
  have hscreen : Warns target Report.warnings [] (if components.screens then appendScreen target
      else pure {}) (if components.screens then [] else []) :=
    Warns.ite Report.warnings {} fun _ => appendScreen_warns
  have hscreenDoes : Does target Report.written [] (if components.screens then appendScreen target
      else pure {}) (if components.screens then
        [onceSlot (screenPath target.feature.name, renderScreen target.feature)] else []) :=
    Does.ite Report.written {} fun _ => appendScreen_does hname
  have hwidgets : ∀ before : List Text, Warns target (fun _ : Unit => before) before
      (if components.widgets then makeFolders (target.path widgetFolder) else pure ()) [] :=
    fun before _ _ _ _ _ => (List.append_nil before).symm
  rw [ite_self] at hscreen
  rw [← List.append_nil (if components.bloc then blocParts target.feature endpoints else [])]
  refine hbloc.bind (appendPartsIf_does hspreadBloc) (fun bloc => ?_) hspread
    fun part hpart => absurd hpart List.not_mem_nil
  refine (hscreen.shift bloc.warnings).bind (hscreenDoes.shift []) (fun screen => ?_) hspreadRest
    fun part hpart => absurd hpart List.not_mem_nil
  exact (hwidgets _).map (fun _ => Report.concat [bloc, screen]) fun _ => by simp [Report.concat]

theorem slot_mem_presentation
    (h : part ∈ if layers.presentation then
      if layers.components.bloc then blocParts feature endpoints else [] else []) :
    part.slot ∈ if layers.presentation then
      presentationSlots feature endpoints layers.components else [] := by
  split at h
  · next hchosen =>
    rw [if_pos hchosen, presentationSlots, List.append_assoc]
    exact List.mem_append_left _ (slot_mem_ite h)
  · cases h

/-- The files that are extended in the layers. -/
def extendedParts (feature : Feature) (endpoints : List Endpoint) (layers : Layers) : List Part :=
  (if layers.data then dataParts feature endpoints else []) ++
  ((if layers.domain then domainParts feature endpoints else []) ++
  (if layers.presentation then
    if layers.components.bloc then blocParts feature endpoints else []
  else []))

/-- Extending the layers warns about each file that is skipped, once and in order. -/
theorem appendLayers_warns (hplaced : Placed target.feature endpoints)
    (hshowable : layers.data = true → endpoints.all (·.hasShowableModels) = true) :
    Warns target Report.warnings [] (appendLayers target endpoints layers)
      (extendedParts target.feature endpoints layers) := by
  have hspread : Slot.Spread (appendSlots target.feature endpoints layers) :=
    spread_appendSlots hplaced
  rw [appendSlots, List.append_assoc] at hspread
  have hspreadData : layers.data = true → Slot.Spread (dataSlots target.feature endpoints) := by
    intro hchosen
    rw [if_pos hchosen] at hspread
    exact hspread.sublist (List.sublist_append_left ..)
  have hspreadRest := hspread.sublist (List.sublist_append_right ..)
  have hspreadDomain := hspreadRest.sublist (List.sublist_append_left ..)
  have hdata : Warns target Report.warnings [] (if layers.data then appendData target endpoints
      else pure {}) (if layers.data then dataParts target.feature endpoints else []) :=
    Warns.ite Report.warnings {} fun hchosen =>
      appendData_warns (hshowable hchosen) (hspreadData hchosen)
  have hdataDoes : Does target Report.written [] (if layers.data then appendData target endpoints
      else pure {}) (if layers.data then dataSlots target.feature endpoints else []) :=
    Does.ite Report.written {} fun hchosen =>
      appendData_does (hshowable hchosen) (hspreadData hchosen)
  have hdomain : Warns target Report.warnings [] (if layers.domain then
      appendParts target (domainParts target.feature endpoints) else pure {})
      (if layers.domain then domainParts target.feature endpoints else []) :=
    appendPartsIf_warns hspreadDomain
  have hpresentation : Warns target Report.warnings [] (if layers.presentation then
      appendPresentation target endpoints layers.components else pure {})
      (if layers.presentation then
        if layers.components.bloc then blocParts target.feature endpoints else []
      else []) := by
    refine Warns.ite Report.warnings {} fun hchosen => ?_
    rw [if_pos hchosen] at hspreadRest
    exact appendPresentation_warns hplaced.name (hspreadRest.sublist (List.sublist_append_right ..))
  rw [appendLayers_eq]
  refine hdata.bind hdataDoes (fun data => ?_) hspread fun part hpart => ?_
  · refine (hdomain.shift data.warnings).bind ((appendPartsIf_does hspreadDomain).shift [])
      (fun domain => ?_) hspreadRest fun part hpart => ?_
    · exact (hpresentation.shift (data.warnings ++ domain.warnings)).map
        (fun presentation => Report.concat [data, domain, presentation])
        fun presentation => by simp [Report.concat]
    · exact slot_mem_presentation hpart
  · rcases List.mem_append.1 hpart with hpart | hpart
    · exact List.mem_append_left _ (slot_mem_ite hpart)
    · exact List.mem_append_right _ (slot_mem_presentation hpart)

/-- The slots of the files that are extended are among those of the layers. -/
theorem slot_mem_appendSlots (h : part ∈ extendedParts feature endpoints layers) :
    part.slot ∈ appendSlots feature endpoints layers := by
  rw [appendSlots, List.append_assoc]
  rcases List.mem_append.1 h with h | h
  · refine List.mem_append_left _ ?_
    split at h
    · next hchosen =>
      rw [if_pos hchosen]
      exact List.mem_append_right _ (List.mem_map_of_mem h)
    · cases h
  · rcases List.mem_append.1 h with h | h
    · exact List.mem_append_right _ (List.mem_append_left _ (slot_mem_ite h))
    · exact List.mem_append_right _ (List.mem_append_right _ (slot_mem_presentation h))

end Scaffold
