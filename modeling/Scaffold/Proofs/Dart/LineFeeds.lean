import Scaffold.Proofs.Dart.ImportPaths
import Scaffold.Proofs.Dart.MemberNames

/-!
# Line ends of generated code

What is written for endpoints whose paths and arguments hold no carriage return ends its lines with
line feeds alone (`ClassFile.fed_render`, `fed_renderEvent`, `fed_renderState`, `fed_renderBloc`),
so reading it back changes nothing.
-/

namespace Scaffold

variable {feature : Feature} {endpoint : Endpoint} {endpoints : List Endpoint}
  {text : Text}

/-- All characters but carriage returns. -/
def isFed (c : Char) : Bool := c != '\r'

/-- Templates hold no carriage return. -/
theorem takesTokens_isFed : TakesTokens isFed := by
  intro c hc
  simp only [isTokenChar, Bool.not_eq_true', Bool.or_eq_false_iff] at hc
  simp [isFed, bne, hc]

/-- A text on one line holds no carriage return. -/
theorem Consists.fed (h : Consists isLineChar text) : Consists isFed text :=
  h.mono fun c hc => by
    simp only [isLineChar, Bool.not_eq_true', Bool.or_eq_false_iff] at hc
    simp [isFed, bne, hc.2]

/-- Words hold no carriage return. -/
theorem Wordy.fed (h : Wordy text) : Consists isFed text := h.line.fed

/-- ASCII words hold no carriage return. -/
theorem AsciiWordy.fed (h : AsciiWordy text) : Consists isFed text := h.wordy.fed

/-- What is taken holds no carriage return. -/
theorem Consists.no_return (h : Consists isFed text) : '\r' ∉ text := h.not_mem (by decide)

/-- A text without carriage returns is one of the class. -/
theorem Consists.of_no_return (h : '\r' ∉ text) : Consists isFed text := by
  intro c hc
  rw [isFed, bne_iff_ne]
  rintro rfl
  exact h hc

/-! ## Endpoints and features without carriage returns -/

/-- The method of the endpoint is named by word characters; its path and its arguments hold no
carriage return. -/
structure Endpoint.Fed (endpoint : Endpoint) : Prop where
  wordy : Wordy endpoint.methodName
  path : Consists isFed endpoint.path
  writes : endpoint.Writes isFed

/-- The names of the project and of the feature hold no carriage return, and the feature's classes
are named by ASCII words. -/
structure Feature.Fed (feature : Feature) : Prop where
  project : Consists isFed feature.project
  name : Consists isFed feature.name
  modelFolder : Consists isFed feature.modelFolder
  pascal : AsciiWordy feature.pascal
  camel : AsciiWordy feature.camel

/-- What breaks no line holds no carriage return. -/
theorem Endpoint.Lined.toFed (h : endpoint.Lined) : endpoint.Fed :=
  ⟨h.wordy, h.path.fed, fun argument hargument =>
    ⟨(h.writes argument hargument).1.fed, (h.writes argument hargument).2.fed⟩⟩

/-- An accepted name may end with a line feed, but holds no carriage return. -/
theorem Feature.Lined.toFed (h : feature.Lined) : feature.Fed where
  project := h.project.fed
  name := .of_no_return (h.not_mem_name (by decide) (by decide))
  modelFolder := h.modelFolder.fed
  pascal := h.pascal
  camel := h.camel

/-- The parts of signatures hold no carriage return, so only the path has to be looked at. -/
theorem Endpoint.Plain.toFed (h : endpoint.Plain) (hpath : '\r' ∉ endpoint.path) :
    endpoint.Fed where
  wordy := h.methodName.wordy
  path := .of_no_return hpath
  writes argument hargument :=
    ⟨takesTokens_isFed.of_signature (h.writes argument hargument).1,
      takesTokens_isFed.of_signature (h.writes argument hargument).2⟩

/-- Names that are ASCII words hold no carriage return. -/
theorem Feature.Plain.toFed (h : feature.Plain) : feature.Fed :=
  ⟨h.project.fed, h.name.fed, h.modelFolder.fed, h.name.pascal, h.name.camel⟩

namespace Endpoint.Fed

/-- What templates are filled with holds no carriage return. -/
theorem fills (h : endpoint.Fed) : endpoint.Fills isFed where
  tokens := takesTokens_isFed
  methodName := h.wordy.fed
  returnType := by
    unfold Endpoint.returnType
    split
    · exact (wordy_responseModel h.wordy).fed
    · decide
  typedParameters := h.writes.typedParameters (.literal (by decide))
  callArguments := h.writes.callArguments (.literal (by decide))

/-- The parameters of the client hold no carriage return. -/
theorem clientParameters (h : endpoint.Fed) : Consists isFed endpoint.clientParameters :=
  h.writes.clientParameters (.literal (by decide))

/-- The named parameters hold no carriage return. -/
theorem namedParameters (h : endpoint.Fed) : Consists isFed endpoint.namedParameters :=
  h.writes.namedParameters (.literal (by decide))

/-- The class of the event is named without a carriage return. -/
theorem pascal (h : endpoint.Fed) : Consists isFed endpoint.eventName.pascal :=
  (h.wordy.append (by decide)).pascal.fed

end Endpoint.Fed

namespace Feature.Fed

/-- What import paths are made of holds no carriage return. -/
theorem spells (h : feature.Fed) : feature.Spells isFed where
  sign c hc := by
    rw [isFed, bne_iff_ne]
    rintro rfl
    exact absurd hc (by decide)
  project := h.project
  name := h.name

/-- The paths of the models hold no carriage return. -/
theorem modelImports (h : feature.Fed) (hfed : ∀ endpoint ∈ endpoints, endpoint.Fed) :
    ∀ path ∈ feature.modelImports endpoints, Consists isFed path := by
  intro path hpath
  obtain ⟨endpoint, hendpoint, hpath⟩ := List.mem_flatMap.1 (List.mem_eraseDups.1 hpath)
  obtain ⟨model, hmodel, rfl⟩ := List.mem_map.1 hpath
  have hwordy : Wordy model := wordy_of_mem_requiredModels (hfed endpoint hendpoint).wordy hmodel
  exact (((h.spells.package.append (.literal (by decide))).append h.modelFolder).append
    (.literal (by decide))).append (hwordy.snake.fed.append (.literal (by decide)))

/-- The name of a class of the feature holds no carriage return. -/
theorem className (h : feature.Fed) {ending : Text} (hending : Consists isFed ending) :
    Consists isFed (feature.pascal ++ ending) :=
  h.pascal.fed.append hending

end Feature.Fed

/-- An import clause is as free of carriage returns as its path. -/
theorem fed_importClause {path : Text} (h : Consists isFed path) :
    Consists isFed (importClause path) :=
  (Consists.append (.literal (by decide)) h).append (.literal (by decide))

/-- A block of imports is as free of carriage returns as their paths. -/
theorem fed_importBlock {paths : List Text} (h : ∀ path ∈ paths, Consists isFed path) :
    Consists isFed (importBlock paths) := by
  unfold importBlock
  split
  · exact .nil
  · exact (Consists.join (.literal (by decide)) (List.forall_mem_map.2 fun path hpath =>
      fed_importClause (h path hpath))).append (.literal (by decide))

/-! ## Members -/

/-- A member of a class file holds no carriage return. -/
theorem ClassFile.fed_member (file : ClassFile) (hfeature : feature.Fed) (h : endpoint.Fed) :
    Consists isFed (file.member feature endpoint) :=
  file.consists_member h.fills (by decide) (hfeature.camel.append (by decide)).fed
    (fun _ => ⟨consists_annotationText takesTokens_isFed (by decide) h.path, h.clientParameters⟩)
    fun _ => by decide

/-- The case of an event holds no carriage return. -/
theorem fed_eventCase (hfeature : feature.Fed) (h : endpoint.Fed) :
    Consists isFed (eventCase feature endpoint) :=
  consists_eventCase h.fills (hfeature.className (.literal (by decide))) h.namedParameters h.pascal

/-- A handler holds no carriage return. -/
theorem fed_blocHandler (hfeature : feature.Fed) (h : endpoint.Fed) :
    Consists isFed (blocHandler feature endpoint) :=
  consists_blocHandler h.fills (hfeature.className (.literal (by decide))) (by decide)

/-! ## Files -/

/-- The opening of a class file holds no carriage return. -/
theorem ClassFile.fed_opening (file : ClassFile) (h : feature.Fed) :
    Consists isFed (file.opening feature) := by
  have hname := h.name
  have hservice : Consists isFed feature.serviceClass := h.className (.literal (by decide))
  have hsource : Consists isFed feature.sourceClass := h.className (.literal (by decide))
  have hrepository : Consists isFed feature.repositoryClass := h.className (.literal (by decide))
  have huseCases : Consists isFed feature.useCasesClass := h.className (.literal (by decide))
  have hfield : Consists isFed feature.serviceField := h.camel.fed.append (.literal (by decide))
  unfold opening
  cases file
  case sourceImpl =>
    exact consists_implementation takesTokens_isFed (by decide) hsource hservice hfield
  case repositoryImpl =>
    exact consists_implementation takesTokens_isFed (by decide) hrepository hsource
      (.literal (by decide))
  -- the others are lines of fixed texts and of the names above
  all_goals
    refine Consists.lines rfl ?_
    simp only [List.forall_mem_cons, Consists.append_iff]
    and_intros
    all_goals
      first | with_reducible assumption | exact .literal (by decide) | exact List.forall_mem_nil _

/-- A class file holds no carriage return. -/
theorem ClassFile.fed_render (file : ClassFile) (h : feature.Fed)
    (hfed : ∀ endpoint ∈ endpoints, endpoint.Fed) :
    Consists isFed (file.render feature endpoints) := by
  have himports : Consists isFed (importBlock (file.imports feature endpoints)) := by
    refine fed_importBlock fun path hpath => ?_
    rcases List.mem_append.1 (List.mem_eraseDups.1 hpath) with hpath | hpath
    · exact h.spells.fixedImports file path hpath
    · exact h.modelImports hfed path hpath
  have hmembers : Consists isFed (Text.join "\n\n" (endpoints.map (file.member feature))) :=
    .join (.literal (by decide)) (List.forall_mem_map.2 fun endpoint hendpoint =>
      file.fed_member h (hfed endpoint hendpoint))
  exact ((himports.append (file.fed_opening h)).append hmembers).append (.literal (by decide))

/-- The opening of a part of the bloc file holds no carriage return. -/
theorem fed_partOpening (h : feature.Fed) {className : Text} (hclass : Consists isFed className) :
    Consists isFed (partOpening feature className) := by
  have hname := h.name
  refine Consists.lines rfl ?_
  simp only [List.forall_mem_cons, Consists.append_iff]
  and_intros
  all_goals
    first | with_reducible assumption | exact .literal (by decide) | exact List.forall_mem_nil _

/-- The file of the events holds no carriage return. -/
theorem fed_renderEvent (h : feature.Fed) (hfed : ∀ endpoint ∈ endpoints, endpoint.Fed) :
    Consists isFed (renderEvent feature endpoints) := by
  have hclass : Consists isFed feature.eventClass := h.className (.literal (by decide))
  have hopening := fed_partOpening h hclass
  have hcases : Consists isFed (Text.join "\n\n" (endpoints.map (eventCase feature))) :=
    .join (.literal (by decide)) (List.forall_mem_map.2 fun endpoint hendpoint =>
      fed_eventCase h (hfed endpoint hendpoint))
  exact (hopening.append hcases).append (.literal (by decide))

/-- The file of the state holds no carriage return. -/
theorem fed_renderState (h : feature.Fed) (hfed : ∀ endpoint ∈ endpoints, endpoint.Fed) :
    Consists isFed (renderState feature endpoints) := by
  have hclass : Consists isFed feature.stateClass := h.className (.literal (by decide))
  have hopening := fed_partOpening h hclass
  have hcommon : ∀ row ∈ commonStateFields, Consists isFed row :=
    List.forall_mem_cons.2
      ⟨.literal (by decide), List.forall_mem_singleton.2 (.literal (by decide))⟩
  have hfields : Consists isFed
      (Text.join "\n" (commonStateFields ++ endpoints.map stateField)) :=
    .join (.literal (by decide)) (List.forall_mem_append.2 ⟨hcommon,
      List.forall_mem_map.2 fun endpoint hendpoint => consists_stateField (hfed endpoint hendpoint).fills⟩)
  unfold renderState
  simp only [Consists.append_iff]
  and_intros
  all_goals first | with_reducible assumption | exact .literal (by decide)

/-- The file of the bloc holds no carriage return. -/
theorem fed_renderBloc (h : feature.Fed) (hfed : ∀ endpoint ∈ endpoints, endpoint.Fed) :
    Consists isFed (renderBloc feature endpoints) := by
  have hname := h.name
  have himports : Consists isFed (importBlock (blocImports feature endpoints)) := by
    refine fed_importBlock fun path hpath => ?_
    rcases List.mem_append.1 (List.mem_eraseDups.1 hpath) with hpath | hpath
    · exact h.spells.blocFixedImports path hpath
    · exact h.modelImports hfed path hpath
  have hopening : Consists isFed (blocOpening feature) := by
    have hbloc : Consists isFed feature.blocClass := h.className (.literal (by decide))
    have hevent : Consists isFed feature.eventClass := h.className (.literal (by decide))
    have hstate : Consists isFed feature.stateClass := h.className (.literal (by decide))
    refine Consists.lines rfl ?_
    simp only [List.forall_mem_cons, Consists.append_iff]
    and_intros
    all_goals
      first | with_reducible assumption | exact .literal (by decide) | exact List.forall_mem_nil _
  have huseCases : Consists isFed feature.useCasesClass := h.className (.literal (by decide))
  have hmiddle : Consists isFed (blocMiddle feature) :=
    (Consists.append (.literal (by decide)) huseCases).append (.literal (by decide))
  have hcases : Consists isFed (Text.join "\n" (endpoints.map whenCase)) :=
    .join (.literal (by decide)) (List.forall_mem_map.2 fun endpoint hendpoint =>
      consists_whenCase (hfed endpoint hendpoint).fills)
  have hhandlers : Consists isFed (Text.join "\n\n" (endpoints.map (blocHandler feature))) :=
    .join (.literal (by decide)) (List.forall_mem_map.2 fun endpoint hendpoint =>
      fed_blocHandler h (hfed endpoint hendpoint))
  unfold renderBloc
  simp only [Consists.append_iff]
  exact ⟨⟨⟨⟨⟨himports, hopening⟩, hcases⟩, hmiddle⟩, hhandlers⟩, .literal (by decide)⟩

end Scaffold
