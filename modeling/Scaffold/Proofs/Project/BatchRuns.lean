import Scaffold.Proofs.Project.Freshness
import Scaffold.Proofs.Project.Growth

/-!
# Generating in batches

A feature that is generated for some endpoints and then extended batch by batch ends up as the
feature that one run generates for all of them (`generateBatches_eq_generate`). One run of the
extension takes the feature of the known endpoints to that of the known and the new ones
(`Config.Stage.of_append`).
-/

namespace Scaffold

/-- Whether the endpoint has another key than all known ones. -/
def isNewTo (known : List Endpoint) (endpoint : Endpoint) : Bool :=
  !(known.map (·.key)).contains endpoint.key

/-- Adds the new endpoints of a batch behind the known ones. -/
def addNew (known batch : List Endpoint) : List Endpoint := known ++ batch.filter (isNewTo known)

/-- Generates the endpoints batch by batch. -/
def generateBatches (config : Config) (project name : Text) (batches : List (List Endpoint))
    (layers : Layers) : Work RunError Unit :=
  batches.forM fun batch => do
    let _ ← generate config project name batch layers .append

/-- The endpoints can be read back, and no two of them share a key or a method name, as it is for
those of one catalog. -/
structure Coherent (endpoints : List Endpoint) : Prop where
  tame : ∀ endpoint ∈ endpoints, endpoint.Tame
  key : ∀ endpoint ∈ endpoints, ∀ other ∈ endpoints, endpoint.key = other.key → endpoint = other
  name : ∀ endpoint ∈ endpoints, ∀ other ∈ endpoints,
    endpoint.methodName = other.methodName → endpoint.key = other.key

/-- No file that is generated for the known endpoints has members for the new ones of a batch. -/
def LacksMembers (feature : Feature) (layers : Layers) (known batch : List Endpoint) : Prop :=
  ∀ endpoint ∈ batch, isNewTo known endpoint = true → ∀ source ∈ layers.sourceFiles,
    hasMember (source.part feature known).full (source.memberName endpoint) = false

/-- So it is for each of several batches, one after the other. -/
def LacksMembersAll (feature : Feature) (layers : Layers) (known : List Endpoint) :
    List (List Endpoint) → Prop
  | [] => True
  | batch :: more => LacksMembers feature layers known batch ∧
      LacksMembersAll feature layers (addNew known batch) more

variable {config : Config} {target : Target} {project name : Text} {layers : Layers}
  {known batch endpoints all : List Endpoint} {batches : List (List Endpoint)}
  {start tree third : Tree} {desk desk' : Desk} {content : Text} {endpoint : Endpoint}
  {outcome : Outcome} {items : List Item}

/-! ## Known and new endpoints -/

/-- No member is taken for present if the new endpoints are unclaimed and have method names of
their own. -/
theorem LacksMembers.of_unclaimed (hfeature : feature.Plain)
    (htitled : isTitled feature.pascal = true) (hknown : ∀ other ∈ known, other.Named)
    (hbatch : ∀ endpoint ∈ batch, isNewTo known endpoint = true → endpoint.Named ∧
      (∀ other ∈ known, other.methodName ≠ endpoint.methodName) ∧ Unclaimed known endpoint) :
    LacksMembers feature layers known batch := by
  intro endpoint hmem hnew source _
  obtain ⟨hnamed, hnames, hunclaimed⟩ := hbatch endpoint hmem hnew
  exact source.not_hasMember_full hfeature htitled hknown hnamed hnames hunclaimed

theorem isNewTo_eq_false_iff :
    isNewTo known endpoint = false ↔ ∃ other ∈ known, other.key = endpoint.key := by
  simp [isNewTo]

theorem addNew_subset (hknown : known ⊆ all) (hbatch : batch ⊆ all) : addNew known batch ⊆ all :=
  List.append_subset.2 ⟨hknown, fun _ hmem => hbatch (List.mem_filter.1 hmem).1⟩

theorem foldl_addNew (known : List Endpoint) (batches : List (List Endpoint)) :
    ∃ more, batches.foldl addNew known = known ++ more := by
  induction batches generalizing known with
  | nil => exact ⟨[], (List.append_nil known).symm⟩
  | cons batch batches ih =>
      obtain ⟨more, hmore⟩ := ih (addNew known batch)
      exact ⟨batch.filter (isNewTo known) ++ more, by
        rw [List.foldl_cons, hmore, addNew, List.append_assoc]⟩

namespace Coherent

variable (h : Coherent all)

include h

theorem subset (hsub : endpoints ⊆ all) : Coherent endpoints :=
  ⟨fun endpoint hmem => h.tame endpoint (hsub hmem),
    fun endpoint hmem other hother => h.key endpoint (hsub hmem) other (hsub hother),
    fun endpoint hmem other hother => h.name endpoint (hsub hmem) other (hsub hother)⟩

theorem mem_of_old (hknown : known ⊆ all) (hmem : endpoint ∈ all)
    (hold : isNewTo known endpoint = false) : endpoint ∈ known := by
  obtain ⟨other, hother, hkey⟩ := isNewTo_eq_false_iff.1 hold
  rwa [← h.key other (hknown hother) endpoint hmem hkey]

/-- Different keys make different method names. -/
theorem nodup_names (hkeys : (all.map (·.key)).Nodup) : (all.map (·.methodName)).Nodup := by
  rw [List.nodup_iff_pairwise_ne, List.pairwise_map] at hkeys ⊢
  exact hkeys.imp_of_mem fun hmem hother hne heq => hne (h.name _ hmem _ hother heq)

theorem noSlash : ∀ endpoint ∈ all, '/' ∉ endpoint.methodName := fun endpoint hmem =>
  (h.tame endpoint hmem).readable.methodName.consists.not_mem (by decide)

theorem placed (hbegins : target.Begins config start) : Placed target.feature all :=
  ⟨hbegins.name, .inl hbegins.models, h.noSlash⟩

end Coherent

/-! ## Questions below a missing folder -/

namespace Tree

theorem follow_append (tree : Tree) (here front rest : Path) :
    tree.follow here (front ++ rest) =
      tree.follow here front >>= fun place => tree.follow place rest := by
  induction front generalizing here with
  | nil => rfl
  | cons name front ih =>
      rw [List.cons_append, follow, follow]
      split
      · rfl
      · rfl
      · split
        · rfl
        · exact ih _

/-- Nothing stands below a folder that is missing, whatever the names are. -/
theorem has_of_missing {base rest : Path} {name : Text} (hbase : tree.Holds (.folder base))
    (hnone : tree.get? (base.resolve.enter name) = none) (hname : byteCount name ≤ nameLimit)
    (hsize : byteCount (Path.text (base ++ name :: rest)) ≤ pathLimit) :
    tree.has (base ++ name :: rest) = .ok false := by
  have hfollow : tree.follow [] base = .ok base.resolve := by
    obtain ⟨hfits, hpassed, -⟩ := find_eq_ok_iff.1 hbase.find
    exact follow_eq_ok_iff.2 ⟨hpassed, hfits.names, rfl⟩
  have hstep : tree.follow base.resolve (name :: rest) =
      tree.follow (base.resolve.enter name) rest := by
    have hget : tree.get? base.resolve = some .folder := hbase.get
    rw [follow, hget]
    exact if_neg (Nat.not_lt.2 hname)
  have hfound : ∀ place, tree.follow (base.resolve.enter name) rest = .ok place →
      tree.get? place = none := by
    intro place hplace
    cases rest with
    | nil => rwa [← Except.ok.inj hplace]
    | cons next rest =>
        rw [follow, hnone] at hplace
        cases hplace
  have hlong : tree.follow (base.resolve.enter name) rest ≠ .error .tooLong := by
    intro herror
    cases rest with
    | nil => cases herror
    | cons next rest =>
        rw [follow, hnone] at herror
        cases herror
  have hfind : tree.find (base ++ name :: rest) ≠ .error .tooLong ∧
      ∀ place, tree.find (base ++ name :: rest) = .ok place → tree.get? place = none := by
    rw [find]
    split
    · refine ⟨fun herror => ?_, fun place hplace => ?_⟩
      · cases herror
      · cases hplace
    · rw [if_neg (Nat.not_lt.2 hsize), follow_append, hfollow]
      change tree.follow base.resolve (name :: rest) ≠ _ ∧
        ∀ place, tree.follow base.resolve (name :: rest) = _ → _
      rw [hstep]
      exact ⟨hlong, hfound⟩
  rw [has, look]
  split
  · next place hplace => rw [hfind.2 place hplace]; rfl
  · next hplace => exact absurd hplace hfind.1
  · rfl

end Tree

/-! ## Stages -/

/-- The path of the service file is short enough for a file system, its names apart. -/
def Target.ServiceFits (target : Target) : Prop :=
  Tree.byteCount target.servicePath.text ≤ Tree.pathLimit

/-- In a project that lacked the feature, the tree is what generating it for known endpoints
leaves. -/
structure Config.Stage (config : Config) (target : Target) (start : Tree) (layers : Layers)
    (known : List Endpoint) (tree : Tree) : Prop where
  begins : target.Begins config start
  plain : target.feature.Plain
  found : config.target target.feature.project target.feature.name start = .ok target
  coherent : Coherent known
  ne_nil : known ≠ []
  showable : layers.data = true → known.all (·.hasShowableModels) = true
  grown : config.Grown target start (target.fullItems known layers) tree

/-- A batch follows known endpoints: the new ones are not yet members of any file. -/
structure Target.Follows (target : Target) (layers : Layers) (known batch : List Endpoint) :
    Prop where
  coherent : Coherent (known ++ batch)
  keys : (batch.map (·.key)).Nodup
  lacks : LacksMembers target.feature layers known batch

theorem Target.Follows.batch_coherent (h : target.Follows layers known batch) : Coherent batch :=
  h.coherent.subset (List.subset_append_right _ _)

theorem Target.Follows.addNew_coherent (h : target.Follows layers known batch) :
    Coherent (addNew known batch) :=
  h.coherent.subset
    (addNew_subset (List.subset_append_left _ _) (List.subset_append_right _ _))

namespace Config.Stage

section

variable (h : config.Stage target start layers known tree)

include h

theorem placed : Placed target.feature known := h.coherent.placed h.begins

theorem sound : tree.Sound := h.grown.sound h.begins.lacks.sound

theorem holds_folder : tree.Holds (.folder (config.featurePath target.feature.name)) :=
  h.begins.folder ▸ h.grown.folder

/-- A later run finds the feature under the same target. -/
theorem target_eq :
    config.target target.feature.project target.feature.name tree = .ok target := by
  obtain ⟨hasModels, hmodels, -⟩ := Config.target_eq_ok_iff.1 h.found
  exact h.grown.target_eq_of_models h.begins (Config.fits_modelsPath h.holds_folder.fits hmodels)

/-- Nothing has been made for the data layer if it is left out. -/
theorem lacks_data (hdata : layers.data = false) :
    target.Lacks (target.fullItems known layers) .data := by
  intro item hitem layer row hown heq
  obtain ⟨layer', row', hlayer, hown'⟩ := owns_fullItems h.placed h.begins.models hitem
  rw [(hown'.unique hown rfl).1, heq] at hlayer
  have hincludes : layers.data = true := hlayer
  rw [hdata] at hincludes
  cases hincludes

theorem readService_of_data (hdata : layers.data = true) :
    target.readService tree = .ok (ClassFile.service.render target.feature known) := by
  have hfed : Consists isFed (ClassFile.service.render target.feature known) :=
    ClassFile.service.fed_render h.plain.toFed fun endpoint hmem =>
      (h.coherent.tame endpoint hmem).fed
  rw [target.readService_of_holds (h.grown.holds (serviceItem_mem_fullItems hdata)),
    universalNewlines_of_not_mem hfed.no_return]

/-- Where the data layer is left out, no service file is there. -/
theorem content_eq_nil (hdata : layers.data = false)
    (hcontent : target.readService tree = .ok content) : content = [] := by
  have hnone : tree.get? target.servicePath.resolve = none :=
    h.grown.get?_of_lacks h.begins (own_source h.begins.name (.ofClass .service))
      (h.lacks_data hdata)
  rw [Target.readService] at hcontent
  split at hcontent
  · cases hcontent
  · next hhas =>
    have hsome := (Tree.has_eq_true_iff.1 hhas).2
    rw [hnone] at hsome
    cases hsome
  · exact (Except.ok.inj hcontent).symm

/-- The service file can be read, or is seen to be missing. -/
theorem exists_readService (hsize : target.ServiceFits) :
    ∃ content, target.readService tree = .ok content := by
  cases hdata : layers.data with
  | true => exact ⟨_, h.readService_of_data hdata⟩
  | false =>
      have hplain : ∀ name ∈ [("data" : Text)], name ≠ [] ∧ name ≠ upName := by decide
      have hnone : tree.get? (target.folder.resolve.enter "data") = none := by
        have henter : target.folder.resolve.enter "data" =
            target.folder.resolve ++ [("data" : Text)] := Path.foldl_enter_of_plain hplain _
        rw [henter]
        have hrow : [("data" : Text)].head? = some Layer.data.folder := rfl
        refine h.grown.get?_eq_none h.begins hrow
          fun item hitem layer row hown hpre => h.lacks_data hdata item hitem layer row hown ?_
        obtain ⟨rel, -, hrel⟩ := hown
        obtain ⟨rest, rfl⟩ := hpre
        have hhead : some Layer.data.folder = some layer.folder := hrel.head
        exact (Layer.folder_injective (Option.some.inj hhead)).symm
      have hhas : tree.has target.servicePath = .ok false := by
        rw [Target.ServiceFits, Target.servicePath_eq h.begins.name] at hsize
        rw [Target.servicePath_eq h.begins.name]
        exact Tree.has_of_missing h.grown.folder hnone (by decide) hsize
      rw [Target.readService, hhas]
      exact ⟨_, rfl⟩

/-- The new endpoints of a batch are taken in, and the others with them where there is no service
file. -/
theorem admitted_eq (hcontent : target.readService tree = .ok content)
    (hfollows : target.Follows layers known batch) :
    (target.admission content batch).admitted =
      if layers.data then batch.filter (isNewTo known) else batch := by
  have hnames := hfollows.batch_coherent.nodup_names hfollows.keys
  cases hdata : layers.data with
  | true =>
      have hread : ∀ endpoint ∈ known, endpoint.Readable := fun endpoint hmem =>
        (h.coherent.tame endpoint hmem).readable
      have hfresh : freshEndpoints content batch = batch.filter (isNewTo known) := by
        rw [← Except.ok.inj ((h.readService_of_data hdata).symm.trans hcontent), freshEndpoints,
          annotatedKeys_render h.plain hread]
        rfl
      rw [Target.admission, admitted_eq_filter _ _ hnames, hfresh, if_pos rfl,
        List.filter_eq_self]
      intro endpoint hmem
      obtain ⟨hbatch, hnew⟩ := List.mem_filter.1 hmem
      have hservice : SourceFile.ofClass .service ∈ layers.sourceFiles := by
        rw [Layers.sourceFiles, if_pos hdata]
        exact List.mem_append_left _ (List.mem_append_left _ List.mem_cons_self)
      have hmember : hasMember (ClassFile.service.render target.feature known)
          endpoint.methodName = false := hfollows.lacks endpoint hbatch hnew _ hservice
      rw [← Except.ok.inj ((h.readService_of_data hdata).symm.trans hcontent), hmember]
      rfl
  | false =>
      obtain rfl := h.content_eq_nil hdata hcontent
      exact admitted_of_nil _ hnames fun endpoint hmem =>
        (hfollows.batch_coherent.tame endpoint hmem).named

/-- What extending takes in makes the feature grow by the new endpoints. -/
theorem grows (hfollows : target.Follows layers known batch) {admitted : List Endpoint}
    (hadmitted : admitted = if layers.data then batch.filter (isNewTo known) else batch) :
    target.Grows layers known admitted (isNewTo known) ∧
      admitted.filter (isNewTo known) = batch.filter (isNewTo known) := by
  have hsub : admitted ⊆ batch := by
    rw [hadmitted]
    split
    · exact fun _ hmem => (List.mem_filter.1 hmem).1
    · exact List.Subset.refl _
  refine ⟨⟨h.plain, h.coherent.tame, fun endpoint hmem =>
    hfollows.batch_coherent.tame endpoint (hsub hmem), h.ne_nil, fun endpoint hmem hold => ?_,
    fun endpoint hmem => hfollows.lacks endpoint (hsub hmem)⟩, ?_⟩
  · exact hfollows.coherent.mem_of_old (List.subset_append_left _ _)
      (List.mem_append_right _ (hsub hmem)) hold
  · rw [hadmitted]
    split
    · rw [List.filter_filter]
      simp
    · rfl

end

/-- Extending the feature by a batch takes it to the known and the new endpoints. -/
theorem of_append (h : config.Stage target start layers known desk.tree)
    (hfollows : target.Follows layers known batch)
    (hrun : (generateAppend config target.feature.project target.feature.name batch layers).runOn
      desk = (.ok outcome, desk')) :
    config.Stage target start layers (addNew known batch) desk'.tree := by
  obtain ⟨target', content, htarget, hcontent, -, hcases⟩ := generateAppend_makes h.begins.name
    hfollows.batch_coherent.noSlash h.sound h.holds_folder hrun
  obtain rfl : target = target' := Except.ok.inj (h.target_eq.symm.trans htarget)
  have hadmitted := h.admitted_eq hcontent hfollows
  generalize (target.admission content batch).admitted = admitted at hadmitted hcases
  obtain ⟨hgrows, hfilter⟩ := h.grows hfollows hadmitted
  rcases hcases with ⟨hempty, htree, -⟩ | ⟨-, ⟨middle, hextended⟩, -, -⟩
  · have hsame : addNew known batch = known := by
      rw [addNew, ← hfilter, hempty, List.filter_nil, List.append_nil]
    rwa [hsame, htree]
  · have hplaced : Placed target.feature admitted :=
      ⟨h.begins.name, .inl h.begins.models, fun endpoint hmem =>
        (hgrows.batch_tame endpoint hmem).readable.methodName.consists.not_mem (by decide)⟩
    have hgrown : config.Grown target start (target.fullItems (addNew known batch) layers)
        desk'.tree := by
      rw [addNew, ← hfilter]
      refine hgrows.grown h.begins h.grown h.placed hplaced ?_ (hextended.makes h.grown.has)
      rw [hfilter]
      exact hfollows.addNew_coherent.placed h.begins
    refine ⟨h.begins, h.plain, h.found, hfollows.addNew_coherent,
      List.append_ne_nil_of_left_ne_nil h.ne_nil _, fun hdata => ?_, hgrown⟩
    have hshowable := hextended.showable hdata
    rw [hadmitted, if_pos hdata] at hshowable
    rw [addNew, List.all_append, h.showable hdata, hshowable]
    rfl

/-- Below a tree that has what is to be made, extending the feature by a batch returns. -/
theorem append_returns (h : config.Stage target start layers known desk.tree)
    (hfollows : target.Follows layers known batch) (hsize : target.ServiceFits)
    (hbelow : desk.tree.Below third)
    (hlike : ∀ item ∈ target.fullItems (addNew known batch) layers, third.HasLike item)
    (hshowable : layers.data = true →
      (addNew known batch).all (·.hasShowableModels) = true) :
    ∃ outcome desk', (generateAppend config target.feature.project target.feature.name batch
      layers).runOn desk = (.ok outcome, desk') := by
  obtain ⟨content, hcontent⟩ := h.exists_readService hsize
  have hadmitted := h.admitted_eq hcontent hfollows
  by_cases hempty : (target.admission content batch).admitted = []
  · obtain ⟨outcome, desk', hrun, -⟩ := generateAppend_idle h.target_eq hcontent hempty
    exact ⟨outcome, desk', hrun⟩
  obtain ⟨hgrows, hfilter⟩ := h.grows hfollows hadmitted
  refine generateAppend_runOn h.begins.name hfollows.batch_coherent.noSlash h.sound h.holds_folder
    h.target_eq hcontent hempty hbelow (fun hdata => ?_) (fun slot hslot => ?_)
    fun middle hmiddle => .inl (hmiddle.below.has h.grown.has)
  · have hall := hshowable hdata
    rw [addNew, List.all_append, Bool.and_eq_true] at hall
    rw [hadmitted, if_pos hdata]
    exact hall.2
  · refine hgrows.allows h.grown hbelow (fun item hitem => hlike item ?_) hslot
    rwa [addNew, ← hfilter]

end Config.Stage

/-! ## Runs -/

/-- The batches follow one after the other. -/
def Target.FollowsAll (target : Target) (layers : Layers) (known : List Endpoint) :
    List (List Endpoint) → Prop
  | [] => True
  | batch :: more => target.Follows layers known batch ∧
      target.FollowsAll layers (addNew known batch) more

theorem generateBatches_cons
    (h : (generate config project name batch layers .append).runOn desk = (.ok outcome, desk')) :
    (generateBatches config project name (batch :: batches) layers).runOn desk =
      (generateBatches config project name batches layers).runOn desk' := by
  have hfirst : (generate config project name batch layers .append >>= fun _ =>
      pure ()).runOn desk = (.ok (), desk') := Work.runOn_bind_of_ok h
  exact Work.runOn_bind_of_ok hfirst

theorem exists_of_generateBatches {result : Unit}
    (h : (generateBatches config project name (batch :: batches) layers).runOn desk =
      (.ok result, desk')) :
    ∃ outcome middle, (generate config project name batch layers .append).runOn desk =
        (.ok outcome, middle) ∧
      (generateBatches config project name batches layers).runOn middle = (.ok (), desk') := by
  obtain ⟨⟨⟩, middle, hfirst, hrest⟩ := Work.runOn_bind_eq_ok.1 h
  obtain ⟨outcome, ran, hrun, hlast⟩ := Work.runOn_bind_eq_ok.1 hfirst
  obtain ⟨-, rfl⟩ := Prod.mk.injEq .. ▸ hlast
  exact ⟨outcome, ran, hrun, hrest⟩

namespace Config.Stage

/-- A run on a batch that returns takes the feature to the known and the new endpoints. -/
theorem of_generate (h : config.Stage target start layers known desk.tree)
    (hfollows : target.Follows layers known batch)
    (hrun : (generate config target.feature.project target.feature.name batch layers
      .append).runOn desk = (.ok outcome, desk')) :
    config.Stage target start layers (addNew known batch) desk'.tree := by
  obtain ⟨-, ⟨hexists | ⟨-, haction⟩, -⟩ | ⟨-, hrun⟩ | ⟨⟨-, haction⟩, -⟩⟩ := generate_eq_ok hrun
  · rw [h.grown.featureExists h.begins] at hexists
    cases hexists
  · cases haction
  · exact h.of_append hfollows hrun
  · cases haction

/-- Runs on batches that return take the feature to the endpoints of all batches. -/
theorem of_batches (h : config.Stage target start layers known desk.tree)
    (hfollows : target.FollowsAll layers known batches)
    (hrun : (generateBatches config target.feature.project target.feature.name batches
      layers).runOn desk = (.ok (), desk')) :
    config.Stage target start layers (batches.foldl addNew known) desk'.tree := by
  induction batches generalizing known desk with
  | nil =>
      obtain ⟨-, rfl⟩ := Prod.mk.injEq .. ▸ hrun
      exact h
  | cons batch batches ih =>
      obtain ⟨outcome, middle, hfirst, hrest⟩ := exists_of_generateBatches hrun
      exact ih (h.of_generate hfollows.1 hfirst) hfollows.2 hrest

/-- A later stage has what is made for fewer endpoints. -/
theorem hasLike {more : List Endpoint}
    (h : config.Stage target start layers (known ++ more) third) {item : Item}
    (hitem : item ∈ target.fullItems known layers) : third.HasLike item := by
  obtain ⟨made, hmade, -, hlike⟩ := exists_mem_fullItems_append more hitem
  exact hlike third (h.grown.holds hmade).hasLike

theorem showable_left {more : List Endpoint}
    (h : config.Stage target start layers (known ++ more) third) (hdata : layers.data = true) :
    known.all (·.hasShowableModels) = true := by
  have hall := h.showable hdata
  rw [List.all_append, Bool.and_eq_true] at hall
  exact hall.1

/-- Below the stage of all endpoints, the runs on the batches return. -/
theorem batches_return (h : config.Stage target start layers known desk.tree)
    (hfollows : target.FollowsAll layers known batches) (hne : ∀ batch ∈ batches, batch ≠ [])
    (hchecked : config.checkName target.feature.name = .ok ()) (hany : layers.any = true)
    (hsize : target.ServiceFits)
    (hthird : config.Stage target start layers (batches.foldl addNew known) third) :
    ∃ desk', (generateBatches config target.feature.project target.feature.name batches
      layers).runOn desk = (.ok (), desk') := by
  induction batches generalizing known desk with
  | nil => exact ⟨desk, rfl⟩
  | cons batch batches ih =>
      obtain ⟨hbatch, hne⟩ := List.forall_mem_cons.1 hne
      obtain ⟨later, hlater⟩ := foldl_addNew (addNew known batch) batches
      have hnext : config.Stage target start layers (addNew known batch ++ later) third :=
        hlater ▸ hthird
      have hall : config.Stage target start layers
          (known ++ (batch.filter (isNewTo known) ++ later)) third := by
        rw [← List.append_assoc]
        exact hnext
      have hbelow : desk.tree.Below third :=
        h.grown.below_of hthird.grown fun item hitem => hall.hasLike hitem
      obtain ⟨outcome, middle, hrun⟩ := h.append_returns hfollows.1 hsize hbelow
        (fun item hitem => hnext.hasLike hitem) hnext.showable_left
      have hcheck := checkRun_eq_ok.2 ⟨hchecked, hany, hbatch⟩
      have hgenerate := generate_of_present hcheck (h.grown.featureExists h.begins) hrun
      obtain ⟨desk', hrest⟩ :=
        ih (h.of_generate hfollows.1 hgenerate) hfollows.2 hne hthird
      exact ⟨desk', (generateBatches_cons hgenerate).trans hrest⟩

end Config.Stage

/-- The layers make files or folders. -/
def Layers.makesAny (layers : Layers) : Bool :=
  layers.data || layers.domain || layers.presentation &&
    (layers.components.bloc || layers.components.screens || layers.components.widgets)

theorem fullItems_ne_nil_of_makesAny (h : layers.makesAny = true) (target : Target)
    (endpoints : List Endpoint) : target.fullItems endpoints layers ≠ [] := by
  intro hnil
  rw [Target.fullItems, List.append_eq_nil_iff, Target.folderItems, Target.fileItems,
    List.map_eq_nil_iff, List.map_eq_nil_iff] at hnil
  obtain ⟨hfolders, hfiles⟩ := hnil
  obtain ⟨data, domain, presentation, bloc, screens, widgets⟩ := layers
  simp only [featureFolders, dataFolders, domainFolders, featureFiles, List.append_eq_nil_iff,
    ite_eq_right_iff, reduceCtorEq, imp_false, Bool.not_eq_true] at hfolders hfiles
  simp_all [Layers.makesAny, fullFiles]

/-- In a project without the feature, a run that returns generates it in full. -/
theorem Config.Lacks.full_of_generate {action : ExistsAction} (hstart : config.Lacks name desk.tree)
    (hrun : (generate config project name endpoints layers action).runOn desk =
      (.ok outcome, desk')) :
    config.featureExists name desk.tree = .ok false ∧
      (generateFull config project name endpoints layers).runOn desk = (.ok outcome, desk') := by
  have habsent : config.featureExists name desk.tree ≠ .ok true := fun hexists =>
    hstart.absent (Tree.hasFolder_eq_true_iff.1 hexists).2
  obtain ⟨-, ⟨hexists | ⟨hexists, -⟩, hfull⟩ | ⟨⟨hexists, -⟩, -⟩ | ⟨⟨hexists, -⟩, -⟩⟩ :=
    generate_eq_ok hrun
  · exact ⟨hexists, hfull⟩
  all_goals exact absurd hexists habsent

/-- The first run, in a project without the feature. -/
theorem Config.Stage.of_first {action : ExistsAction} (hstart : config.Lacks name desk.tree)
    (hproject : AsciiWordy project) (hword : AsciiWordy name) (hcoherent : Coherent endpoints)
    (hmakes : layers.makesAny = true)
    (hrun : (generate config project name endpoints layers action).runOn desk =
      (.ok outcome, desk')) :
    config.Stage (config.freshTarget project name) desk.tree layers endpoints desk'.tree := by
  obtain ⟨hchecked, -, hne⟩ := checkRun_eq_ok.1 (generate_eq_ok hrun).1
  have hname := FeatureName.of_isFeatureName (Config.isFeatureName_of_checkName hchecked)
  obtain ⟨hbegins, hfound, hshowable, hgrown⟩ := generateFull_first hstart hname
    hcoherent.noSlash (fullItems_ne_nil_of_makesAny hmakes _ _) (hstart.full_of_generate hrun).2
  exact ⟨hbegins, Config.plain_of_target hproject hword hfound, hfound, hcoherent, hne, hshowable,
    hgrown⟩

/-! ## Layers that make nothing -/

section

variable (hidle : layers.makesAny = false)

include hidle

theorem not_data_of_idle : ¬ layers.data = true := by
  intro hdata
  rw [Layers.makesAny, hdata] at hidle
  cases hidle

theorem features_of_idle (feature : Feature) (endpoints : List Endpoint) :
    featureFiles feature endpoints layers = [] ∧ featureFolders feature layers = [] := by
  obtain ⟨data, domain, presentation, bloc, screens, widgets⟩ := layers
  simp only [Layers.makesAny, Bool.or_eq_false_iff, Bool.and_eq_false_iff] at hidle
  obtain ⟨⟨rfl, rfl⟩, rfl | ⟨⟨rfl, rfl⟩, rfl⟩⟩ := hidle
  · exact ⟨rfl, rfl⟩
  · cases presentation <;> exact ⟨rfl, rfl⟩

theorem appendLayers_of_idle (target : Target) (endpoints : List Endpoint) (desk : Desk) :
    ∃ report, (appendLayers target endpoints layers).runOn desk = (.ok report, desk) := by
  obtain ⟨data, domain, presentation, bloc, screens, widgets⟩ := layers
  simp only [Layers.makesAny, Bool.or_eq_false_iff, Bool.and_eq_false_iff] at hidle
  obtain ⟨⟨rfl, rfl⟩, rfl | ⟨⟨rfl, rfl⟩, rfl⟩⟩ := hidle
  · exact ⟨_, rfl⟩
  · cases presentation <;> exact ⟨_, rfl⟩

/-- A full generation that makes nothing but the errors is the same for all endpoints. -/
theorem generateFull_of_idle (others : List Endpoint)
    (hrun : (generateFull config project name endpoints layers).runOn desk = (.ok outcome, desk')) :
    ∃ outcome' other, (generateFull config project name others layers).runOn desk =
        (.ok outcome', other) ∧ other.tree = desk'.tree ∧
      desk'.tree.has config.errorUnionPath = .ok true := by
  obtain ⟨target, asked, hask, hrest⟩ := Work.runOn_bind_eq_ok.1 hrun
  obtain ⟨⟨⟩, said, hsay, hrest⟩ := Work.runOn_bind_eq_ok.1 hrest
  dsimp only at hrest
  rw [if_neg (not_data_of_idle hidle), (features_of_idle hidle _ _).1,
    (features_of_idle hidle target.feature []).2] at hrest
  obtain ⟨⟨⟩, made, hmade, hrest⟩ := Work.runOn_bind_eq_ok.1 hrest
  obtain ⟨⟨⟩, written, hwritten, hrest⟩ := Work.runOn_bind_eq_ok.1 hrest
  obtain ⟨⟨⟩, ensured, hensured, hlast⟩ := Work.runOn_bind_eq_ok.1 hrest
  have htree : desk'.tree = ensured.tree := (congrArg (·.2.tree) hlast).symm
  obtain ⟨-, hhas⟩ := ensureErrorUnion_makes hensured
  rw [generateFull, Work.runOn_bind_of_ok hask, Work.runOn_bind_of_ok hsay,
    if_neg (not_data_of_idle hidle), (features_of_idle hidle _ _).1,
    (features_of_idle hidle target.feature []).2, Work.runOn_bind_of_ok hmade,
    Work.runOn_bind_of_ok hwritten, Work.runOn_bind_of_ok hensured]
  exact ⟨_, _, rfl, htree.symm, htree ▸ hhas⟩

/-- Once the errors are there, a run leaves the tree as it is. -/
theorem keeps_of_idle (hhas : tree.has config.errorUnionPath = .ok true) (action : ExistsAction) :
    (generate config project name endpoints layers action).Keeps (· = tree) := by
  have herrors : (ensureErrorUnion config).Keeps (· = tree) := by
    refine .ask_bind fun asked known htree hknown => ?_
    rw [htree, hhas] at hknown
    obtain rfl := Except.ok.inj hknown
    exact .pure _
  have hservice : ∀ target : Target, (serviceText target).Keeps (· = tree) := by
    intro target desk hdesk
    rwa [serviceText_runOn]
  have hlayers : ∀ (target : Target) (admitted : List Endpoint),
      (appendLayers target admitted layers).Keeps (· = tree) := by
    intro target admitted desk hdesk
    obtain ⟨report, hrun⟩ := appendLayers_of_idle hidle target admitted desk
    rwa [hrun]
  have hfull : (generateFull config project name endpoints layers).Keeps (· = tree) := by
    refine .bind (.ask _) fun target => .bind (.say _) fun _ => ?_
    dsimp only
    rw [if_neg (not_data_of_idle hidle), (features_of_idle hidle _ _).1,
      (features_of_idle hidle target.feature []).2]
    exact .bind (.pure _) fun _ => .bind (.pure _) fun _ => .bind herrors fun _ =>
      .bind (.say _) fun _ => .pure _
  have hextend : (generateAppend config project name endpoints layers).Keeps (· = tree) := by
    refine .bind (.ask _) fun target => .bind (hservice target) fun content =>
      .bind (.forM fun _ _ => .warn _) fun _ => ?_
    dsimp only
    split
    · exact .bind (.say _) fun _ => .pure _
    · exact .bind (.say _) fun _ => .bind (hlayers target _) fun _ => .bind herrors fun _ =>
        .bind (.say _) fun _ => .pure _
  unfold generate
  split
  · exact .throw _
  · refine .bind (.adapt (.ask _) _) fun known => ?_
    split
    · exact .adapt hfull _
    · cases action with
      | append => exact .adapt hextend _
      | overwrite => exact .adapt hfull _
      | cancel => exact .bind (.say _) fun _ => .pure _

end

/-! ## All batches -/

/-- The batches of endpoints for which a feature is generated: a first one and more of them. -/
structure Batched (feature : Feature) (layers : Layers) (first : List Endpoint)
    (more : List (List Endpoint)) : Prop where
  coherent : Coherent (first ++ more.flatten)
  keys : ∀ batch ∈ first :: more, (batch.map (·.key)).Nodup
  ne_nil : ∀ batch ∈ first :: more, batch ≠ []
  lacks : LacksMembersAll feature layers first more

theorem Target.FollowsAll.of_lacks (hcoherent : Coherent (known ++ batches.flatten))
    (hkeys : ∀ batch ∈ batches, (batch.map (·.key)).Nodup)
    (hlacks : LacksMembersAll target.feature layers known batches) :
    target.FollowsAll layers known batches := by
  induction batches generalizing known with
  | nil => trivial
  | cons batch batches ih =>
      obtain ⟨hbatch, hkeys⟩ := List.forall_mem_cons.1 hkeys
      rw [List.flatten_cons, ← List.append_assoc] at hcoherent
      have hfirst : known ++ batch ⊆ known ++ batch ++ batches.flatten :=
        List.subset_append_left _ _
      refine ⟨⟨hcoherent.subset hfirst, hbatch, hlacks.1⟩, ih (hcoherent.subset ?_) hkeys hlacks.2⟩
      exact List.append_subset.2 ⟨List.Subset.trans (addNew_subset (List.subset_append_left _ _)
        (List.subset_append_right _ _)) hfirst, List.subset_append_right _ _⟩

theorem foldl_addNew_subset (known : List Endpoint) (batches : List (List Endpoint)) :
    batches.foldl addNew known ⊆ known ++ batches.flatten := by
  induction batches generalizing known with
  | nil => simp
  | cons batch batches ih =>
      rw [List.flatten_cons, ← List.append_assoc]
      have hfirst : known ++ batch ⊆ known ++ batch ++ batches.flatten :=
        List.subset_append_left _ _
      refine List.Subset.trans (ih (addNew known batch)) (List.append_subset.2 ⟨?_,
        List.subset_append_right _ _⟩)
      exact List.Subset.trans (addNew_subset (List.subset_append_left _ _)
        (List.subset_append_right _ _)) hfirst

theorem foldl_addNew_ne_nil (hne : known ≠ []) (batches : List (List Endpoint)) :
    batches.foldl addNew known ≠ [] := by
  obtain ⟨more, hmore⟩ := foldl_addNew known batches
  rw [hmore]
  exact List.append_ne_nil_of_left_ne_nil hne _

/-- Generating a feature batch by batch leaves the tree that one run for all endpoints leaves, an
endpoint whose key has come before left out. The runs on the batches return if the one run does; if
the layers make nothing but the errors, they may fail behind it, and nothing changes. The one run
returns if the runs on the batches do. -/
theorem generateBatches_eq_generate {first : List Endpoint} {more : List (List Endpoint)}
    {action : ExistsAction} (hstart : config.Lacks name desk.tree) (hproject : AsciiWordy project)
    (hword : AsciiWordy name)
    (hbatched : Batched (config.freshTarget project name).feature layers first more)
    (hsize : (config.freshTarget project name).ServiceFits) :
    (∀ outcome single, (generate config project name (more.foldl addNew first) layers
        action).runOn desk = (.ok outcome, single) →
      (layers.makesAny = true → ∃ grown, (generateBatches config project name (first :: more)
        layers).runOn desk = (.ok (), grown)) ∧
      ∀ place, ((generateBatches config project name (first :: more) layers).runOn
        desk).2.tree.get? place = single.tree.get? place) ∧
    ∀ grown, (generateBatches config project name (first :: more) layers).runOn desk =
        (.ok (), grown) →
      ∃ outcome single, (generate config project name (more.foldl addNew first) layers
        action).runOn desk = (.ok outcome, single) := by
  have hfirst : Coherent first := hbatched.coherent.subset (List.subset_append_left _ _)
  have hall : Coherent (more.foldl addNew first) :=
    hbatched.coherent.subset (foldl_addNew_subset first more)
  obtain ⟨hne, hmore⟩ := List.forall_mem_cons.1 hbatched.ne_nil
  have hfollows := Target.FollowsAll.of_lacks hbatched.coherent
    (List.forall_mem_cons.1 hbatched.keys).2 hbatched.lacks
  obtain ⟨later, hlater⟩ := foldl_addNew first more
  cases hmakes : layers.makesAny with
  | true =>
      refine ⟨fun outcome single hsingle => ?_, fun grown hgrown => ?_⟩
      · have hwhole := Config.Stage.of_first hstart hproject hword hall hmakes hsingle
        have hfirstIn : config.Stage (config.freshTarget project name) desk.tree layers
            (first ++ later) single.tree := hlater ▸ hwhole
        obtain ⟨hchecked, hany, -⟩ := checkRun_eq_ok.1 (generate_eq_ok hsingle).1
        obtain ⟨started, middle, hrun, -⟩ := hwhole.grown.full_run hwhole.begins hwhole.found
          (checkRun_eq_ok.2 ⟨hchecked, hany, hne⟩) hfirst.noSlash hfirstIn.showable_left
          (fun item hitem => hfirstIn.hasLike hitem) (fullItems_ne_nil_of_makesAny hmakes _ _)
        have hstage := Config.Stage.of_first hstart hproject hword hfirst hmakes hrun
        obtain ⟨grown, hrest⟩ := hstage.batches_return hfollows hmore hchecked hany hsize hwhole
        have hgrown := hstage.of_batches hfollows hrest
        have hruns : (generateBatches config project name (first :: more) layers).runOn desk =
            (.ok (), grown) := (generateBatches_cons hrun).trans hrest
        rw [hruns]
        exact ⟨fun _ => ⟨grown, rfl⟩,
          hgrown.grown.makes.agree hwhole.grown.makes fun _ => Iff.rfl⟩
      · obtain ⟨started, middle, hrun, hrest⟩ := exists_of_generateBatches hgrown
        have hstage := Config.Stage.of_first hstart hproject hword hfirst hmakes hrun
        have hwhole := hstage.of_batches hfollows hrest
        obtain ⟨hchecked, hany, -⟩ := checkRun_eq_ok.1 (generate_eq_ok hrun).1
        obtain ⟨outcome, single, hsingle, -⟩ := hwhole.grown.full_run hwhole.begins hwhole.found
          (checkRun_eq_ok.2 ⟨hchecked, hany, hwhole.ne_nil⟩) hall.noSlash hwhole.showable
          (fun item hitem => (hwhole.grown.holds hitem).hasLike)
          (fullItems_ne_nil_of_makesAny hmakes _ _)
        exact ⟨outcome, single, hsingle⟩
  | false =>
      -- the errors shared by all features are all that is made, by the first run
      refine ⟨fun outcome single hsingle => ⟨nofun, fun place => ?_⟩, fun grown hgrown => ?_⟩
      · obtain ⟨hexists, hfull⟩ := hstart.full_of_generate hsingle
        obtain ⟨hchecked, hany, -⟩ := checkRun_eq_ok.1 (generate_eq_ok hsingle).1
        obtain ⟨started, middle, hrun, htree, hhas⟩ := generateFull_of_idle hmakes first hfull
        have hcheck := checkRun_eq_ok.2 ⟨hchecked, hany, hne⟩
        rw [generateBatches_cons (generate_of_absent hcheck hexists hrun)]
        have hkeeps : (generateBatches config project name more layers).Keeps (· = middle.tree) :=
          .forM fun _ _ => .bind (keeps_of_idle hmakes (htree ▸ hhas) _) fun _ => .pure _
        rw [hkeeps middle rfl, htree]
      · obtain ⟨started, middle, hrun, -⟩ := exists_of_generateBatches hgrown
        obtain ⟨hexists, hfull⟩ := hstart.full_of_generate hrun
        obtain ⟨hchecked, hany, -⟩ := checkRun_eq_ok.1 (generate_eq_ok hrun).1
        obtain ⟨outcome, single, hsingle, -⟩ :=
          generateFull_of_idle hmakes (more.foldl addNew first) hfull
        exact ⟨outcome, single, generate_of_absent
          (checkRun_eq_ok.2 ⟨hchecked, hany, foldl_addNew_ne_nil hne more⟩) hexists hsingle⟩

/-- The batches of a feature that grows by one endpoint, the known one coming again. -/
def growingBatches : List (List Endpoint) := [[bareGet "/users", itemEndpoint]]

theorem tame_growing : ∀ endpoint ∈ [bareGet "/users", itemEndpoint], endpoint.Tame := by
  have htame : ∀ endpoint : Endpoint, endpoint.Readable → '\'' ∉ endpoint.path →
      Text.Avoids "package:" endpoint.path → endpoint.methodName ≠ [] → endpoint.Tame :=
    fun endpoint hreadable hquote hpackage hname =>
      ⟨⟨hreadable.toPlain, hquote, hpackage⟩, hreadable, hname⟩
  refine List.forall_mem_cons.2 ⟨htame _ bareGet_detectable.toReadable (by decide)
    (by decide +kernel) (by decide), List.forall_mem_singleton.2 ?_⟩
  exact htame _ itemEndpoint_detectable.toReadable (by decide) (by decide +kernel) (by decide)

theorem lacksMembers_growing : LacksMembersAll ⟨"shop", "news", "model"⟩ {} [bareGet "/users"]
    growingBatches := by
  have husers : (bareGet "/users").Named :=
    ⟨bareGet_detectable.toPlain, by decide, List.forall_mem_nil _⟩
  refine ⟨.of_unclaimed ⟨by decide, by decide, by decide⟩ (by decide)
    (List.forall_mem_singleton.2 husers) fun endpoint hmem hnew => ?_, trivial⟩
  rcases List.mem_pair.1 hmem with rfl | rfl
  · exact absurd hnew (by decide)
  · exact ⟨named_item, by decide, ⟨by decide, by decide, by decide, by decide +kernel⟩⟩

theorem batched_growing : Batched ⟨"shop", "news", "model"⟩ {} [bareGet "/users"]
    growingBatches where
  coherent := by
    have hsub : [bareGet "/users"] ++ growingBatches.flatten ⊆
        [bareGet "/users", itemEndpoint] := by
      simp [growingBatches]
    have hkeys : ([bareGet "/users", itemEndpoint].map (·.key)).Nodup := by decide
    have hnames : ([bareGet "/users", itemEndpoint].map (·.methodName)).Nodup := by decide
    exact Coherent.subset ⟨tame_growing,
      fun endpoint hmem other hother => List.inj_on_of_nodup_map hkeys hmem hother,
      fun endpoint hmem other hother heq =>
        congrArg (·.key) (List.inj_on_of_nodup_map hnames hmem hother heq)⟩ hsub
  keys := by decide
  ne_nil := by decide
  lacks := lacksMembers_growing

theorem growing_returns : returns ((generate {} "shop" "news" [bareGet "/users",
    itemEndpoint]).runOn ⟨{}, []⟩) = true := by
  decide +kernel

/-- One endpoint, and another one behind it. -/
theorem generateBatches_growing : ∃ outcome single grown,
    (generate {} "shop" "news" [bareGet "/users", itemEndpoint]).runOn ⟨{}, []⟩ =
        (.ok outcome, single) ∧
      (generateBatches {} "shop" "news" ([bareGet "/users"] :: growingBatches) {}).runOn ⟨{}, []⟩ =
        (.ok (), grown) ∧
      ∀ place, grown.tree.get? place = single.tree.get? place := by
  obtain ⟨outcome, single, hsingle⟩ := exists_of_returns growing_returns
  obtain ⟨hruns, -⟩ := @generateBatches_eq_generate {} "shop" "news" {} ⟨{}, []⟩ [bareGet "/users"]
    growingBatches .append lacks_news (by decide) (by decide) batched_growing
    (Nat.le_of_ble_eq_true rfl)
  obtain ⟨hreturns, hagree⟩ := hruns outcome single hsingle
  obtain ⟨grown, hgrown⟩ := hreturns rfl
  rw [hgrown] at hagree
  exact ⟨outcome, single, grown, hsingle, hgrown, hagree⟩

end Scaffold
