import Scaffold.Proofs.Patch.AnnotationPlaces
import Scaffold.Proofs.Patch.Completion
import Scaffold.Proofs.Project.Detection
import Scaffold.Proofs.Project.Repetition
import Scaffold.Proofs.Project.Surroundings

/-!
# Extending a feature twice

Extending a feature a second time by the same endpoints changes nothing (`generate_twice`). Where the
first run has changed the service file, that file has a member for every endpoint or annotates it, so
that none is taken in again; where it has not, the same endpoints are taken in, and all files rest.
-/

namespace Scaffold

variable {target : Target} {config : Config} {feature : Feature} {endpoints admitted : List Endpoint}
  {layers : Layers} {project name content text : Text} {desk desk' : Desk} {tree middle other : Tree}
  {slot : Slot} {outcome : Outcome}

/-! ## Slots at rest -/

/-- The files of a feature that has been found can be extended without tearing anything apart: lines
with imports end with semicolons, and in the service file no annotation goes on behind the place of
the imports or behind the last brace. -/
structure Config.Orderly (config : Config) (name : Text) (layers : Layers) (tree : Tree) : Prop where
  imports : ∀ source ∈ layers.sourceFiles, ∀ text,
    tree.get? ((config.featurePath name).join (source.path name)).resolve =
      some (.file (.text text)) → EndsImports (universalNewlines text)
  service : ∀ text,
    tree.get? (config.servicePath name).resolve = some (.file (.text text)) →
    EndsQuotes (universalNewlines text) ∧ HasWholeAnnotations (universalNewlines text)

theorem Part.update_eq_none_of_rests {part : Part} (h : part.Rests text) :
    part.update (universalNewlines text) = none := by
  rw [Part.update, h]
  simp

theorem Part.extend_of_update {part : Part} (h : part.update content = some text) :
    part.extend content = .ok text := by
  rw [Part.update] at h
  split at h
  · next hextend =>
    split at h
    · cases h
    · rw [hextend, Option.some.inj h]
  · cases h

/-- The slot of a source file rests. -/
theorem SourceFile.rests_slot (source : SourceFile) (hfeature : feature.Plain)
    (hplain : ∀ endpoint ∈ admitted, endpoint.Plain)
    (hnames : ∀ endpoint ∈ admitted, endpoint.methodName ≠ []) (hne : admitted ≠ [])
    {entry : Option Entry} (hends : ∀ text, entry = some (.file (.text text)) →
      EndsImports (universalNewlines text)) :
    (source.part feature admitted).slot.Rests entry := by
  intro text htext
  refine Part.update_eq_none_of_rests ?_
  match entry, hends, htext with
  | none, _, htext =>
      rw [← Option.some.inj htext]
      exact source.rests_full feature hplain hnames hne
  | some (.file (.text old)), hends, htext =>
      exact source.rests_extend hfeature hplain hnames (hends old rfl)
        (Part.extend_of_update htext)

/-- All slots rest. -/
theorem Config.Orderly.rests (h : config.Orderly name layers tree)
    (htarget : config.target project name tree = .ok target) (hfeature : target.feature.Plain)
    (hplain : ∀ endpoint ∈ admitted, endpoint.Plain)
    (hnames : ∀ endpoint ∈ admitted, endpoint.methodName ≠ []) (hne : admitted ≠ []) :
    ∀ slot ∈ appendSlots target.feature admitted layers,
      slot.Rests (tree.get? (slot.place target)) := by
  intro slot hslot
  rcases mem_appendSlots.1 hslot with hslot | hslot | hslot
  · obtain ⟨part, hpart, rfl⟩ := List.mem_map.1 hslot
    obtain ⟨source, hsource, rfl⟩ := mem_extendedParts.1 hpart
    refine source.rests_slot hfeature hplain hnames hne fun text htext => ?_
    refine h.imports source hsource text ?_
    obtain ⟨hname, hfolder⟩ := Config.name_of_target htarget
    have hpath : (source.part target.feature admitted).slot.path = source.path name := by
      rw [← hname]
      exact source.part_path target.feature admitted
    rwa [Slot.place, Target.path, hpath, hfolder] at htext
  · obtain ⟨file, -, rfl⟩ := List.mem_map.1 hslot
    exact fun text _ => by rw [text?_onceSlot]; rfl
  · obtain ⟨path, -, rfl⟩ := List.mem_map.1 hslot
    exact fun text _ => Slot.text?_folder ..

/-! ## The service file -/

/-- The text of a service file that stands in the tree. -/
theorem Ready.readService_of_get (hready : Ready target tree)
    (hname : FeatureName target.feature.name) (hfits : target.servicePath.Fits)
    (hget : tree.get? target.servicePath.resolve = some (.file (.text text))) :
    target.readService tree = .ok (universalNewlines text) := by
  have hrel := (SourceFile.ofClass .service).relative hname
  have hplace : target.servicePath.resolve = target.folder.resolve ++ _ := Path.resolve_join hrel
  have hfind : tree.find target.servicePath = .ok target.servicePath.resolve := by
    rw [hplace] at hget ⊢
    exact Tree.find_join hready.sound hready.folder hrel hfits (by rw [hget]; rfl)
  exact target.readService_of_holds ⟨hfind, hget⟩

theorem Ready.readService_of_none (hready : Ready target tree)
    (hname : FeatureName target.feature.name) (hfits : target.servicePath.Fits)
    (hget : tree.get? target.servicePath.resolve = none) : target.readService tree = .ok [] := by
  have hrel := (SourceFile.ofClass .service).relative hname
  have hplace : target.servicePath.resolve = target.folder.resolve ++ _ := Path.resolve_join hrel
  have hhas := Tree.has_join hready.sound hready.folder hrel hfits
  rw [← hplace, hget] at hhas
  have hhas : tree.has target.servicePath = .ok false := hhas
  rw [Target.readService, hhas]

/-- A later service file that has what the earlier one has, and members for the endpoints that were
taken in, takes in nothing more. -/
theorem Target.admitted_eq_nil_of_gains {result : Text}
    (hplain : ∀ endpoint ∈ endpoints, endpoint.Plain)
    (hnames : ∀ endpoint ∈ endpoints, endpoint.methodName ≠ [])
    (hkeys : annotatedKeys content ⊆ annotatedKeys (universalNewlines result))
    (hgains : Gains content result
      ((target.admission content endpoints).admitted.map (·.methodName))) :
    (target.admission (universalNewlines result) endpoints).admitted = [] := by
  have hword : ∀ endpoint ∈ endpoints, IsWord endpoint.methodName := fun endpoint hmem =>
    (SourceFile.ofClass .service).isWord_memberName (hplain endpoint hmem) (hnames endpoint hmem)
  refine admitted_eq_nil_of_kept _ hkeys (fun endpoint hmem hmember => ?_) fun endpoint hmem => ?_
  · exact hasMember_universalNewlines (hword endpoint hmem)
      (hgains.keeps _ (hword endpoint hmem) hmember)
  · have hword := hword endpoint (mem_of_admitted hmem)
    exact hasMember_universalNewlines hword
      ((hgains.mentions _ (List.mem_map_of_mem hmem)).hasMember hword)

/-- What is written to the service file keeps its annotations and gains the endpoints. -/
theorem service_gains {result : Text} (hfeature : feature.Plain)
    (hplain : ∀ endpoint ∈ admitted, endpoint.Plain) (hne : admitted ≠ [])
    (hnew : ∀ endpoint ∈ admitted, hasMember content endpoint.methodName = false)
    (hends : EndsImports content) (hquotes : EndsQuotes content)
    (hwhole : HasWholeAnnotations content) (hreturn : '\r' ∉ content)
    (h : ClassFile.service.extend feature content admitted = .ok result) :
    annotatedKeys content ⊆ annotatedKeys (universalNewlines result) ∧
      Gains content result (admitted.map (·.methodName)) := by
  have hlacking : lacking content Endpoint.methodName admitted = admitted :=
    List.filter_eq_self.2 fun endpoint hmem => by simp [hnew endpoint hmem]
  rw [ClassFile.extend_eq, hlacking, completeWith_of_ne_nil hne] at h
  exact ⟨subset_annotatedKeys_insert hfeature hplain hreturn hwhole hquotes h,
    ClassFile.gains_insert hfeature hplain hends h⟩

/-- A rendered service file has all endpoints, and no annotations were there before. -/
theorem service_gains_full (feature : Feature) (endpoints : List Endpoint) :
    Gains [] (ClassFile.service.render feature endpoints) (endpoints.map (·.methodName)) where
  keeps name hname hmember := by
    obtain ⟨c, rest, rfl⟩ := List.exists_cons_of_ne_nil hname.ne_nil
    cases hmember
  mentions name hmem := by
    obtain ⟨endpoint, hendpoint, rfl⟩ := List.mem_map.1 hmem
    exact (SourceFile.ofClass .service).mentions_full feature hendpoint

/-- What is written to the service file keeps what was read there and gains the endpoints. -/
theorem Config.Orderly.gains_of_written {result : Text} (horderly : config.Orderly name layers tree)
    (hready : Ready target tree) (htarget : config.target project name tree = .ok target)
    (hplaced : Placed target.feature admitted) (hfits : target.servicePath.Fits)
    (hcontent : target.readService tree = .ok content) (hdata : layers.data = true)
    (hfeature : target.feature.Plain) (hplain : ∀ endpoint ∈ admitted, endpoint.Plain)
    (hne : admitted ≠ [])
    (hnew : ∀ endpoint ∈ admitted, hasMember content endpoint.methodName = false)
    (hwritten : (ClassFile.service.part target.feature admitted).slot.text?
      (tree.get? target.servicePath.resolve) = some result) :
    annotatedKeys content ⊆ annotatedKeys (universalNewlines result) ∧
      Gains content result (admitted.map (·.methodName)) := by
  have hpath := Target.servicePath_of_target htarget
  match hget : tree.get? target.servicePath.resolve with
  | none =>
      rw [hget] at hwritten
      obtain rfl := Except.ok.inj
        ((hready.readService_of_none hplaced.name hfits hget).symm.trans hcontent)
      rw [← Option.some.inj hwritten]
      exact ⟨List.nil_subset _, service_gains_full target.feature admitted⟩
  | some (.file (.text old)) =>
      rw [hget] at hwritten
      obtain rfl := Except.ok.inj
        ((hready.readService_of_get hplaced.name hfits hget).symm.trans hcontent)
      rw [hpath] at hget
      obtain ⟨hquotes, hwhole⟩ := horderly.service old hget
      have hservice : SourceFile.ofClass .service ∈ layers.sourceFiles := by
        rw [Layers.sourceFiles, if_pos hdata]
        exact List.mem_append_left _ (List.mem_append_left _ List.mem_cons_self)
      exact service_gains hfeature hplain hne hnew (horderly.imports _ hservice old hget) hquotes
        hwhole (not_mem_universalNewlines old) (Part.extend_of_update hwritten)
  | some .folder =>
      rw [hget] at hwritten
      cases hwritten
  | some (.file (.bytes _)) =>
      rw [hget] at hwritten
      cases hwritten

/-! ## The second run -/

section

variable (hproject : AsciiWordy project) (hname : FeatureName name) (hword : AsciiWordy name)
  (hplain : ∀ endpoint ∈ endpoints, endpoint.Plain)
  (hnames : ∀ endpoint ∈ endpoints, endpoint.methodName ≠ [])

include hproject hname hword hplain hnames

/-- Behind a run that has extended a feature, the service file takes in the same endpoints or
none. -/
theorem Config.Orderly.admission_again (horderly : config.Orderly name layers tree)
    (hready : Ready target tree) (hroot : tree.Holds (.folder config.root))
    (htarget : config.target project name tree = .ok target)
    (hcontent : target.readService tree = .ok content)
    (hnew : (target.admission content endpoints).admitted ≠ [])
    (h : Extended config target (target.admission content endpoints).admitted layers tree middle
      other) :
    ∃ later, target.readService other = .ok later ∧
      ((target.admission later endpoints).admitted = [] ∨ later = content) := by
  have hplaced : Placed target.feature (target.admission content endpoints).admitted :=
    .of_target hname (fun endpoint hmem =>
      (hplain endpoint (mem_of_admitted hmem)).methodName.consists.not_mem (by decide)) htarget
  cases hdata : layers.data with
  | false => exact ⟨content, (h.readService_eq hready hroot hplaced hdata).trans hcontent, .inr rfl⟩
  | true =>
      have hslot : (ClassFile.service.part target.feature
          (target.admission content endpoints).admitted).slot ∈
          appendSlots target.feature (target.admission content endpoints).admitted layers :=
        slot_mem_appendSlots (service_mem_extendedParts hdata)
      have hpath := Target.servicePath_of_target htarget
      obtain ⟨hfind, entry, hget, htext⟩ := h.stands_other hplaced hslot
      obtain ⟨text, rfl⟩ := htext rfl
      have hfits : target.servicePath.Fits := (Tree.find_eq_ok_iff.1 hfind).1
      refine ⟨_, target.readService_of_holds ⟨hfind, hget⟩, ?_⟩
      have hlast := h.get?_place hplaced hslot nofun
      rw [hget] at hlast
      -- what stood at the place of the service file decides what has been written there
      cases hwritten : (ClassFile.service.part target.feature
          (target.admission content endpoints).admitted).slot.text?
          (tree.get? target.servicePath.resolve) with
      | none =>
          have hsame : some (.file (.text text)) = tree.get? target.servicePath.resolve :=
            hlast.trans (congrArg (Option.elim · _ _) hwritten)
          have hbefore := hready.readService_of_get hplaced.name hfits hsame.symm
          exact .inr (Except.ok.inj (hbefore.symm.trans hcontent))
      | some result =>
          have hsame : some (Entry.file (.text text)) = some (.file (.text result)) :=
            hlast.trans (congrArg (Option.elim · _ _) hwritten)
          obtain rfl : text = result := by simpa using hsame
          obtain ⟨hkeys, hgains⟩ := horderly.gains_of_written hready htarget hplaced hfits hcontent
            hdata (Config.plain_of_target hproject hword htarget)
            (fun endpoint hmem => hplain endpoint (mem_of_admitted hmem)) hnew
            (fun _ => not_hasMember_of_admitted) hwritten
          exact .inl (Target.admitted_eq_nil_of_gains hplain hnames hkeys hgains)

end

/-- Extending a feature that is there a second time by the same endpoints returns, changes no file,
makes no folder, and reports no file as written. -/
theorem generate_twice (hproject : AsciiWordy project) (hword : AsciiWordy name)
    (hplain : ∀ endpoint ∈ endpoints, endpoint.Plain)
    (hnames : ∀ endpoint ∈ endpoints, endpoint.methodName ≠ []) (hsound : desk.tree.Sound)
    (hroot : desk.tree.Holds (.folder config.root))
    (hexists : config.featureExists name desk.tree = .ok true)
    (horderly : config.Orderly name layers desk.tree)
    (h : (generate config project name endpoints layers .append).runOn desk =
      (.ok outcome, desk')) :
    ∃ outcome' desk'', (generate config project name endpoints layers .append).runOn desk' =
        (.ok outcome', desk'') ∧
      (∀ place, desk''.tree.get? place = desk'.tree.get? place) ∧ outcome'.filesWritten = [] := by
  obtain ⟨hcheck, hcases⟩ := generate_eq_ok h
  have hname := FeatureName.of_isFeatureName
    (Config.isFeatureName_of_checkName (checkRun_eq_ok.1 hcheck).1)
  obtain happend : (generateAppend config project name endpoints layers).runOn desk =
      (.ok outcome, desk') := by
    rcases hcases with ⟨habsent | ⟨-, habsent⟩, -⟩ | ⟨-, happend⟩ | ⟨⟨-, hcancel⟩, -⟩
    · exact absurd (habsent.symm.trans hexists) (by simp)
    · cases habsent
    · exact happend
    · cases hcancel
  have hfolder : desk.tree.Holds (.folder (config.featurePath name)) :=
    ⟨(Tree.hasFolder_eq_true_iff.1 hexists).1, (Tree.hasFolder_eq_true_iff.1 hexists).2⟩
  have hslash : ∀ endpoint ∈ endpoints, '/' ∉ endpoint.methodName := fun endpoint hmem =>
    (hplain endpoint hmem).methodName.consists.not_mem (by decide)
  obtain ⟨target, content, htarget, hcontent, -, hrest⟩ :=
    generateAppend_makes hname hslash hsound hfolder happend
  -- it is enough to extend the feature a second time
  suffices hagain : ∃ outcome' desk'', (generateAppend config project name endpoints layers).runOn
      desk' = (.ok outcome', desk'') ∧
      (∀ place, desk''.tree.get? place = desk'.tree.get? place) ∧ outcome'.filesWritten = [] by
    obtain ⟨outcome', desk'', hrun, hsame⟩ := hagain
    have hexists' : config.featureExists name desk'.tree = .ok true := by
      rcases hrest with ⟨-, htree, -⟩ | ⟨-, ⟨middle, hextended⟩, -⟩
      · rwa [htree]
      · exact (hextended.below.holds_folder hfolder).hasFolder
    exact ⟨outcome', desk'', generate_of_present hcheck hexists' hrun, hsame⟩
  have hidle : ∀ {later : Text}, config.target project name desk'.tree = .ok target →
      target.readService desk'.tree = .ok later →
      (target.admission later endpoints).admitted = [] →
      ∃ outcome' desk'', (generateAppend config project name endpoints layers).runOn desk' =
          (.ok outcome', desk'') ∧
        (∀ place, desk''.tree.get? place = desk'.tree.get? place) ∧ outcome'.filesWritten = [] := by
    intro later htarget hread hempty
    obtain ⟨outcome', desk'', hrun, htree, hwritten⟩ : ∃ outcome' desk'',
        (generateAppend config project name endpoints layers).runOn desk' = (.ok outcome', desk'') ∧
        desk''.tree = desk'.tree ∧ outcome'.filesWritten = [] :=
      generateAppend_idle htarget hread hempty
    exact ⟨outcome', desk'', hrun, fun place => by rw [htree], hwritten⟩
  rcases hrest with ⟨hempty, htree, -⟩ | ⟨hnew, ⟨middle, hextended⟩, -⟩
  · rw [← htree] at htarget hcontent
    exact hidle htarget hcontent hempty
  · have hready : Ready target desk.tree := ⟨hsound, (Config.name_of_target htarget).2 ▸ hfolder⟩
    have hplaced : Placed target.feature (target.admission content endpoints).admitted :=
      .of_target hname (fun endpoint hmem => hslash endpoint (mem_of_admitted hmem)) htarget
    have hlater := hextended.target_eq hready hroot hplaced htarget
    obtain ⟨later, hread, hempty | rfl⟩ := horderly.admission_again hproject hname hword hplain
      hnames hready hroot htarget hcontent hnew hextended
    · exact hidle hlater hread hempty
    · exact generateAppend_again hname hslash
        (hextended.errors.sound (hextended.slots.sound hsound))
        (hextended.below.holds_folder hfolder) hlater hread hnew hextended
        (horderly.rests htarget (Config.plain_of_target hproject hword htarget)
          (fun endpoint hmem => hplain endpoint (mem_of_admitted hmem))
          (fun endpoint hmem => hnames endpoint (mem_of_admitted hmem)) hnew)

/-! ## A service file that has been written by hand -/

/-- A project with a feature of which only the service file is there, with the given text. -/
def serviceTree (text : Text) : Tree where
  entries := [(["lib"], .folder), (["lib", "features"], .folder),
    (["lib", "features", "news"], .folder), (["lib", "features", "news", "data"], .folder),
    (["lib", "features", "news", "data", "remote"], .folder),
    (["lib", "features", "news", "data", "remote", "service"], .folder),
    (["lib", "features", "news", "data", "remote", "service", "news_service.dart"],
      .file (.text text))]

theorem sound_serviceTree (text : Text) : (serviceTree text).Sound := by
  refine Tree.sound_of_entries ?_
  simp [serviceTree, Tree.get?, List.lookup_cons]

theorem orderly_serviceTree (hends : EndsImports (universalNewlines text))
    (hquotes : EndsQuotes (universalNewlines text))
    (hwhole : HasWholeAnnotations (universalNewlines text)) :
    Config.Orderly {} "news" layers (serviceTree text) where
  imports source _ old hget := by
    have hplace : (serviceTree text).get? ((Config.featurePath {} "news").join
        (source.path "news")).resolve =
        if source = .ofClass .service then some (.file (.text text)) else none := by
      cases source with
      | ofClass file => cases file <;> rfl
      | _ => rfl
    rw [hplace] at hget
    split at hget
    · cases hget
      exact hends
    · cases hget
  service old hget := by
    have hplace : (serviceTree text).get? (Config.servicePath {} "news").resolve =
        some (.file (.text text)) := rfl
    rw [hplace] at hget
    cases hget
    exact ⟨hquotes, hwhole⟩

/-- A service file that declares one of two endpoints. -/
def usersContract : Text :=
  "import 'package:dio/dio.dart';\n\nabstract class NewsRemoteService \x7b\n  @GET(\"/users\")\n  Future<dynamic> getUsers();\n\x7d\n"

/-- The first run takes in the other one, the second run does nothing. -/
theorem generate_twice_items : ∃ outcome desk' outcome' desk'',
    (generate {} "shop" "news" [bareGet "/users", itemEndpoint] dataLayer .append).runOn
      ⟨serviceTree usersContract, []⟩ = (.ok outcome, desk') ∧
    (generate {} "shop" "news" [bareGet "/users", itemEndpoint] dataLayer .append).runOn desk' =
      (.ok outcome', desk'') ∧
    (∀ place, desk''.tree.get? place = desk'.tree.get? place) ∧ outcome'.filesWritten = [] := by
  have hplain : ∀ endpoint ∈ [bareGet "/users", itemEndpoint], endpoint.Plain := by
    intro endpoint hmem
    rcases List.mem_pair.1 hmem with rfl | rfl
    · exact bareGet_detectable.toPlain
    · exact itemEndpoint_detectable.toPlain
  have hok : ((generate {} "shop" "news" [bareGet "/users", itemEndpoint] dataLayer .append).runOn
      ⟨serviceTree usersContract, []⟩).1.isOk = true := by decide +kernel
  cases hrun : (generate {} "shop" "news" [bareGet "/users", itemEndpoint] dataLayer .append).runOn
      ⟨serviceTree usersContract, []⟩ with
  | mk answer desk' =>
      rw [hrun] at hok
      cases answer with
      | error error => cases hok
      | ok outcome =>
          obtain ⟨outcome', desk'', hagain, hsame⟩ := generate_twice (by decide) (by decide) hplain
            (by decide) (sound_serviceTree _) ⟨rfl, rfl⟩ rfl
            (orderly_serviceTree (by decide +kernel) (by decide +kernel)
              (.of_keys (by decide +kernel))) hrun
          exact ⟨outcome, desk', outcome', desk'', rfl, hagain, hsame⟩

/-! ## An annotation that goes on behind an import -/

/-- An endpoint whose path looks like an import up to the end of its first line. -/
def splitEndpoint : Endpoint where
  path := "/a import 'x;\nb"
  method := "get"
  operationId := some "readA"

/-- The endpoint and one that needs a model. -/
def splitDocument : Value :=
  .map [(.text "paths", .map [
    (.text "/a import 'x;\nb", .map [(.text "get", .map [(.text "operationId", .text "readA")])]),
    (.text "/items", .map [(.text "get", .map [(.text "operationId", .text "readItems"),
      (.text "responses", objectResponses)])])])]

theorem extracted_split : ∀ endpoint ∈ [splitEndpoint, itemEndpoint], Extracted endpoint :=
  fun _ hmem => ⟨splitDocument, _, rfl, hmem⟩

theorem plain_split : ∀ endpoint ∈ [splitEndpoint, itemEndpoint], endpoint.Plain := by
  intro endpoint hmem
  rcases List.mem_pair.1 hmem with rfl | rfl
  · exact (readable_of_noParameters (by decide) rfl (by decide) (by decide) (by decide)
      (by decide)).toPlain
  · exact itemEndpoint_detectable.toPlain

/-- A service file that declares the endpoint under another name. -/
def splitContract : Text :=
  "abstract class NewsRemoteService \x7b\n  @GET(\"/a import 'x;\nb\")\n  Future<dynamic> load();\n\x7d\n"

/-- What a run and the same run behind it write, if both return. -/
def writtenTwice (desk : Desk) (endpoints : List Endpoint) (layers : Layers) :
    Option (List Text × List Text) :=
  let run := generate {} "shop" "news" endpoints layers .append
  match (run.runOn desk).1, (run.runOn (run.runOn desk).2).1 with
  | .ok first, .ok second => some (first.filesWritten, second.filesWritten)
  | _, _ => none

theorem exists_of_writtenTwice {first second : List Text}
    (h : writtenTwice desk endpoints layers = some (first, second)) :
    ∃ outcome desk' outcome' desk'',
      (generate {} "shop" "news" endpoints layers .append).runOn desk = (.ok outcome, desk') ∧
      (generate {} "shop" "news" endpoints layers .append).runOn desk' = (.ok outcome', desk'') ∧
      outcome'.filesWritten = second := by
  unfold writtenTwice at h
  dsimp only at h
  generalize generate {} "shop" "news" endpoints layers .append = run at h ⊢
  cases hrun : run.runOn desk with
  | mk answer desk' =>
      rw [hrun] at h
      cases hagain : run.runOn desk' with
      | mk answer' desk'' =>
          rw [hagain] at h
          split at h
          · next outcome outcome' hfirst hsecond =>
            dsimp only at hfirst hsecond
            subst hfirst hsecond
            exact ⟨outcome, desk', outcome', desk'', rfl, hagain, (Prod.mk.inj (Option.some.inj h)).2⟩
          · cases h

/-- The first run puts the import of the model into the annotation, so that the second one takes in
the endpoint that has been there before. -/
theorem not_generate_twice :
    (∀ endpoint ∈ [splitEndpoint, itemEndpoint],
      Extracted endpoint ∧ endpoint.Plain ∧ endpoint.methodName ≠ []) ∧
    (serviceTree splitContract).Sound ∧
    (serviceTree splitContract).Holds (.folder (Config.root {})) ∧
    Config.featureExists {} "news" (serviceTree splitContract) = .ok true ∧
    EndsImports (universalNewlines splitContract) ∧ EndsQuotes (universalNewlines splitContract) ∧
    ∃ outcome desk' outcome' desk'',
      (generate {} "shop" "news" [splitEndpoint, itemEndpoint] dataLayer .append).runOn
        ⟨serviceTree splitContract, []⟩ = (.ok outcome, desk') ∧
      (generate {} "shop" "news" [splitEndpoint, itemEndpoint] dataLayer .append).runOn desk' =
        (.ok outcome', desk'') ∧ outcome'.filesWritten ≠ [] := by
  have hnames : ∀ endpoint ∈ [splitEndpoint, itemEndpoint], endpoint.methodName ≠ [] := by decide
  refine ⟨fun endpoint hmem => ⟨extracted_split endpoint hmem, plain_split endpoint hmem,
    hnames endpoint hmem⟩, sound_serviceTree _, ⟨rfl, rfl⟩, rfl, by decide +kernel,
    by decide +kernel, ?_⟩
  have hwritten : (writtenTwice ⟨serviceTree splitContract, []⟩ [splitEndpoint, itemEndpoint]
      dataLayer).any (fun written => !written.2.isEmpty) = true := by decide +kernel
  obtain ⟨⟨first, second⟩, htwice, hsecond⟩ := (Option.any_eq_true _ _).1 hwritten
  obtain ⟨outcome, desk', outcome', desk'', hrun, hagain, rfl⟩ := exists_of_writtenTwice htwice
  exact ⟨outcome, desk', outcome', desk'', hrun, hagain, by simpa using hsecond⟩

end Scaffold
