import Scaffold.Proofs.Naming.Recasing
import Scaffold.Proofs.Project.Confinement

/-!
# Accounts of selections

Extending a feature rules on the selected endpoints one after the other: an endpoint is annotated in
the service file, taken in, or skipped because its method name has an owner. `rulings` keeps these
decisions beside the endpoints, and `admission_eq` reads them back from what is taken in and warned
about. A run reports the rulings on its selection (`generate_accounts`).
-/

namespace Scaffold

variable {service content name : Text} {endpoints taken : List Endpoint}
  {endpoint : Endpoint} {target : Target} {config : Config} {layers : Layers} {project : Text}
  {desk : Desk}

/-! ## Rulings -/

/-- What becomes of a selected endpoint. -/
inductive Fate
  | annotated
  | taken
  | skipped (owner : Text)
  deriving DecidableEq

/-- A selected endpoint and what becomes of it. -/
structure Ruling where
  endpoint : Endpoint
  fate : Fate

/-- The warning about an endpoint whose method name has an owner. -/
def Endpoint.clashWarning (endpoint : Endpoint) (owner : Text) : Text :=
  "Skipped " ++ endpoint.describe ++ ": method name " ++ endpoint.methodName ++
    " is already used by " ++ owner

namespace Ruling

/-- The endpoint if it is taken in. -/
def taken? : Ruling → Option Endpoint
  | ⟨endpoint, .taken⟩ => some endpoint
  | _ => none

/-- The warning if the endpoint is skipped. -/
def warning? : Ruling → Option Text
  | ⟨endpoint, .skipped owner⟩ => some (endpoint.clashWarning owner)
  | _ => none

end Ruling

/-- The endpoints that are taken in, in order. -/
def takenIn (rulings : List Ruling) : List Endpoint := rulings.filterMap (·.taken?)

/-- The warnings about the endpoints that are skipped, in order. -/
def clashWarnings (rulings : List Ruling) : List Text := rulings.filterMap (·.warning?)

/-- What becomes of an endpoint behind those that have been taken in. -/
def fateOf (service content : Text) (taken : List Endpoint) (endpoint : Endpoint) : Fate :=
  if endpoint.key ∈ annotatedKeys content then .annotated
  else
    match nameOwner? service content taken endpoint.methodName with
    | none => .taken
    | some owner => .skipped owner

/-- The rulings on endpoints, some others having been taken in before. -/
def rulingsFrom (service content : Text) (taken : List Endpoint) : List Endpoint → List Ruling
  | [] => []
  | endpoint :: rest =>
    let ruling : Ruling := ⟨endpoint, fateOf service content taken endpoint⟩
    ruling :: rulingsFrom service content (taken ++ ruling.taken?.toList) rest

/-- The rulings on a selection. -/
def rulings (service content : Text) (endpoints : List Endpoint) : List Ruling :=
  rulingsFrom service content [] endpoints

/-- A ruling adds its endpoint to those taken in, or nothing. -/
theorem takenIn_cons (ruling : Ruling) (rest : List Ruling) :
    takenIn (ruling :: rest) = ruling.taken?.toList ++ takenIn rest := by
  rw [takenIn, List.filterMap_cons]
  cases ruling.taken? <;> rfl

/-- There is one ruling for each endpoint, in order. -/
theorem map_endpoint_rulingsFrom (service content : Text) (taken endpoints : List Endpoint) :
    (rulingsFrom service content taken endpoints).map (·.endpoint) = endpoints := by
  induction endpoints generalizing taken with
  | nil => rfl
  | cons endpoint rest ih => rw [rulingsFrom, List.map_cons, ih]

/-- Each ruling is decided by the endpoints that have been taken in before. -/
theorem fate_eq_of_rulingsFrom {earlier later : List Ruling} {ruling : Ruling}
    (h : rulingsFrom service content taken endpoints = earlier ++ ruling :: later) :
    ruling.fate = fateOf service content (taken ++ takenIn earlier) ruling.endpoint := by
  induction endpoints generalizing taken earlier with
  | nil => simp [rulingsFrom] at h
  | cons endpoint rest ih =>
      rw [rulingsFrom] at h
      cases earlier with
      | nil =>
          obtain ⟨rfl, -⟩ := List.cons.inj h
          rw [takenIn, List.filterMap_nil, List.append_nil]
      | cons first earlier =>
          obtain ⟨rfl, hrest⟩ := List.cons.inj h
          rw [ih hrest, takenIn_cons, List.append_assoc]

/-- One endpoint is considered as its ruling says. -/
theorem consider_eq (service content : Text) (start : Admission) (endpoint : Endpoint) :
    consider service content start endpoint =
      match nameOwner? service content start.admitted endpoint.methodName with
      | none => { start with admitted := start.admitted ++ [endpoint] }
      | some owner => { start with warnings := start.warnings ++ [endpoint.clashWarning owner] } :=
  rfl

/-- Considering one endpoint after the other is ruling on them. -/
theorem foldl_consider_eq (service content : Text) (endpoints : List Endpoint) (start : Admission) :
    (freshEndpoints content endpoints).foldl (consider service content) start =
      ⟨start.admitted ++ takenIn (rulingsFrom service content start.admitted endpoints),
        start.warnings ++ clashWarnings (rulingsFrom service content start.admitted endpoints)⟩ := by
  induction endpoints generalizing start with
  | nil => simp [freshEndpoints, rulingsFrom, takenIn, clashWarnings]
  | cons endpoint rest ih =>
      rw [rulingsFrom, fateOf]
      by_cases hknown : endpoint.key ∈ annotatedKeys content
      · rw [if_pos hknown, freshEndpoints, List.filter_cons_of_neg (by simpa using hknown),
          ← freshEndpoints, ih]
        simp [takenIn, clashWarnings, Ruling.taken?, Ruling.warning?]
      · rw [if_neg hknown, freshEndpoints, List.filter_cons_of_pos (by simpa using hknown),
          ← freshEndpoints, List.foldl_cons, ih, consider_eq]
        cases nameOwner? service content start.admitted endpoint.methodName with
        | none => simp [takenIn, clashWarnings, Ruling.taken?, Ruling.warning?]
        | some owner => simp [takenIn, clashWarnings, Ruling.taken?, Ruling.warning?]

/-- What is taken in and what is warned about, in terms of the rulings. -/
theorem admission_eq (service content : Text) (endpoints : List Endpoint) :
    admission service content endpoints =
      ⟨takenIn (rulings service content endpoints),
        clashWarnings (rulings service content endpoints)⟩ :=
  foldl_consider_eq service content endpoints {}

/-- The rulings account for a selection. Each endpoint has one of three fates, which depends on the
service file and on the endpoints that are taken in before it. -/
structure Accounts (service content : Text) (endpoints : List Endpoint) (rulings : List Ruling) :
    Prop where
  split : rulings.map (·.endpoint) = endpoints
  annotated : ∀ ruling ∈ rulings,
    ruling.fate = .annotated ↔ ruling.endpoint.key ∈ annotatedKeys content
  taken : ∀ earlier endpoint later, rulings = earlier ++ ⟨endpoint, .taken⟩ :: later →
    (∀ other ∈ takenIn earlier, other.methodName ≠ endpoint.methodName) ∧
      hasMember content endpoint.methodName = false
  skipped : ∀ earlier endpoint owner later,
    rulings = earlier ++ ⟨endpoint, .skipped owner⟩ :: later →
      (∃ other ∈ takenIn earlier,
          other.methodName = endpoint.methodName ∧ owner = other.describe) ∨
        (∀ other ∈ takenIn earlier, other.methodName ≠ endpoint.methodName) ∧
          hasMember content endpoint.methodName = true ∧ owner = service
  distinct : ((takenIn rulings).map (·.methodName)).Nodup

/-- Only an endpoint with an annotation in the service file counts as known. -/
theorem fateOf_eq_annotated :
    fateOf service content taken endpoint = .annotated ↔ endpoint.key ∈ annotatedKeys content := by
  rw [fateOf]
  split
  · next hknown => simp [hknown]
  · next hnew =>
    cases nameOwner? service content taken endpoint.methodName <;> simp [hnew]

/-- What is taken in has a name of its own. -/
theorem fateOf_eq_taken (h : fateOf service content taken endpoint = .taken) :
    (∀ other ∈ taken, other.methodName ≠ endpoint.methodName) ∧
      hasMember content endpoint.methodName = false := by
  have howner := nameOwner?_isNone service content taken endpoint.methodName
  rw [fateOf] at h
  split at h
  · cases h
  · split at h
    · next hnone =>
      rw [hnone, Option.isNone_none, eq_comm, Bool.not_eq_true', nameTaken, Bool.or_eq_false_iff,
        List.any_eq_false] at howner
      exact ⟨fun other hother => by simpa using howner.1 other hother, howner.2⟩
    · cases h

/-- What is skipped has a name that an endpoint before it or the service file owns. -/
theorem fateOf_eq_skipped {owner : Text}
    (h : fateOf service content taken endpoint = .skipped owner) :
    (∃ other ∈ taken, other.methodName = endpoint.methodName ∧ owner = other.describe) ∨
      (∀ other ∈ taken, other.methodName ≠ endpoint.methodName) ∧
        hasMember content endpoint.methodName = true ∧ owner = service := by
  have howner : nameOwner? service content taken endpoint.methodName = some owner := by
    rw [fateOf] at h
    split at h
    · cases h
    · split at h
      · cases h
      · next hsome =>
        rw [hsome, Fate.skipped.inj h]
  rw [nameOwner?] at howner
  cases hfind : taken.find? fun other => other.methodName == endpoint.methodName with
  | some other =>
      rw [hfind] at howner
      exact .inl ⟨other, List.mem_of_find?_eq_some hfind, by simpa using List.find?_some hfind,
        (Option.some.inj howner).symm⟩
  | none =>
      rw [hfind] at howner
      dsimp only at howner
      split at howner
      · next hmember =>
        exact .inr ⟨by simpa using hfind, hmember, (Option.some.inj howner).symm⟩
      · cases howner

/-- The rulings account for the selection, by induction on the endpoints with those taken in before.
-/
theorem accounts_rulings (service content : Text) (endpoints : List Endpoint) :
    Accounts service content endpoints (rulings service content endpoints) where
  split := map_endpoint_rulingsFrom service content [] endpoints
  annotated ruling hruling := by
    obtain ⟨earlier, later, h⟩ := List.append_of_mem hruling
    rw [fate_eq_of_rulingsFrom h]
    exact fateOf_eq_annotated
  taken earlier endpoint later h := by
    have hfate := fate_eq_of_rulingsFrom h
    exact fateOf_eq_taken hfate.symm
  skipped earlier endpoint owner later h := by
    have hfate := fate_eq_of_rulingsFrom h
    exact fateOf_eq_skipped hfate.symm
  distinct := by
    have hnodup := nodup_admitted service content endpoints
    rwa [admission_eq] at hnodup

/-! ## Warnings about files -/

/-- A path starts with a small letter. -/
def StartsSmall (path : Text) : Prop := ∃ c rest, path = c :: rest ∧ isSmall c = true

/-- Warnings are about files whose paths start with small letters. -/
def AboutFiles (warnings : List Text) : Prop :=
  ∀ warning ∈ warnings, ∃ path anchor, StartsSmall path ∧
    warning = "Skipped " ++ path ++ ": " ++ MissingAnchor.message anchor

/-- Without warnings there is none about anything else. -/
theorem AboutFiles.nil : AboutFiles [] := List.forall_mem_nil _

/-- The warnings of several reports are about files if those of each one are. -/
theorem AboutFiles.concat {reports : List Report}
    (h : ∀ report ∈ reports, AboutFiles report.warnings) :
    AboutFiles (Report.concat reports).warnings := by
  intro warning hwarning
  obtain ⟨report, hreport, hmem⟩ := List.mem_flatMap.1 hwarning
  exact h report hreport warning hmem

/-- The description of an endpoint starts with the capitals of its verb or with a blank, so it is no
path of a file. -/
theorem not_startsSmall_describe (endpoint : Endpoint) (rest : Text) :
    ¬ StartsSmall (endpoint.describe ++ rest) := by
  rintro ⟨c, tail, heq, hsmall⟩
  rw [Endpoint.describe] at heq
  cases hmethod : endpoint.method with
  -- without a verb the blank behind it comes first
  | nil =>
      rw [hmethod] at heq
      obtain ⟨rfl, -⟩ := List.cons.inj heq
      revert hsmall
      decide
  | cons d method =>
      obtain ⟨e, more, hupper, hlarge⟩ := upperChar_eq_cons d
      rw [hmethod, Text.upper, List.flatMap_cons, hupper] at heq
      obtain ⟨rfl, -⟩ := List.cons.inj heq
      rw [hsmall] at hlarge
      cases hlarge

/-- No warning about a file is one about a method name. -/
theorem AboutFiles.ne_clashWarning {warnings : List Text} (h : AboutFiles warnings)
    (endpoint : Endpoint) (owner : Text) : endpoint.clashWarning owner ∉ warnings := by
  intro hmem
  obtain ⟨path, anchor, ⟨c, rest, rfl, hc⟩, heq⟩ := h (endpoint.clashWarning owner) hmem
  have hsame : "Skipped " ++ endpoint.describe ++ ": method name " ++ endpoint.methodName ++
      " is already used by " ++ owner = "Skipped " ++ (c :: rest) ++ ": " ++ anchor.message := heq
  simp only [List.append_assoc, List.append_cancel_left_eq] at hsame
  exact not_startsSmall_describe endpoint _ ⟨c, _, hsame, hc⟩

section

open Work

/-- Extending a file warns about that file at most. -/
theorem appendPart_aboutFiles {part : Part} (h : StartsSmall part.path) :
    (appendPart target part).Answers fun report => AboutFiles report.warnings := by
  refine .bind fun known => ?_
  split
  · exact .bind fun _ => .pure .nil
  · refine .bind fun content => ?_
    split
    · next anchor _ =>
      refine .bind fun _ => .pure fun warning hwarning => ?_
      exact ⟨part.path, anchor, h, List.mem_singleton.1 hwarning⟩
    · split
      · exact .bind fun _ => .pure .nil
      · exact .bind fun _ => .bind fun _ => .pure .nil

/-- Extending files warns about files at most. -/
theorem appendParts_aboutFiles {parts : List Part} (h : ∀ part ∈ parts, StartsSmall part.path) :
    (appendParts target parts).Answers fun report => AboutFiles report.warnings := by
  refine .bind_of (.mapM fun part hpart => appendPart_aboutFiles (h part hpart))
    fun reports hreports => .pure (.concat fun report hreport => ?_)
  obtain ⟨part, -, habout⟩ := hreports report hreport
  exact habout

/-- What is left out warns of nothing. -/
theorem ite_aboutFiles {condition : Prop} [Decidable condition] {work : Work WorkError Report}
    (h : work.Answers fun report => AboutFiles report.warnings) :
    Work.Answers (fun report => AboutFiles report.warnings)
      (if condition then work else pure {} : Work WorkError Report) := by
  split
  · exact h
  · exact .pure .nil

/-- Adding a model warns of nothing. -/
theorem appendModel_aboutFiles (file : FeatureFile) :
    (appendModel target file).Answers fun report => AboutFiles report.warnings := by
  refine .bind fun known => ?_
  split
  · exact .pure .nil
  · exact .bind fun _ => .pure .nil

/-- Adding the screen warns of nothing. -/
theorem appendScreen_aboutFiles :
    (appendScreen target).Answers fun report => AboutFiles report.warnings := by
  refine .bind fun known => ?_
  split
  · exact .bind fun _ => .pure .nil
  · exact .bind fun _ => .pure .nil

/-- Extending the data layer warns about files at most. -/
theorem appendData_aboutFiles :
    (appendData target endpoints).Answers fun report => AboutFiles report.warnings := by
  have hparts : ∀ part ∈ dataParts target.feature endpoints, StartsSmall part.path := by
    simp only [dataParts, List.map_cons, List.map_nil, List.forall_mem_cons]
    exact ⟨⟨'d', _, rfl, rfl⟩, ⟨'d', _, rfl, rfl⟩, ⟨'d', _, rfl, rfl⟩, ⟨'d', _, rfl, rfl⟩,
      List.forall_mem_nil _⟩
  refine .bind fun _ => .bind_of (.mapM fun file _ => appendModel_aboutFiles file)
    fun models hmodels => .bind_of (appendParts_aboutFiles hparts) fun parts hparts =>
      .pure (.concat fun report hreport => ?_)
  rcases List.mem_append.1 hreport with hreport | hreport
  · obtain ⟨file, -, habout⟩ := hmodels report hreport
    exact habout
  · rw [List.mem_singleton.1 hreport]
    exact hparts

/-- Extending the presentation layer warns about files at most. -/
theorem appendPresentation_aboutFiles {components : Components} :
    (appendPresentation target endpoints components).Answers fun report =>
      AboutFiles report.warnings := by
  have hparts : ∀ part ∈ [eventPart target.feature endpoints, statePart target.feature endpoints,
      blocPart target.feature endpoints], StartsSmall part.path := by
    simp only [List.forall_mem_cons]
    exact ⟨⟨'p', _, rfl, rfl⟩, ⟨'p', _, rfl, rfl⟩, ⟨'p', _, rfl, rfl⟩, List.forall_mem_nil _⟩
  rw [appendPresentation_eq]
  refine .bind_of (ite_aboutFiles (appendParts_aboutFiles hparts)) fun bloc hbloc =>
    .bind_of (ite_aboutFiles appendScreen_aboutFiles) fun screen hscreen =>
      .bind fun _ => .pure (.concat ?_)
  simp [hbloc, hscreen]

/-- Extending the layers warns about files at most. -/
theorem appendLayers_aboutFiles :
    (appendLayers target endpoints layers).Answers fun report => AboutFiles report.warnings := by
  have hparts : ∀ part ∈ domainParts target.feature endpoints, StartsSmall part.path := by
    simp only [domainParts, List.map_cons, List.map_nil, List.forall_mem_cons]
    exact ⟨⟨'d', _, rfl, rfl⟩, ⟨'d', _, rfl, rfl⟩, List.forall_mem_nil _⟩
  rw [appendLayers_eq]
  refine .bind_of (ite_aboutFiles appendData_aboutFiles) fun data hdata =>
    .bind_of (ite_aboutFiles (appendParts_aboutFiles hparts)) fun domain hdomain =>
      .bind_of (ite_aboutFiles appendPresentation_aboutFiles) fun presentation hpresentation =>
        .pure (.concat ?_)
  simp [hdata, hdomain, hpresentation]

end

/-! ## What runs report -/

/-- The outcome reports the rulings. Its further warnings are none about method names. -/
structure Outcome.Reports (outcome : Outcome) (rulings : List Ruling) : Prop where
  new : outcome.newEndpoints = (takenIn rulings).map (·.describe)
  count : outcome.endpointCount = (takenIn rulings).length
  nothing : outcome.nothingToDo = true ↔ takenIn rulings = []
  warnings : ∃ others, outcome.warnings = clashWarnings rulings ++ others ∧
    ∀ (endpoint : Endpoint) owner, endpoint.clashWarning owner ∉ others

/-- Extends the chosen layers and ensures the errors shared by all features. -/
def extendLayers (config : Config) (target : Target) (endpoints : List Endpoint)
    (layers : Layers) : Work WorkError Report := do
  let report ← appendLayers target endpoints layers
  ensureErrorUnion config
  return report

/-- The answer of a run that extends a feature fits the rulings. The run fails only while it extends
the feature by the endpoints that are taken in. -/
def FitsRulings (config : Config) (target : Target) (layers : Layers) (tree : Tree)
    (rulings : List Ruling) : Except RunError Outcome → Prop
  | .ok outcome => outcome.Reports rulings
  | .error error => takenIn rulings ≠ [] ∧ ∃ start failure, start.tree = tree ∧
      error = .work failure ∧
      ((extendLayers config target (takenIn rulings) layers).runOn start).1 = .error failure

/-- An append reports its rulings: it ends at once if nothing is taken in, and extends the feature
otherwise. -/
theorem generateAppend_accounts {rulings : List Ruling}
    (htarget : config.target project name desk.tree = .ok target)
    (hcontent : target.readService desk.tree = .ok content)
    (hadmission : target.admission content endpoints = ⟨takenIn rulings, clashWarnings rulings⟩) :
    FitsRulings config target layers desk.tree rulings
      (((generateAppend config project name endpoints layers).runOn desk).1.mapError .work) := by
  have hread : (serviceText target).runOn desk = (.ok content, desk) := by
    rw [serviceText_runOn, hcontent]
  rw [Target.admission, (Config.name_of_target htarget).1] at hadmission
  obtain ⟨warned, hwarn, htree⟩ := forM_warn_runOn (clashWarnings rulings)
    (fun warning => "  Warning: " ++ warning) desk
  rw [generateAppend, Work.runOn_bind_of_ok (runOn_ask_of_ok htarget),
    Work.runOn_bind_of_ok hread, hadmission, Work.runOn_bind_of_ok hwarn]
  by_cases hempty : takenIn rulings = []
  · rw [hempty, List.isEmpty_nil, if_pos rfl, Work.runOn_bind_of_ok (Work.runOn_say _ _)]
    exact {
      new := by rw [hempty]; rfl
      count := by rw [hempty]; rfl
      nothing := by simp [hempty]
      warnings := ⟨[], (List.append_nil _).symm, fun _ _ => List.not_mem_nil⟩ }
  · rw [if_neg (by simpa using hempty), Work.runOn_bind_of_ok (Work.runOn_say _ _)]
    generalize hsaid : warned.tell ("Appending " ++ Text.ofNat (takenIn rulings).length ++
      " new endpoint(s) to feature: " ++ name ++ ['\n']) = said
    have hstart : said.tree = desk.tree := by rw [← hsaid, Desk.tree_tell, htree]
    rw [Work.runOn_bind]
    rcases hextend : (appendLayers target (takenIn rulings) layers).runOn said with
      ⟨result, extended⟩
    cases result with
    | error error =>
        refine ⟨hempty, said, error, hstart, rfl, ?_⟩
        rw [extendLayers, Work.runOn_bind, hextend]
    | ok report =>
        dsimp only
        rw [Work.runOn_bind]
        rcases hensure : (ensureErrorUnion config).runOn extended with ⟨result, ensured⟩
        cases result with
        | error error =>
            refine ⟨hempty, said, error, hstart, rfl, ?_⟩
            rw [extendLayers, Work.runOn_bind_of_ok hextend, Work.runOn_bind, hensure]
        | ok done =>
            have hfiles : AboutFiles report.warnings :=
              appendLayers_aboutFiles said report (by rw [hextend])
            exact {
              new := rfl
              count := rfl
              nothing := iff_of_false Bool.false_ne_true hempty
              warnings := ⟨report.warnings, rfl, hfiles.ne_clashWarning⟩ }

/-- Extending a feature accounts for every selected endpoint, in the order of the selection. -/
theorem generate_accounts (hcheck : checkRun config name endpoints layers = .ok ())
    (hexists : config.featureExists name desk.tree = .ok true)
    (htarget : config.target project name desk.tree = .ok target)
    (hcontent : target.readService desk.tree = .ok content) :
    ∃ rulings,
      Accounts (ClassFile.service.path target.feature.name) content endpoints rulings ∧
      FitsRulings config target layers desk.tree rulings
        ((generate config project name endpoints layers .append).runOn desk).1 := by
  have hadmission := admission_eq (ClassFile.service.path target.feature.name) content endpoints
  refine ⟨_, accounts_rulings _ content endpoints, ?_⟩
  rw [generate_append_runOn hcheck hexists]
  exact generateAppend_accounts htarget hcontent hadmission

/-- A service file with one method. -/
def usersService : Text :=
  "abstract class NewsService \x7b\n  @GET(\"/users\")\n  Future getUsers();\n\x7d\n"

/-- A project with the service file. -/
def usersTree : Tree where
  entries := [(["lib"], .folder), (["lib", "features"], .folder),
    (["lib", "features", "news"], .folder), (["lib", "features", "news", "data"], .folder),
    (["lib", "features", "news", "data", "remote"], .folder),
    (["lib", "features", "news", "data", "remote", "service"], .folder),
    (["lib", "features", "news", "data", "remote", "service", "news_service.dart"],
      .file (.text usersService))]

/-- The target of the feature in the project. -/
def usersTarget : Target := ⟨⟨"shop", "news", "model"⟩, ["lib", "features", "news"]⟩

/-- One endpoint that is annotated, one that is new, and two whose names have owners. -/
def usersSelection : List Endpoint :=
  [{ path := "/users", method := "get" }, { path := "/orders", method := "get" },
    { path := "/admin/orders", method := "get" }, { path := "/admin/users", method := "get" }]

example : (rulings "service" usersService usersSelection).map (·.fate) =
    [.annotated, .taken, .skipped "GET /orders", .skipped "service"] := by
  decide +kernel

/-- The service file of the project is read as it stands. -/
theorem readService_usersTarget : usersTarget.readService usersTree = .ok usersService := by
  have hholds : usersTree.Holds (.file usersTarget.servicePath usersService) :=
    ⟨by decide +kernel, rfl⟩
  have hlines : universalNewlines usersService = usersService := by decide +kernel
  rw [Target.readService_of_holds hholds, hlines]

/-- A selection with one endpoint of each fate. -/
theorem generate_accounts_users : ∃ rulings,
    Accounts "data/remote/service/news_service.dart" usersService usersSelection rulings ∧
      FitsRulings {} usersTarget {} usersTree rulings
        ((generate {} "shop" "news" usersSelection {} .append).runOn ⟨usersTree, []⟩).1 := by
  have hservice : ClassFile.service.path usersTarget.feature.name =
      "data/remote/service/news_service.dart" := by decide +kernel
  have hexists : Config.featureExists {} "news" usersTree = .ok true := by
    have hholds : usersTree.Holds (.folder (Config.featurePath {} "news")) :=
      ⟨by decide +kernel, by decide +kernel⟩
    exact hholds.hasFolder
  have htarget : Config.target {} "shop" "news" usersTree = .ok usersTarget := rfl
  rw [← hservice]
  exact @generate_accounts usersService "news" usersSelection usersTarget {} {} "shop" ⟨usersTree, []⟩
    rfl hexists htarget readService_usersTarget

end Scaffold
