import Scaffold.Proofs.Command.Declining
import Scaffold.Proofs.Endpoint.Selection
import Scaffold.Proofs.Form.Request
import Scaffold.Proofs.Project.Showing

/-!
# Command line and form

Generating a feature on the command line and by a request to the form comes to the same: both leave
the same tree, and both succeed or both fail (`command_agrees_with_form`).
-/

namespace Scaffold

variable {here : Path} {environment : Environment} {line : Option Text} {tree : Tree} {config : Config}
  {project : Project} {name : Text} {indices : List Int} {endpoints : List Endpoint}

/-- The arguments that generate a feature from endpoints of the given numbers, extending it if it is
there. -/
def generateArguments (name : Text) (indices : List Int) : List Text :=
  ["generate", name, Selection.numbers indices, "--on-exists", "append"]

/-- The request that generates a feature from endpoints of the given numbers. -/
def generateRequest (name : Text) (indices : List Int) : Request :=
  ⟨"POST", "/api/generate", formBody name indices⟩

/-- The endpoints for a name and numbers, both checked. -/
def acceptNumbers (config : Config) (catalog : Catalog) (name : Text) (indices : List Int) :
    Except SelectionError (List Endpoint) := do
  config.checkName name
  catalog.select (.these (indices.map .int))

/-! ## Arguments -/

theorem isOption_of_head {text : Text} (h : text.head? ≠ some '-') :
    Scan.isOption text = false ∧ text ≠ "--" := by
  constructor
  · unfold Scan.isOption
    split
    · exact absurd rfl h
    · rfl
  · rintro rfl
    exact h rfl

theorem ofArguments_other {known : List Text} {argument : Text} {rest : List Text}
    (h : argument.head? ≠ some '-') :
    Scan.ofArguments known true (argument :: rest) =
      (Scan.ofArguments known true rest).map (·.withOther argument) := by
  obtain ⟨hoption, hdashes⟩ := isOption_of_head h
  conv_lhs => unfold Scan.ofArguments
  rw [if_neg hdashes, hoption]
  rfl

/-- The arguments of a command that generates, if neither the name nor the numbers look like an
option. -/
theorem generateOf?_arguments (hname : name.head? ≠ some '-')
    (hnumbers : (Selection.numbers indices).head? ≠ some '-') :
    Command.generateOf? [name, Selection.numbers indices, "--on-exists", "append"] =
      some (.generate name (Selection.numbers indices) (some .append)) := by
  rw [Command.generateOf?, ofArguments_other hname, ofArguments_other hnumbers]
  rfl

/-- Numbers start as the first of them. -/
theorem exists_numbers_cons (n : Int) (rest : List Int) :
    ∃ more, Selection.numbers (n :: rest) = Text.ofInt n ++ more := by
  by_cases hnil : rest = []
  · subst hnil
    exact ⟨[], (List.append_nil _).symm⟩
  · exact ⟨"," ++ Selection.numbers rest, by
      rw [Selection.numbers, List.map_cons, Text.join_cons _ (by simpa using hnil), List.append_assoc]
      rfl⟩

theorem head?_numbers {n : Int} (h : 0 ≤ n) (rest : List Int) :
    (Selection.numbers (n :: rest)).head? ≠ some '-' := by
  obtain ⟨more, hnumbers⟩ := exists_numbers_cons n rest
  obtain ⟨size, rfl⟩ := Int.eq_ofNat_of_zero_le h
  obtain ⟨c, digits, hdigits⟩ := List.exists_cons_of_ne_nil (Text.ofNat_ne_nil size)
  have hc : c.isDigit = true := Text.isDigit_of_mem_ofNat (n := size) (hdigits ▸ List.mem_cons_self)
  have htext : Text.ofInt size = Text.ofNat size := rfl
  rw [hnumbers, htext, hdigits, List.cons_append, List.head?_cons]
  intro heq
  obtain rfl := Option.some.inj heq
  exact absurd hc (by decide)

/-- Numbers that start with a dash are taken for an option that is not known. -/
theorem generateOf?_of_negative (hname : name.head? ≠ some '-') {n : Int} (h : n < 0)
    (rest : List Int) :
    Command.generateOf? [name, Selection.numbers (n :: rest), "--on-exists", "append"] = none := by
  obtain ⟨more, hnumbers⟩ := exists_numbers_cons n rest
  obtain ⟨size, rfl⟩ := Int.eq_negSucc_of_lt_zero h
  obtain ⟨c, digits, hdigits⟩ := List.exists_cons_of_ne_nil (Text.ofNat_ne_nil (size + 1))
  have hc : c.isDigit = true :=
    Text.isDigit_of_mem_ofNat (n := size + 1) (hdigits ▸ List.mem_cons_self)
  have hminus : c ≠ '-' := by
    rintro rfl
    exact absurd hc (by decide)
  have hjoined : Scan.joined? (Selection.numbers (.negSucc size :: rest)) = none := by
    have hdrop : (Selection.numbers (.negSucc size :: rest)).dropWhile (· != '=') = [] := by
      rw [List.dropWhile_eq_nil_iff]
      intro d hd
      rcases mem_numbers hd with rfl | rfl | hdigit
      · rfl
      · rfl
      · rw [bne_iff_ne]
        rintro rfl
        exact absurd hdigit (by decide)
    rw [Scan.joined?, hdrop]
  have htext : Selection.numbers (.negSucc size :: rest) = '-' :: c :: (digits ++ more) := by
    have hsize : Text.ofInt (.negSucc size) = '-' :: Text.ofNat (size + 1) := rfl
    rw [hnumbers, hsize, hdigits]
    rfl
  rw [htext] at hjoined ⊢
  have hdashes : '-' :: c :: (digits ++ more) ≠ ("--" : Text) := by
    intro heq
    exact hminus (List.cons.inj (List.cons.inj heq).2).1
  have hunknown : '-' :: c :: (digits ++ more) ∉ Command.generateOptions := by
    intro hmem
    exact hminus (List.cons.inj (List.cons.inj (List.mem_singleton.1 hmem)).2).1
  have hscan : Scan.ofArguments Command.generateOptions true
      ['-' :: c :: (digits ++ more), "--on-exists", "append"] = none := by
    unfold Scan.ofArguments
    have hoption : Scan.isOption ('-' :: c :: (digits ++ more)) = true := rfl
    rw [if_neg hdashes, if_pos hoption, hjoined]
    exact if_neg (by simpa using hunknown)
  rw [Command.generateOf?, ofArguments_other hname, hscan]
  rfl

/-! ## The command -/

theorem course_of_arguments (hplace : (Place.ofScan {} environment).mayBeFolder here tree = true)
    (hname : name.head? ≠ some '-') {n : Int} (rest : List Int) :
    Course.ofArguments? here environment (generateArguments name (n :: rest)) line tree =
      if n < 0 then none
      else some (Course.ofCommand ((Place.ofScan {} environment).config here) line
        (.generate name (Selection.numbers (n :: rest)) (some .append))) := by
  have hscan : Scan.ofArguments Place.options false (generateArguments name (n :: rest)) =
      some { others := generateArguments name (n :: rest) } := rfl
  have hcommand : Command.ofArguments? (generateArguments name (n :: rest)) =
      Command.generateOf? [name, Selection.numbers (n :: rest), "--on-exists", "append"] := rfl
  rw [Course.ofArguments?, Invocation.ofArguments?, hscan]
  simp only [Option.bind_eq_bind, Option.bind_some, hcommand]
  by_cases hneg : n < 0
  · rw [generateOf?_of_negative hname hneg, if_pos hneg]
    rfl
  · rw [generateOf?_arguments hname (head?_numbers (Int.not_lt.1 hneg) rest), if_neg hneg]
    simp only [Option.bind_some, Option.pure_def]
    exact if_pos hplace

/-- The endpoints of a command are those of its numbers. -/
theorem acceptRequest_numbers (catalog : Catalog) (hne : indices ≠ [])
    (h : ∀ n ∈ indices, Text.IsShort n) :
    acceptRequest config catalog name (Selection.numbers indices) =
      acceptNumbers config catalog name indices := by
  rw [acceptRequest, acceptNumbers, Catalog.selectText, Selection.parse_numbers hne h]
  rfl

theorem numbers_ne_nil (hne : indices ≠ []) : Selection.numbers indices ≠ [] := by
  obtain ⟨n, rest, rfl⟩ := List.exists_cons_of_ne_nil hne
  obtain ⟨more, hnumbers⟩ := exists_numbers_cons n rest
  rw [hnumbers]
  exact List.append_ne_nil_of_left_ne_nil (Text.ofInt_ne_nil n) more

/-- A command that is accepted runs its job after it has shown the endpoints. -/
theorem runOn_prepare (hproject : loadProject config tree = .ok project) (hname : name ≠ [])
    {text : Text} (htext : text ≠ []) (action : ExistsAction) :
    ∃ shown, (Course.prepare config name text (some action)).runOn ⟨tree, []⟩ =
      match acceptRequest config project.catalog name text with
      | .error error => (.error (.run (.selection error)), ⟨tree, []⟩)
      | .ok endpoints => (.ok (.decided ⟨config, project.name, name, endpoints⟩ action), ⟨tree, shown⟩) := by
  have hload : (Course.load config).runOn ⟨tree, []⟩ = (.ok project, ⟨tree, []⟩) := by
    rw [Course.load, Work.runOn_bind_of_ok (Work.runOn_tree _), hproject]
    rfl
  have hmissing : (name.isEmpty || text.isEmpty) = false := by
    simp [hname, htext]
  cases haccept : acceptRequest config project.catalog name text with
  | error error =>
      refine ⟨[], ?_⟩
      rw [Course.prepare, Work.runOn_bind_of_ok hload, hmissing, haccept]
      rfl
  | ok endpoints =>
      obtain ⟨⟨after, shown⟩, hsay, htree⟩ := Course.runOn_say (selectedLines endpoints) ⟨tree, []⟩
      obtain rfl : after = tree := htree
      refine ⟨shown, ?_⟩
      rw [Course.prepare, Work.runOn_bind_of_ok hload, hmissing, haccept]
      exact Work.runOn_bind_of_ok hsay

theorem finish_bind_of_ok {α : Type} {work : Work CommandError α}
    {next : α → Work CommandError CommandEnd} {answer : α} {desk middle : Desk}
    (h : work.runOn desk = (.ok answer, middle)) :
    Course.finish (work >>= next) desk = Course.finish (next answer) middle := by
  rw [Course.finish, Work.runOn_bind_of_ok h]
  rfl

theorem finish_bind_of_error {α : Type} {work : Work CommandError α}
    {next : α → Work CommandError CommandEnd} {error : CommandError} {desk middle : Desk}
    (h : work.runOn desk = (.error error, middle)) :
    Course.finish (work >>= next) desk =
      (middle.warn (error.failure.message ++ ['\n']), ⟨1, none⟩) := by
  rw [Course.finish, Work.runOn_bind, h]

/-- A command ends with the tree of its generation, and succeeds if that does. -/
theorem finish_decided (job : Job) (action : ExistsAction) (line : Option Text) (desk : Desk) :
    (Course.finish (Course.carryOut line (.decided job action)) desk).1.tree =
        ((generate job.config job.project job.name job.endpoints {} action).runOn desk).2.tree ∧
      ((Course.finish (Course.carryOut line (.decided job action)) desk).2.code = 0 ↔
        ((generate job.config job.project job.name job.endpoints {} action).runOn desk).1.isOk =
          true) := by
  obtain ⟨after, hrun, htree⟩ := Course.runOn_run job action desk
  rw [Course.finish, Course.carryOut, Work.runOn_bind, hrun]
  cases ((generate job.config job.project job.name job.endpoints {} action).runOn desk).1 with
  | ok outcome => exact ⟨htree, iff_of_true rfl rfl⟩
  | error error => exact ⟨htree, iff_of_false Nat.one_ne_zero Bool.false_ne_true⟩

/-! ## The request -/

/-- A request for numbers of endpoints is carried out. -/
theorem run_generateRequest {desk : Desk} (h : ∀ n ∈ indices, Text.IsShort n) :
    (answerRequest config project (generateRequest name indices)).run desk =
      ((⟨name, indices, {}⟩ : GenerateRequest).answer config project).run desk := by
  have hmethod : (generateRequest name indices).method.upper = "POST" := by
    show Text.upper "POST" = "POST"
    decide +kernel
  have hroute : Route.ofTarget? (generateRequest name indices).target = some .generate := by
    show Route.ofTarget? "/api/generate" = some .generate
    decide +kernel
  have hbody : routedReply config project (generateRequest name indices) =
      (⟨name, indices, {}⟩ : GenerateRequest).answer config project := by
    have hallows : Route.generate.allows "POST" = true := by decide +kernel
    rw [routedReply, hroute, hmethod]
    dsimp only
    rw [if_pos hallows]
    show answerForm config project (formBody name indices) = _
    rw [answerForm, readGenerateRequest_formBody h]
  have hhead : ("POST" : Text) ≠ headMethod := by decide +kernel
  rw [answerRequest_run, hbody, hmethod]
  dsimp only
  rw [if_neg hhead]
  rfl

theorem accept_eq (catalog : Catalog) :
    (⟨name, indices, {}⟩ : GenerateRequest).accept config catalog name =
      acceptNumbers config catalog name indices := rfl

theorem runOn_refused (desk : Desk) {error : SelectionError}
    (haccept : acceptNumbers config project.catalog name indices = .error error) :
    ((⟨name, indices, {}⟩ : GenerateRequest).run config project name).runOn desk =
      (.error (.selection error), desk) := by
  rw [GenerateRequest.run, accept_eq, haccept]
  rfl

/-- A run fails at once if it cannot be told whether the feature is there. -/
theorem generate_of_unseen {desk : Desk} {error : FileError} {layers : Layers} {action : ExistsAction}
    (h : config.featureExists name desk.tree = .error error) :
    ∃ failure, (generate config project.name name endpoints layers action).runOn desk =
      (.error failure, desk) := by
  unfold generate
  cases checkRun config name endpoints layers with
  | error refusal => exact ⟨_, rfl⟩
  | ok _ =>
      refine ⟨.work (.file error), ?_⟩
      dsimp only
      rw [Work.runOn_bind, Work.runOn_adapt, runOn_ask, h]
      rfl

/-- A request ends with the tree of its generation, and succeeds if that does. -/
theorem runOn_request (desk : Desk)
    (haccept : acceptNumbers config project.catalog name indices = .ok endpoints) :
    ∃ result after, ((⟨name, indices, {}⟩ : GenerateRequest).run config project name).runOn desk =
        (result, after) ∧
      after.tree = ((generate config project.name name endpoints {} .append).runOn desk).2.tree ∧
      result.isOk = ((generate config project.name name endpoints {} .append).runOn desk).1.isOk := by
  rw [GenerateRequest.run, accept_eq, haccept]
  dsimp only
  rw [Work.runOn_bind, Work.runOn_adapt, runOn_ask]
  cases hexists : config.featureExists name desk.tree with
  | error error =>
      obtain ⟨failure, hrun⟩ : ∃ failure, (generate config project.name name endpoints {}
          .append).runOn desk = (.error failure, desk) := generate_of_unseen hexists
      rw [hrun]
      exact ⟨_, _, rfl, rfl, rfl⟩
  | ok wasThere =>
      simp only [Work.mapError_ok]
      rw [Work.runOn_bind]
      rcases (generate config project.name name endpoints {} .append).runOn desk with ⟨result, after⟩
      cases result with
      | error error => exact ⟨_, _, rfl, rfl, rfl⟩
      | ok outcome => exact ⟨_, _, rfl, rfl, rfl⟩

theorem status_answer {desk after : Desk} {result : Except RunError FormOutcome}
    (htrim : name.trim = name)
    (h : ((⟨name, indices, {}⟩ : GenerateRequest).run config project name).runOn desk =
      (result, after)) :
    (((⟨name, indices, {}⟩ : GenerateRequest).answer config project).run desk).2 = after ∧
      ((((⟨name, indices, {}⟩ : GenerateRequest).answer config project).run desk).1.status = 200 ↔
        result.isOk = true) := by
  rw [answer_run, htrim, h]
  cases result with
  | ok result => exact ⟨rfl, iff_of_true rfl rfl⟩
  | error error =>
      refine ⟨rfl, iff_of_false ?_ Bool.false_ne_true⟩
      cases error with
      | selection error => show ¬ (400 = 200); decide
      | work error => show ¬ (500 = 200); decide

/-! ## Both -/

/-- Numbers that start with a negative one select nothing. -/
theorem acceptNumbers_of_negative (catalog : Catalog) {n : Int} (h : n < 0) (rest : List Int) :
    ∃ error, acceptNumbers config catalog name (n :: rest) = .error error := by
  have hindex : catalog.atIndex? (.int n) = none := by
    rw [Catalog.atIndex?, Option.map_eq_none_iff, List.find?_eq_none]
    intro entry _
    show ¬ ((entry.index : Int) * 1 == n * 1) = true
    rw [beq_iff_eq]
    omega
  have hselect : ∃ error, catalog.select (.these ((n :: rest).map .int)) = .error error := by
    refine ⟨.indexInvalid (Scalar.int n).display catalog.numbered.length, ?_⟩
    rw [Catalog.select, Catalog.resolve, List.map_cons, List.foldlM_cons, hindex]
    rfl
  rw [acceptNumbers]
  cases config.checkName name with
  | error error => exact ⟨error, rfl⟩
  | ok _ => exact hselect

/-- The command line and the form agree. In a project that can be loaded, generating a feature from
numbers of endpoints by a command leaves the tree that a request for the same leaves, and the
command succeeds if and only if the request does. The root that the command names is no regular
file, and the name is one that a command line can take as an argument: it is not empty, has no
blanks around it and does not look like an option. -/
theorem command_agrees_with_form
    (hplace : (Place.ofScan {} environment).mayBeFolder here tree = true)
    (hproject : loadProject ((Place.ofScan {} environment).config here) tree = .ok project)
    (hname : name ≠ []) (htrim : name.trim = name) (hdash : name.head? ≠ some '-')
    (hindices : indices ≠ []) (hshort : ∀ n ∈ indices, Text.IsShort n) :
    let command := (runCommand here environment (generateArguments name indices) tree).answer line
    let reply := (answerRequest ((Place.ofScan {} environment).config here) project
      (generateRequest name indices)).run ⟨tree, []⟩
    command.1.tree = reply.2.tree ∧ (command.2.code = 0 ↔ reply.1.status = 200) := by
  intro command reply
  obtain ⟨n, rest, rfl⟩ := List.exists_cons_of_ne_nil hindices
  have hreply : reply = ((⟨name, n :: rest, {}⟩ : GenerateRequest).answer
      ((Place.ofScan {} environment).config here) project).run ⟨tree, []⟩ := run_generateRequest hshort
  have hcommand := answer_runCommand here environment (generateArguments name (n :: rest)) line tree
  rw [course_of_arguments hplace hdash] at hcommand
  by_cases hneg : n < 0
  · -- the command takes the numbers for an option, the form does not find the first one
    obtain ⟨error, haccept⟩ : ∃ error, acceptNumbers ((Place.ofScan {} environment).config here)
        project.catalog name (n :: rest) = .error error :=
      acceptNumbers_of_negative project.catalog hneg rest
    obtain ⟨hafter, hstatus⟩ := status_answer htrim (runOn_refused ⟨tree, []⟩ haccept)
    rw [if_pos hneg] at hcommand
    rw [hreply, hafter, hstatus]
    show ((runCommand _ _ _ _).answer line).1.tree = tree ∧
      (((runCommand _ _ _ _).answer line).2.code = 0 ↔ _)
    rw [hcommand]
    exact ⟨rfl, iff_of_false (Nat.succ_ne_zero 1) Bool.false_ne_true⟩
  · obtain ⟨shown, hprepare⟩ := runOn_prepare hproject hname (numbers_ne_nil hindices) .append
    rw [acceptRequest_numbers _ hindices hshort] at hprepare
    rw [if_neg hneg] at hcommand
    have hfinish : command =
      Course.finish (Course.prepare ((Place.ofScan {} environment).config here) name
        (Selection.numbers (n :: rest)) (some .append) >>= Course.carryOut line) ⟨tree, []⟩ := hcommand
    rw [hfinish, hreply]
    cases haccept : acceptNumbers ((Place.ofScan {} environment).config here) project.catalog name
        (n :: rest) with
    | error error =>
        rw [haccept] at hprepare
        obtain ⟨hafter, hstatus⟩ := status_answer htrim (runOn_refused ⟨tree, []⟩ haccept)
        rw [finish_bind_of_error hprepare, hafter, hstatus]
        exact ⟨rfl, iff_of_false Nat.one_ne_zero Bool.false_ne_true⟩
    | ok endpoints =>
        rw [haccept] at hprepare
        obtain ⟨result, after, hrun, htree, hok⟩ := runOn_request ⟨tree, []⟩ haccept
        obtain ⟨hafter, hstatus⟩ := status_answer htrim hrun
        obtain ⟨hfinal, hcode⟩ := finish_decided
          ⟨(Place.ofScan {} environment).config here, project.name, name, endpoints⟩ .append line
          ⟨tree, shown⟩
        -- the generation of the command starts behind the lines about the endpoints
        have hblind : (generate ((Place.ofScan {} environment).config here) project.name name endpoints
            {} .append).Blind := .generate .append
        obtain ⟨hsame, hsameTree⟩ := hblind ⟨tree, shown⟩ ⟨tree, []⟩ rfl
        rw [finish_bind_of_ok hprepare, hafter, hstatus, hfinal, hcode, htree, hok]
        exact ⟨hsameTree, by rw [hsame]⟩

/-- A project with one endpoint. -/
def newsProject : Tree where
  entries := [(["pubspec.yaml"], .file (.text "name: shop\n")),
    (["swagger.json"], .file (.text
      "\x7b\"paths\": \x7b\"/news\": \x7b\"get\": \x7b\x7d\x7d\x7d\x7d"))]

open Yaml in
theorem read_shopManifest : Yaml.read "name: shop\n" = .ok (.object [("name", .text "shop")]) := by
  have htokens : tokens "name: shop\n" = .ok [.blockMapping, .key, .scalar "name" true, .value,
      .scalar "shop" true, .blockEnd] := by decide +kernel
  have hnode : Node.ofTokens [.blockMapping, .key, .scalar "name" true, .value,
      .scalar "shop" true, .blockEnd] =
      .ok (some (.mapping none [(.scalar none "name" true, .scalar none "shop" true)])) := by
    simp only [Node.ofTokens, Node.read, Node.blockEntries, Node.readUnless, Node.blockValue,
      Node.properties, Node.begin, Node.name]
    rfl
  have hvalue : Node.value (.mapping none [(.scalar none "name" true, .scalar none "shop" true)]) =
      .ok (.object [("name", .text "shop")]) := by
    simp only [Node.value, Node.entryFields, Node.mergedFields, Node.ownFields]
    rfl
  rw [Yaml.read, htokens]
  simp only [bind, Except.bind, hnode, hvalue]
  rfl

theorem loadProject_newsProject :
    (loadProject ((Place.ofScan {} []).config []) newsProject).isOk = true := by
  have hname : loadName newsProject ((Place.ofScan {} []).config []).manifestPath = .ok "shop" := by
    have hread : loadYaml (.manifestUnreadable "pubspec.yaml") "name: shop\n" =
        .ok (.object [("name", .text "shop")]) := by
      rw [loadYaml, read_shopManifest]
    show (loadYaml (.manifestUnreadable "pubspec.yaml") "name: shop\n" >>= _) = _
    rw [hread]
    rfl
  rw [loadProject, hname]
  decide +kernel

/-- The endpoint is selected twice. -/
theorem news_command_agrees_with_form :
    ∃ project, loadProject ((Place.ofScan {} []).config []) newsProject = .ok project ∧
      let command := (runCommand [] [] (generateArguments "news" [1, 1]) newsProject).answer none
      let reply := (answerRequest ((Place.ofScan {} []).config []) project
        (generateRequest "news" [1, 1])).run ⟨newsProject, []⟩
      command.1.tree = reply.2.tree ∧ (command.2.code = 0 ↔ reply.1.status = 200) := by
  have hloads := loadProject_newsProject
  have hplace : (Place.ofScan {} []).mayBeFolder [] newsProject = true := by decide +kernel
  cases hproject : loadProject ((Place.ofScan {} []).config []) newsProject with
  | error error =>
      rw [hproject] at hloads
      cases hloads
  | ok project =>
      refine ⟨project, rfl, ?_⟩
      exact command_agrees_with_form hplace hproject (by decide) (by decide +kernel) (by decide)
        (by decide) (by decide +kernel)

end Scaffold
