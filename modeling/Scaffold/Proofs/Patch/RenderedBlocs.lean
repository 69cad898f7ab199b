import Scaffold.Proofs.Patch.Renderings

/-!
# Extending rendered blocs

A rendered bloc has its places for rows and handlers behind those it was rendered with
(`blocPlaces_rendered`), so a bloc that is extended is the one rendered for all its endpoints. With
the other files this gives `SourceFile.extend_rendered`.
-/

namespace Scaffold

open Anchor

variable {feature : Feature} {endpoint : Endpoint} {A B endpoints : List Endpoint} {text : Text}
  {paths rows handlers : List Text}

/-! ## The parts of a bloc -/

/-- The lines between the imports of a bloc and its class. -/
def blocLibrary (feature : Feature) : Text :=
  Text.lines [
    "part '" ++ feature.name ++ "_bloc.freezed.dart';",
    "part '" ++ feature.name ++ "_event.dart';",
    "part '" ++ feature.name ++ "_state.dart';",
    [],
    "@injectable"]

/-- The line of a bloc's class up to its brace. -/
def blocHead (feature : Feature) : Text :=
  " extends Bloc<" ++ feature.eventClass ++ ", " ++ feature.stateClass ++ "> "

/-- What stands in front of the registration of the branches. -/
def blocStart (feature : Feature) : Text :=
  "\n  " ++ feature.blocClass ++ "(this._useCases) : super(const " ++ feature.stateClass ++ "()) "

/-- What stands in front of the branches in their registration. -/
def blocHandsOn (feature : Feature) : Text :=
  "\n    on<" ++ feature.eventClass ++ ">((event, emit) async "

/-- The field that holds the use cases of a bloc. -/
def blocField (feature : Feature) : Text :=
  "\n\n  final " ++ feature.useCasesClass ++ " _useCases;\n\n"

/-- What stands between the braces of a bloc. -/
def blocInside (feature : Feature) (rows handlers : List Text) : Text :=
  blocStart feature ++ '\x7b' :: (blocHandsOn feature ++
      '\x7b' :: ("\n      await event.when(\n" ++ (Text.join "\n" rows ++ "\n      );\n    ") ++ ['\x7d']) ++ ");\n  " ++ ['\x7d']) ++
    blocField feature ++ memberRow handlers

theorem blocOpening_eq (feature : Feature) :
    blocOpening feature = blocLibrary feature ++ ("class " ++ feature.blocClass ++
      (blocHead feature ++ '\x7b' :: (blocStart feature ++ '\x7b' :: (blocHandsOn feature ++
        '\x7b' :: "\n      await event.when(\n".toList)))) := by
  have hhead : ("> \x7b" : Text) = "> " ++ ['\x7b'] := Text.literal_append rfl
  have hstart : ("()) \x7b" : Text) = "()) " ++ ['\x7b'] := Text.literal_append rfl
  have hon : (">((event, emit) async \x7b" : Text) = ">((event, emit) async " ++ ['\x7b'] :=
    Text.literal_append rfl
  have hbreak : ("\n" : Text) = ['\n'] := rfl
  have hstart' : ("\n  " : Text) = "\n" ++ "  ".toList := Text.literal_append rfl
  have hon' : ("\n    on<" : Text) = "\n" ++ "    on<".toList := Text.literal_append rfl
  have hwhen : ("\n      await event.when(\n" : Text) =
      "\n" ++ ("      await event.when(".toList ++ ['\n']) := by
    repeat rw [String.toList_ofList]
    rfl
  unfold blocOpening blocLibrary blocHead blocStart blocHandsOn
  rw [hhead, hstart, hon, hstart', hon', hwhen, hbreak]
  simp -implicitDefEqProofs only [Text.lines_cons, Text.lines_nil, List.append_assoc,
    List.cons_append, List.nil_append]

theorem blocMiddle_eq (feature : Feature) :
    blocMiddle feature = "\n      );\n    " ++ '\x7d' :: (");\n  " ++ '\x7d' :: blocField feature) := by
  have hclose : ("\n      );\n    \x7d);\n  \x7d\n\n  final " : Text) = "\n      );\n    " ++
      '\x7d' :: (");\n  " ++ '\x7d' :: "\n\n  final ".toList) := by
    repeat rw [String.toList_ofList]
    rfl
  unfold blocMiddle blocField
  rw [hclose]
  simp -implicitDefEqProofs only [List.append_assoc, List.cons_append]

/-- A bloc up to the last brace, with the braces of its class. -/
theorem bloc_eq (feature : Feature) (front : Text) (rows handlers : List Text) :
    front ++ (blocOpening feature ++ Text.join "\n" rows) ++
        (blocMiddle feature ++ memberRow handlers) =
      front ++ blocLibrary feature ++ ("class " ++ feature.blocClass ++ (blocHead feature ++
        '\x7b' :: blocInside feature rows handlers)) := by
  rw [blocOpening_eq, blocMiddle_eq]
  unfold blocInside
  simp -implicitDefEqProofs only [List.append_assoc, List.cons_append, List.nil_append]

theorem renderBloc_eq (feature : Feature) (endpoints : List Endpoint) :
    renderBloc feature endpoints = importBlock (blocImports feature endpoints) ++
      (blocOpening feature ++ Text.join "\n" (endpoints.map whenCase)) ++
        (blocMiddle feature ++ memberRow (endpoints.map (blocHandler feature)) ++ "\x7d\n") := by
  have hend : ("\n\x7d\n" : Text) = "\n" ++ "\x7d\n" := Text.literal_append rfl
  unfold renderBloc memberRow
  rw [hend]
  simp only [List.append_assoc]

theorem balanced_blocInside (hfeature : feature.Plain) (hrows : ∀ row ∈ rows, Balanced row)
    (hhandlers : ∀ handler ∈ handlers, Balanced handler) :
    Balanced (blocInside feature rows handlers) := by
  have hbloc := braceless_word hfeature.blocClass
  have hevent := braceless_word hfeature.eventClass
  have hstate := braceless_word hfeature.stateClass
  have huseCases := braceless_word hfeature.useCasesClass
  have hstart : Balanced (blocStart feature) := by
    unfold blocStart
    exact .of_consists ((((Consists.append (.literal (by decide)) hbloc).append
      (.literal (by decide))).append hstate).append (.literal (by decide)))
  have hon : Balanced (blocHandsOn feature) := by
    unfold blocHandsOn
    exact .of_consists ((Consists.append (.literal (by decide)) hevent).append
      (.literal (by decide)))
  have hfield : Balanced (blocField feature) := by
    unfold blocField
    exact .of_consists ((Consists.append (.literal (by decide)) huseCases).append
      (.literal (by decide)))
  have hbranches : Balanced ("\n      await event.when(\n" ++
      (Text.join "\n" rows ++ "\n      );\n    ")) :=
    Balanced.append (.of_consists (.literal (by decide)))
      ((Balanced.join (.of_consists (.literal (by decide))) hrows).append
        (.of_consists (.literal (by decide))))
  have hregistration := (hon.append hbranches.braces).append
    (.of_consists (.literal (by decide) : Consists isBraceless ");\n  "))
  have hall := ((hstart.append hregistration.braces).append hfield).append
    (balanced_memberRow hhandlers)
  unfold blocInside
  simpa only [List.append_assoc, List.cons_append] using hall

theorem avoids_blocLibrary (hfeature : feature.Plain) (name : Text) :
    Text.Avoids ("class " ++ name) (blocLibrary feature) := by
  have hname : ' ' ∉ feature.name := hfeature.name.consists.not_mem (by decide)
  have hline : ∀ {ending : Text}, ' ' ∉ ending →
      Text.Avoids "s " ("part '" ++ feature.name ++ ending) := by
    intro ending hending
    refine (Text.Avoids.append_of_end (by decide) rfl hname).append_of_end rfl hending
  have hnone : ∀ {line : Text}, ' ' ∉ line → Text.Avoids "s " line := fun hline =>
    Text.avoids_of_not_mem (by decide) hline
  have hlines : Text.Avoids "s " (blocLibrary feature) := by
    refine .lines (by decide) (by decide) ?_
    simp only [List.forall_mem_cons]
    exact ⟨hline (by decide), hline (by decide), hline (by decide), hnone (by decide),
      hnone (by decide), List.forall_mem_nil _⟩
  exact fun hin => hlines (List.IsInfix.trans ⟨"clas", name, rfl⟩ hin)

/-- The class of a rendered bloc ends behind its handlers. -/
theorem splitClassEnd_bloc (hfeature : feature.Plain)
    (hpaths : ∀ path ∈ paths, Consists isPathChar path) (hrows : ∀ row ∈ rows, Balanced row)
    (hhandlers : ∀ handler ∈ handlers, Balanced handler) :
    splitClassEnd (importBlock paths ++ (blocOpening feature ++ Text.join "\n" rows) ++
        (blocMiddle feature ++ memberRow handlers) ++ "\x7d\n") feature.blocClass =
      .ok (importBlock paths ++ (blocOpening feature ++ Text.join "\n" rows) ++
        (blocMiddle feature ++ memberRow handlers), "\x7d\n") := by
  have hname := isPhrase_bloc hfeature
  have hword : Consists isBraceless ("class " ++ feature.blocClass) :=
    .append (.literal (by decide)) (braceless_word hfeature.blocClass)
  have hhead : Consists isBraceless (blocHead feature) := by
    unfold blocHead
    exact (((Consists.append (.literal (by decide)) (braceless_word hfeature.eventClass)).append
      (.literal (by decide))).append (braceless_word hfeature.stateClass)).append
        (.literal (by decide))
  have hfront : Text.Avoids ("class " ++ feature.blocClass) (importBlock paths ++ blocLibrary feature) :=
    avoids_of_lineJoint (.inl (startsLineAfter_importBlock paths)) hname.one_line
      (avoids_class_importBlock hname hpaths) (avoids_blocLibrary hfeature _)
  have hline : startsLineAfter true (importBlock paths ++ blocLibrary feature) = true := by
    rw [startsLineAfter_append]
    exact startsLineAfter_of_getLast? (Text.getLast?_lines (List.cons_ne_nil _ _)) _
  have hapart : StartsApart (blocHead feature ++
      '\x7b' :: (blocInside feature rows handlers ++ '\x7d' :: "\n")) := by
    rintro c ⟨⟩
    rfl
  have hsplit := splitClassEnd_of_parts hname hfront hline hword hhead hapart
    (balanced_blocInside hfeature hrows hhandlers)
  have hbrace : ("\x7d\n" : Text) = '\x7d' :: "\n".toList := rfl
  rw [bloc_eq, hbrace]
  simpa only [List.append_assoc, List.cons_append] using hsplit

/-! ## Branches -/

theorem Anchor.Silent.lines {anchor : Anchor} {lines : List Text} (hlines : anchor.WholeLines)
    (h : ∀ line ∈ lines, '\n' ∉ line ∧ ∀ rest, anchor.after? true (line ++ '\n' :: rest) = none) :
    anchor.Silent (Text.lines lines) := by
  induction lines with
  | nil => exact .nil
  | cons line lines ih =>
      obtain ⟨hbreak, hnone⟩ := h line List.mem_cons_self
      have hline : anchor.Silent (line ++ ['\n']) := fun rest => by
        rw [List.append_assoc]
        exact splitAfterLast?_line hlines hbreak (hnone rest)
      rw [Text.lines_cons, List.append_cons]
      exact hline.append (ih fun other hother => h other (List.mem_cons_of_mem _ hother))

/-- Nothing in front of the first branch is one. -/
theorem silent_blocOpening (hfeature : feature.Plain) :
    Anchor.whenCase.Silent (blocOpening feature) := by
  have hbreak : ∀ {name : Text}, AsciiWordy name → '\n' ∉ name := fun hname =>
    hname.consists.not_mem (by decide)
  have hname := hbreak hfeature.name
  have hbloc := hbreak hfeature.blocClass
  have hevent := hbreak hfeature.eventClass
  have hstate := hbreak hfeature.stateClass
  have hflush : ∀ {c : Char} {rest : Text}, isIndent c = false →
      after? .whenCase true (c :: rest) = none := fun hc => after?_of_not_indent (.inl rfl) hc
  have hconstructor : ∀ rest, after? .whenCase true ("  " ++ feature.blocClass ++
      "(this._useCases) : super(const " ++ feature.stateClass ++ "()) \x7b" ++ '\n' :: rest) =
        none := by
    intro rest
    have hne : feature.blocClass ≠ [] := by simp [Feature.blocClass]
    simp only [List.append_assoc]
    refine after?_of_word "  " (by decide) (fun c hc => isWordChar_of_ascii (hfeature.blocClass c hc))
      hne ?_ rfl
    rintro c ⟨⟩
    rfl
  refine .lines (.inl rfl) ?_
  repeat rw [String.toList_ofList] at hconstructor
  repeat rw [String.toList_ofList]
  simp only [List.forall_mem_cons]
  refine ⟨⟨?_, fun rest => hflush rfl⟩, ⟨?_, fun rest => hflush rfl⟩, ⟨?_, fun rest => hflush rfl⟩,
    ⟨by simp, fun rest => hflush rfl⟩, ⟨by decide, fun rest => hflush rfl⟩,
    ⟨?_, fun rest => hflush rfl⟩, ⟨?_, hconstructor⟩, ⟨?_, fun rest => rfl⟩,
    ⟨by decide, fun rest => rfl⟩, List.forall_mem_nil _⟩
  all_goals
    simp only [List.mem_append, hname, hbloc, hevent, hstate]
    decide

theorem silent_importBlock (hpaths : ∀ path ∈ paths, Consists isPathChar path) :
    Anchor.whenCase.Silent (importBlock paths) := by
  by_cases hne : paths = []
  · rw [hne]
    exact .nil
  · have hbreak : Inert ([] ++ ['\n']) := .line (by simp) (by simp) (by simp)
    have hinert : Inert (importBlock paths) := by
      rw [importBlock_eq hne]
      exact (inert_importLines hpaths).append hbreak
    intro rest
    rw [hinert.split (.inl rfl), hinert.ends_line]

/-- Nothing between the last branch and the end of the class is one. -/
theorem silent_handlers (hfeature : feature.Plain) (h : ∀ endpoint ∈ endpoints, endpoint.Plain)
    (hne : endpoints ≠ []) :
    ∃ rest, blocMiddle feature ++ memberRow (endpoints.map (blocHandler feature)) = '\n' :: rest ∧
      Anchor.whenCase.Silent rest := by
  have hliteral : ∀ {characters : List Char}, characters.getLast? = some '\n' →
      '\n' ∉ characters.dropLast → (∀ rest, after? .whenCase true (characters ++ rest) = none) →
      Anchor.whenCase.Silent (String.ofList characters : Text) := Anchor.Silent.literal (.inl rfl)
  have hfield : Anchor.whenCase.Silent ("  final " ++ (feature.useCasesClass ++ " _useCases;") ++
      ['\n']) := by
    refine .line (.inl rfl) ?_ fun rest => rfl
    have hclass : '\n' ∉ feature.useCasesClass := hfeature.useCasesClass.consists.not_mem (by decide)
    simp only [List.mem_append, hclass]
    decide
  have hhandlers : Anchor.whenCase.Silent (memberRow (endpoints.map (blocHandler feature))) := by
    refine .members (.inl rfl) ?_ (by simpa using hne)
    exact List.forall_mem_map.2 fun endpoint hendpoint =>
      silent_blocHandler hfeature (h endpoint hendpoint)
  have hmiddle : Anchor.whenCase.Silent (["      );\n", "    \x7d);\n", "  \x7d\n", "\n",
      "  final " ++ (feature.useCasesClass ++ " _useCases;") ++ ['\n'], "\n"] : List Text).flatten := by
    refine .flatten ?_
    simp only [List.forall_mem_cons]
    exact ⟨hliteral rfl (by decide) fun _ => rfl, hliteral rfl (by decide) fun _ => rfl,
      hliteral rfl (by decide) fun _ => rfl, hliteral rfl (by decide) fun _ => rfl, hfield,
      hliteral rfl (by decide) fun _ => rfl, List.forall_mem_nil _⟩
  refine ⟨_, ?_, hmiddle.append hhandlers⟩
  have hopen : ("\n      );\n    \x7d);\n  \x7d\n\n  final " : Text) = '\n' :: ("      );\n" ++
      ("    \x7d);\n" ++ ("  \x7d\n" ++ ("\n" ++ "  final ")))) := by
    repeat rw [String.toList_ofList]
    rfl
  have hend : (" _useCases;\n\n" : Text) = " _useCases;" ++ ('\n' :: "\n".toList) := by
    repeat rw [String.toList_ofList]
    rfl
  unfold blocMiddle
  rw [hopen, hend]
  simp -implicitDefEqProofs only [List.flatten_cons, List.flatten_nil, List.append_assoc,
    List.cons_append, List.nil_append]

theorem cut_renderBloc (hfeature : feature.Plain) (hpaths : ∀ path ∈ paths, Consists isPathChar path)
    (h : ∀ endpoint ∈ endpoints, endpoint.Plain)
    (hnames : ∀ endpoint ∈ endpoints, endpoint.methodName ≠ []) (hne : endpoints ≠ [])
    {rest : Text} (hrest : Anchor.whenCase.Idle false ('\n' :: rest)) :
    Anchor.whenCase.Cut (importBlock paths ++ (blocOpening feature ++
      Text.join "\n" (endpoints.map whenCase))) ('\n' :: rest) := by
  obtain ⟨first, others, rfl⟩ := List.exists_cons_of_ne_nil hne
  obtain ⟨hfirst, hothers⟩ := List.forall_mem_cons.1 h
  obtain ⟨hname, hnames⟩ := List.forall_mem_cons.1 hnames
  have hbreaks : BreaksLine ('\n' :: rest) := by simp [BreaksLine]
  have hmatch := after?_whenCase_append hfirst hname hbreaks
  obtain ⟨hfirstne, hmid⟩ : whenCase first ≠ [] ∧ startsLineAfter true (whenCase first) = false := by
    obtain ⟨matched, hmatched, heq, hline⟩ := after?_eq_some hmatch
    rw [List.append_cancel_right heq]
    exact ⟨hmatched, hline (.inl rfl) true⟩
  have hcut : Anchor.whenCase.Cut (importBlock paths ++ (blocOpening feature ++ whenCase first))
      ('\n' :: rest) := by
    have hidle : Anchor.whenCase.splitAfterLast? false 0 ('\n' :: rest) = none := hrest
    unfold Cut
    rw [List.append_assoc, List.append_assoc, silent_importBlock hpaths,
      silent_blocOpening hfeature, splitAfterLast?_match hmatch hfirstne, hmid, hidle]
    rfl
  have hrow : Text.join "\n" ((first :: others).map whenCase) =
      whenCase first ++ preceded "\n" (others.map whenCase) :=
    Text.join_append_preceded (List.cons_ne_nil (whenCase first) [])
  by_cases hnil : others = []
  · rw [hnil]
    exact hcut
  · rw [hrow, ← List.append_assoc, ← List.append_assoc, List.append_assoc (importBlock paths)]
    exact cut_whenCases hcut hothers hnames hnil

theorem exists_blocOpening (feature : Feature) :
    ∃ c rest, blocOpening feature = c :: rest ∧ c ≠ '\n' :=
  ⟨_, _, rfl, by decide⟩

theorem startsLineAfter_blocOpening (feature : Feature) (lineStart : Bool) :
    startsLineAfter lineStart (blocOpening feature) = true :=
  startsLineAfter_of_getLast? (Text.getLast?_lines (List.cons_ne_nil _ _)) lineStart

theorem codeRows (h : ∀ endpoint ∈ endpoints, endpoint.Plain) :
    Consists isCodeChar (Text.join "\n" (endpoints.map whenCase)) :=
  .join (.literal (by decide)) (List.forall_mem_map.2 fun endpoint hendpoint =>
    code_whenCase (h endpoint hendpoint))

/-- A rendered bloc has its places behind its branches and behind its handlers. -/
theorem blocPlaces_rendered (hfeature : feature.Plain)
    (hpaths : ∀ path ∈ paths, Consists isPathChar path) (h : ∀ endpoint ∈ endpoints, endpoint.Plain)
    (hnames : ∀ endpoint ∈ endpoints, endpoint.methodName ≠ []) (hne : endpoints ≠ []) :
    BlocPlaces .unions feature
      (importBlock paths ++ (blocOpening feature ++ Text.join "\n" (endpoints.map whenCase)))
      (blocMiddle feature ++ memberRow (endpoints.map (blocHandler feature))) "\x7d\n" := by
  have hrows : ∀ row ∈ endpoints.map whenCase, Balanced row :=
    List.forall_mem_map.2 fun endpoint hendpoint =>
      .of_consists (BlocStyle.braceless_row (h endpoint hendpoint) :
        Consists _ (BlocStyle.unions.row endpoint))
  have hhandlers : ∀ handler ∈ endpoints.map (blocHandler feature), Balanced handler :=
    List.forall_mem_map.2 fun endpoint hendpoint =>
      (BlocStyle.balanced_handler hfeature (h endpoint hendpoint) :
        Balanced (BlocStyle.unions.handler feature endpoint))
  obtain ⟨rest, hrest, hsilent⟩ := silent_handlers hfeature h hne
  have hidle : ∀ {tail : Text}, Anchor.whenCase.Idle true tail →
      Anchor.whenCase.Idle false ('\n' :: (rest ++ tail)) := fun htail =>
    idle_cons_iff.2 ⟨after?_of_mid_line (.inl rfl), hsilent.idle.2 htail⟩
  have hends := splitClassEnd_bloc hfeature hpaths hrows hhandlers
  rw [hrest] at hends ⊢
  refine ⟨?_, ?_, ?_, ?_, ?_⟩
  · exact cut_renderBloc hfeature hpaths h hnames hne (hidle rfl)
  · have hend := cut_renderBloc hfeature hpaths h hnames hne (hidle idle_nil)
    rwa [List.append_nil] at hend
  · rwa [List.append_assoc] at hends
  · -- the last line up to its end stands in the branches, where no quotes are
    have hquote : '\'' ∉ Text.join "\n" (endpoints.map whenCase) := (codeRows h).not_mem (by decide)
    have hline : startsLineAfter true (importBlock paths ++ blocOpening feature) = true := by
      rw [startsLineAfter_append, startsLineAfter_blocOpening]
    rw [← List.append_assoc, lineEnd_of_lineStart hline]
    refine Text.avoids_of_not_mem (c := '\'') (by decide) fun hmem => hquote ?_
    unfold lineEnd at hmem
    rw [List.mem_reverse] at hmem
    exact List.mem_reverse.1 (List.takeWhile_subset _ hmem)
  · have hline : startsLineAfter true (importBlock paths ++ (blocOpening feature ++
        Text.join "\n" (endpoints.map whenCase)) ++ ('\n' :: rest)) = true := by
      rw [← hrest, ← List.append_assoc, memberRow, ← List.append_assoc]
      exact startsLineAfter_concat true _ '\n'
    unfold lineAt
    rw [← List.append_nil (_ ++ '\n' :: rest), lineEnd_of_lineStart hline]
    decide

/-- Putting in rows and handlers for more endpoints gives the bloc rendered for all of them. -/
theorem insert_bloc_rendered (hfeature : feature.Plain) (hA : ∀ endpoint ∈ A, endpoint.Plain)
    (hB : ∀ endpoint ∈ B, endpoint.Plain) (hnames : ∀ endpoint ∈ A, endpoint.methodName ≠ [])
    (hAne : A ≠ []) (hBne : B ≠ []) :
    BlocStyle.unions.insert feature (renderBloc feature A) B =
      .ok (renderBloc feature (A ++ B)) := by
  have hAB : ∀ endpoint ∈ A ++ B, endpoint.Plain := List.forall_mem_append.2 ⟨hA, hB⟩
  have hfixed := hfeature.blocFixedImports
  have hpaths : ∀ path ∈ blocImports feature (A ++ B), Consists isPathChar path :=
    consists_imports hfeature (fun path h => (hfixed path h).1) hAB
  have hcode : ImportFree feature (Text.join "\n" (A.map whenCase) ++
      ((blocMiddle feature ++ memberRow (A.map (blocHandler feature))) ++ "\x7d\n")) := by
    have hmiddle : Consists isCodeChar (blocMiddle feature) := by
      unfold blocMiddle
      exact (Consists.append (.literal (by decide)) hfeature.useCasesClass.code).append
        (.literal (by decide))
    have hhandlers : Consists isCodeChar (memberRow (A.map (blocHandler feature))) :=
      .append (.join (.literal (by decide)) (List.forall_mem_map.2 fun endpoint hendpoint =>
        code_blocHandler hfeature (hA endpoint hendpoint))) (.literal (by decide))
    exact .code ((codeRows hA).append ((hmiddle.append hhandlers).append (.literal (by decide))))
  have hfree := (importFree_blocOpening hfeature).append hfeature
    (.inl (startsLineAfter_blocOpening feature true)) hcode
  have hplaces := blocPlaces_rendered hfeature hpaths hA hnames hAne
  have himports : insertImports (renderBloc feature A) (feature.modelImports B) =
      importBlock (blocImports feature (A ++ B)) ++ (blocOpening feature ++
        Text.join "\n" (A.map whenCase)) ++ ((blocMiddle feature ++
          memberRow (A.map (blocHandler feature))) ++ "\x7d\n") := by
    obtain ⟨c, rest, hopening, hc⟩ := exists_blocOpening feature
    rw [hopening, List.cons_append] at hfree
    have hrendered := insertImports_rendered hfeature hfixed hA hB hfree hc
    rw [← List.cons_append, ← hopening] at hrendered
    rw [renderBloc_eq]
    unfold blocImports
    simpa only [List.append_assoc] using hrendered
  have hrows : Text.join "\n" (A.map whenCase) ++ BlocStyle.unions.rows B =
      Text.join "\n" ((A ++ B).map whenCase) := by
    rw [List.map_append]
    exact (Text.join_append_preceded (by simpa using hAne)).symm
  have hhandlers : memberRow (A.map (blocHandler feature)) ++ BlocStyle.unions.handlers feature B =
      memberRow ((A ++ B).map (blocHandler feature)) := by
    rw [List.map_append]
    exact memberRow_append (by simpa using hAne) (by simpa using hBne)
  rw [hplaces.insert_eq hfeature hB hBne himports, renderBloc_eq,
    ← hrows, ← hhandlers]
  simp only [List.append_assoc]

/-! ## The files -/

namespace SourceFile

variable {source : SourceFile} {content : Text}

/-- The name by which the member for an endpoint is looked for. -/
def memberName (endpoint : Endpoint) : SourceFile → Text
  | ofClass _ => endpoint.methodName
  | event => endpoint.eventName
  | state => endpoint.stateField
  | bloc => endpoint.handlerName

/-- Puts the members for the endpoints, and the imports that they need, into a file. -/
def insert (feature : Feature) (content : Text) (endpoints : List Endpoint) :
    SourceFile → Except MissingAnchor Text
  | ofClass file => file.insert feature content endpoints
  | event => insertAfterLast content .eventCase (preceded "\n\n" (endpoints.map (eventCase feature)))
  | state => insertAfterLast content .stateFields (preceded "\n" (endpoints.map stateField))
  | bloc => BlocStyle.unions.insert feature content endpoints

theorem ofContent_of_handsOnCases (h : handsOnCases content = true) :
    BlocStyle.ofContent content = .unions := by
  rw [BlocStyle.ofContent, h]
  rfl

theorem extend_of_inStyle (h : source.inStyle content = true) (feature : Feature)
    (endpoints : List Endpoint) :
    (source.part feature endpoints).extend content =
      completeWith (fun content new => source.insert feature content new) content
        (lacking content (source.memberName ·) endpoints) := by
  cases source with
  | ofClass file => exact file.extend_eq feature content endpoints
  | event => exact (extendEvents_eq feature content endpoints).trans (if_pos h)
  | state => exact (extendState_eq feature content endpoints).trans (if_pos h)
  | bloc =>
      show extendBloc feature content endpoints = _
      rw [extendBloc_eq_completeWith, ofContent_of_handsOnCases h]
      rfl

/-- Putting in the members for more endpoints gives the file rendered for all of them. Only a service
file has the paths of its endpoints, which may look like imports. -/
theorem insert_full (source : SourceFile) (hfeature : feature.Plain)
    (hA : ∀ endpoint ∈ A, endpoint.Plain) (hB : ∀ endpoint ∈ B, endpoint.Plain)
    (hquiet : source = .ofClass .service → ∀ endpoint ∈ A, endpoint.Quiet)
    (hnames : ∀ endpoint ∈ A, endpoint.methodName ≠ []) (hAne : A ≠ []) (hBne : B ≠ []) :
    source.insert feature (source.part feature A).full B =
      .ok (source.part feature (A ++ B)).full := by
  cases source with
  | ofClass file =>
      refine file.insert_rendered hfeature hA hB (fun endpoint hmem => ?_) hAne hBne
      by_cases hfile : file = .service
      · exact file.importFree_member hfeature (hquiet (by rw [hfile]) endpoint hmem)
      · exact .code (ClassFile.code_member hfile hfeature (hA endpoint hmem))
  | event => exact insert_events_rendered hfeature hA hAne B
  | state => exact insert_fields_rendered hfeature hA B
  | bloc => exact insert_bloc_rendered hfeature hA hB hnames hAne hBne

theorem isWord_memberName (source : SourceFile) (hplain : endpoint.Plain)
    (hname : endpoint.methodName ≠ []) : IsWord (source.memberName endpoint) := by
  cases source with
  | ofClass file => exact hplain.methodName.isWord hname
  | event => exact hplain.eventName.isWord (by simp [Endpoint.eventName])
  | state => exact hplain.stateField.isWord (by simp [Endpoint.stateField])
  | bloc => exact hplain.handlerName.isWord (by simp [Endpoint.handlerName])

/-- A rendered file mentions the members of all its endpoints. -/
theorem mentions_full (source : SourceFile) (feature : Feature) (h : endpoint ∈ endpoints) :
    Mentions (source.part feature endpoints).full (source.memberName endpoint) := by
  cases source with
  | ofClass file => exact file.mentions_render h
  | event =>
      have hcase : eventCase feature endpoint <:+:
          Text.join "\n\n" (endpoints.map (eventCase feature)) :=
        Text.infix_join (List.mem_map_of_mem h)
      exact (mentions_eventCase feature endpoint).of_part
        (hcase.trans ⟨partOpening feature feature.eventClass, "\n\x7d\n", rfl⟩)
  | state =>
      have hfield : stateField endpoint <:+:
          Text.join "\n" (commonStateFields ++ endpoints.map stateField) :=
        Text.infix_join (List.mem_append_right _ (List.mem_map_of_mem h))
      refine (mentions_stateField endpoint).of_part (hfield.trans ?_)
      show _ <:+: renderState feature endpoints
      rw [renderState_eq]
      exact ⟨partOpening feature feature.stateClass ++ "  " ++ ("const factory" ++ stateHead feature),
        stateFoot feature, by simp only [List.append_assoc]⟩
  | bloc =>
      have hrow : whenCase endpoint <:+: Text.join "\n" (endpoints.map whenCase) :=
        Text.infix_join (List.mem_map_of_mem h)
      refine (mentions_whenCase endpoint).of_part (hrow.trans ?_)
      show _ <:+: renderBloc feature endpoints
      rw [renderBloc_eq]
      exact ⟨importBlock (blocImports feature endpoints) ++ blocOpening feature,
        blocMiddle feature ++ memberRow (endpoints.map (blocHandler feature)) ++ "\x7d\n",
        by simp only [List.append_assoc]⟩

/-- A rendered file that is extended by endpoints, some of which are new to it and the others those
it was rendered for, is the file rendered for the new ones as well. -/
theorem extend_rendered (source : SourceFile) {isNew : Endpoint → Bool} (hfeature : feature.Plain)
    (hA : ∀ endpoint ∈ A, endpoint.Quiet) (hplain : ∀ endpoint ∈ endpoints, endpoint.Quiet)
    (hnames : ∀ endpoint ∈ A, endpoint.methodName ≠ []) (hne : A ≠ [])
    (hknown : ∀ endpoint ∈ endpoints, isNew endpoint = false → endpoint ∈ A)
    (hnew : ∀ endpoint ∈ endpoints, isNew endpoint = true →
      hasMember (source.part feature A).full (source.memberName endpoint) = false) :
    (source.part feature endpoints).extend (source.part feature A).full =
      .ok (source.part feature (A ++ endpoints.filter isNew)).full := by
  have hstyle := source.inStyle_full feature hne
  have hlacking : lacking (source.part feature A).full (source.memberName ·) endpoints =
      endpoints.filter isNew := by
    refine List.filter_congr fun endpoint hendpoint => ?_
    cases hanswer : isNew endpoint with
    | false =>
        have hmem := hknown endpoint hendpoint hanswer
        have hword := source.isWord_memberName (hA endpoint hmem).toPlain (hnames endpoint hmem)
        rw [(source.mentions_full feature hmem).hasMember hword]
        rfl
    | true =>
        rw [hnew endpoint hendpoint hanswer]
        rfl
  rw [extend_of_inStyle hstyle, hlacking]
  by_cases hnil : endpoints.filter isNew = []
  · rw [hnil, List.append_nil]
    rfl
  · rw [completeWith_of_ne_nil hnil]
    exact source.insert_full hfeature (fun endpoint h => (hA endpoint h).toPlain)
      (fun endpoint h => (hplain endpoint (List.mem_of_mem_filter h)).toPlain) (fun _ => hA) hnames hne
      hnil

end SourceFile

end Scaffold
