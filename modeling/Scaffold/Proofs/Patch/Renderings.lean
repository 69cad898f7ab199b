import Scaffold.Proofs.Dart.Mentions
import Scaffold.Proofs.Patch.Declarations
import Scaffold.Proofs.Patch.RenderedImports

/-!
# Extending rendered files

A rendered file that is extended by further endpoints is the file rendered for all of them
(`SourceFile.extend_rendered`). Each edit of the extension finds its anchor at the end of what has
been rendered for the endpoints so far: the last brace or the end of the class (`splitEnd_rendered`,
`splitClassEnd_of_parts`), or the last case, field or branch.
-/

namespace Scaffold

open Anchor

variable {feature : Feature} {endpoint : Endpoint} {A B endpoints : List Endpoint}
  {a b rest text name head inside front mark : Text} {parts : List Text}

/-! ## Class files -/

theorem splitBlockEnd?_braces (hinside : Balanced inside) :
    splitBlockEnd? 0 false ('\x7b' :: (inside ++ '\x7d' :: rest)) =
      some ('\x7b' :: inside, '\x7d' :: rest) := by
  have hclose : splitBlockEnd? 1 true ('\x7d' :: rest) = some ([], '\x7d' :: rest) := rfl
  have hopen : splitBlockEnd? 0 false ('\x7b' :: (inside ++ '\x7d' :: rest)) =
      (splitBlockEnd? 1 true (inside ++ '\x7d' :: rest)).map fun parts =>
        ('\x7b' :: parts.1, parts.2) := rfl
  rw [hopen, hinside 1 _ (Int.le_refl 1), hclose]
  simp

/-- A class ends with the brace behind the balanced text in the first braces from its header on. -/
theorem splitClassEnd_of_head (hsplit : splitWord? ("class " ++ name) none text =
      some (front, head ++ '\x7b' :: (inside ++ '\x7d' :: rest)))
    (hopen : '\x7b' ∉ head) (hclose : '\x7d' ∉ head) (hinside : Balanced inside) :
    splitClassEnd text name = .ok (front ++ (head ++ '\x7b' :: inside), '\x7d' :: rest) := by
  have hends : splitBlockEnd? 0 false (head ++ '\x7b' :: (inside ++ '\x7d' :: rest)) =
      some (head ++ '\x7b' :: inside, '\x7d' :: rest) := by
    rw [splitBlockEnd?_skip hopen hclose, splitBlockEnd?_braces hinside]
    rfl
  rw [← toOption_eq_some_iff, splitClassEnd_toOption, hsplit, Option.bind_some]
  dsimp only
  rw [hends]
  rfl

/-- A class ends with the brace behind the balanced text in its braces. -/
theorem splitClassEnd_of_parts (hname : IsPhrase ("class " ++ name))
    (hfront : Text.Avoids ("class " ++ name) front) (hline : startsLineAfter true front = true)
    (hword : Consists isBraceless ("class " ++ name)) (hhead : Consists isBraceless head)
    (hapart : StartsApart (head ++ '\x7b' :: (inside ++ '\x7d' :: rest)))
    (hinside : Balanced inside) :
    splitClassEnd (front ++ ("class " ++ name ++ (head ++ '\x7b' :: (inside ++ '\x7d' :: rest))))
      name = .ok (front ++ ("class " ++ name ++ (head ++ '\x7b' :: inside)), '\x7d' :: rest) := by
  have hprevious : ∀ c ∈ lastOr none front, isWordChar c = false := by
    intro c hc
    rw [lastOr, Option.or_none] at hc
    rw [getLast?_of_startsLineAfter hline c hc]
    exact isWordChar_break
  have hsplit : splitWord? ("class " ++ name) none
      (front ++ ("class " ++ name ++ (head ++ '\x7b' :: (inside ++ '\x7d' :: rest)))) =
        some (front, "class " ++ name ++ head ++ '\x7b' :: (inside ++ '\x7d' :: rest)) := by
    rw [splitWord?_skip hname hfront (.inl hline),
      splitWord?_of_isSome (hname.afterWord?_isSome_iff.2 ⟨_, rfl, hprevious, hapart⟩)]
    simp
  have hbraceless : Consists isBraceless ("class " ++ name ++ head) := hword.append hhead
  rw [splitClassEnd_of_head hsplit (hbraceless.not_mem (by decide)) (hbraceless.not_mem (by decide))
    hinside, List.append_assoc]

theorem startsLineAfter_importBlock (paths : List Text) :
    startsLineAfter true (importBlock paths) = true := by
  by_cases hne : paths = []
  · rw [hne]
    rfl
  · rw [importBlock_eq hne]
    exact startsLineAfter_concat true _ '\n'

theorem avoids_class_importBlock {paths : List Text} (hname : IsPhrase ("class " ++ name))
    (hpaths : ∀ path ∈ paths, Consists isPathChar path) :
    Text.Avoids ("class " ++ name) (importBlock paths) := by
  by_cases hne : paths = []
  · rw [hne]
    exact Text.avoids_of_not_mem (c := ' ') (by simp) (by decide)
  · rw [importBlock_eq hne]
    exact avoids_of_lineJoint (.inr (by rintro c ⟨⟩; rfl)) hname.one_line
      (avoids_class_importLines name hpaths)
      (Text.avoids_of_not_mem (c := ' ') (by simp) (by decide))

/-- The imports of a rendered file are written with the characters of paths. -/
theorem consists_imports {fixed : List Text} (hfeature : feature.Plain)
    (hfixed : ∀ path ∈ fixed, Consists isPathChar path)
    (h : ∀ endpoint ∈ endpoints, endpoint.Plain) :
    ∀ path ∈ (fixed ++ feature.modelImports endpoints).eraseDups, Consists isPathChar path := by
  intro path hpath
  rw [List.mem_eraseDups, List.mem_append] at hpath
  obtain hpath | hpath := hpath
  · exact hfixed path hpath
  · exact (mem_modelImports feature h path hpath).consists hfeature

theorem braceless_word {word : Text} (h : AsciiWordy word) : Consists isBraceless word :=
  takesTokens_isBraceless.of_asciiWordy h

/-- Members with an empty line between neighbours, and the line break behind the last one. -/
def memberRow (members : List Text) : Text := Text.join "\n\n" members ++ "\n"

/-- Members go in behind a row of members as its last ones. -/
theorem memberRow_append {members others : List Text} (hmembers : members ≠ [])
    (hothers : others ≠ []) :
    memberRow members ++ memberBlock "\n\n" others = memberRow (members ++ others) := by
  have hbreaks : ("\n\n" : Text) = "\n" ++ "\n" := Text.literal_append rfl
  unfold memberRow memberBlock
  rw [Text.join_append hmembers hothers]
  generalize Text.join "\n\n" members = first
  generalize Text.join "\n\n" others = second
  rw [hbreaks]
  simp only [List.append_assoc]

theorem importFree_memberRow {members : List Text} (hfeature : feature.Plain)
    (h : ∀ member ∈ members, ImportFree feature member) : ImportFree feature (memberRow members) := by
  have hbreaks : ImportFree feature "\n\n" := .of_not_mem (by decide) (by decide)
  have hbreak : ImportFree feature "\n" := .of_not_mem (by decide) (by decide)
  exact (ImportFree.join hfeature rfl rfl hbreaks h).append hfeature (.inr (by rintro c ⟨⟩; rfl))
    hbreak

theorem balanced_memberRow {members : List Text} (h : ∀ member ∈ members, Balanced member) :
    Balanced (memberRow members) :=
  (Balanced.join (.of_consists (.literal (by decide))) h).append
    (.of_consists (.literal (by decide)))

namespace ClassFile

theorem render_eq (file : ClassFile) (feature : Feature) (endpoints : List Endpoint) :
    file.render feature endpoints = importBlock (file.imports feature endpoints) ++
      (file.opening feature ++ (memberRow (endpoints.map (file.member feature ·)) ++ "\x7d\n")) := by
  have hclose : ("\n\x7d\n" : Text) = "\n" ++ "\x7d\n" := Text.literal_append rfl
  unfold render memberRow
  rw [hclose]
  simp only [List.append_assoc]

theorem exists_opening (file : ClassFile) (feature : Feature) :
    ∃ c rest, file.opening feature = c :: rest ∧ c ≠ '\n' := by
  cases file <;> exact ⟨_, _, rfl, by decide⟩

theorem startsLineAfter_opening (file : ClassFile) (feature : Feature) :
    startsLineAfter true (file.opening feature) = true := by
  cases file <;> exact startsLineAfter_of_getLast? (Text.getLast?_lines (List.cons_ne_nil _ _)) true

/-- What stands in the class of the use cases in front of its members. -/
def useCasesBody (feature : Feature) : Text :=
  "\n  " ++ feature.useCasesClass ++ "(this.repository);\n\n  final " ++ feature.repositoryClass ++
    " repository;\n\n"

theorem useCasesOpening_eq (feature : Feature) :
    useCases.opening feature = "@injectable\n" ++
      ("class " ++ feature.useCasesClass ++ (" " ++ '\x7b' :: useCasesBody feature)) := by
  have hinject : ("@injectable\n" : Text) = "@injectable" ++ ['\n'] := Text.literal_append rfl
  have hbrace : (" \x7b" : Text) = " " ++ ['\x7b'] := Text.literal_append rfl
  have hstart : ("\n  " : Text) = ['\n'] ++ "  ".toList := rfl
  have hcreate : ("(this.repository);\n\n  final " : Text) =
      "(this.repository);" ++ (['\n'] ++ (['\n'] ++ "  final ".toList)) := by
    repeat rw [String.toList_ofList]
    rfl
  have hfield : (" repository;\n\n" : Text) = " repository;" ++ (['\n'] ++ ['\n']) := by
    repeat rw [String.toList_ofList]
    rfl
  unfold opening useCasesBody
  rw [hinject, hbrace, hstart, hcreate, hfield]
  simp -implicitDefEqProofs only [Text.lines_cons, Text.lines_nil, List.append_assoc,
    List.cons_append, List.nil_append]

theorem balanced_useCasesBody (hfeature : feature.Plain) : Balanced (useCasesBody feature) := by
  have hclass := braceless_word hfeature.useCasesClass
  have hrepository := braceless_word hfeature.repositoryClass
  unfold useCasesBody
  exact .of_consists ((((Consists.append (.literal (by decide)) hclass).append
    (.literal (by decide))).append hrepository).append (.literal (by decide)))

/-- A rendered file is cut where members go in behind its members, whatever its imports are. -/
theorem splitEnd_rendered (file : ClassFile) {paths members : List Text} (hfeature : feature.Plain)
    (hpaths : ∀ path ∈ paths, Consists isPathChar path)
    (hmembers : file = .useCases → ∀ member ∈ members, Balanced member) :
    file.splitEnd feature (importBlock paths ++
        (file.opening feature ++ (memberRow members ++ "\x7d\n"))) =
      .ok (importBlock paths ++ (file.opening feature ++ memberRow members), "\x7d\n") := by
  by_cases hfile : file = .useCases
  · subst hfile
    have hname := isPhrase_useCases hfeature
    have hword : Consists isBraceless ("class " ++ feature.useCasesClass) :=
      .append (.literal (by decide)) (braceless_word hfeature.useCasesClass)
    have hfront : Text.Avoids ("class " ++ feature.useCasesClass)
        (importBlock paths ++ "@injectable\n") :=
      avoids_of_lineJoint (.inl (startsLineAfter_importBlock paths)) hname.one_line
        (avoids_class_importBlock hname hpaths)
        (Text.avoids_of_not_mem (c := ' ') (by simp) (by decide))
    have hline : startsLineAfter true (importBlock paths ++ "@injectable\n") = true := by
      rw [startsLineAfter_append]
      rfl
    have hapart : StartsApart (" " ++ '\x7b' ::
        (useCasesBody feature ++ memberRow members ++ '\x7d' :: "\n")) := by
      rintro c ⟨⟩
      rfl
    have hsplit := splitClassEnd_of_parts hname hfront hline hword (.literal (by decide)) hapart
      ((balanced_useCasesBody hfeature).append (balanced_memberRow (hmembers rfl)))
    rw [useCasesOpening_eq]
    simpa [splitEnd] using hsplit
  · rw [splitEnd_of_ne hfile]
    exact ⟨by simp only [List.append_assoc], "\n", rfl, by decide⟩

/-- Putting in the members for more endpoints gives the file rendered for all of them, unless the
members that are there look like imports. -/
theorem insert_rendered (file : ClassFile) (hfeature : feature.Plain)
    (hA : ∀ endpoint ∈ A, endpoint.Plain) (hB : ∀ endpoint ∈ B, endpoint.Plain)
    (hquiet : ∀ endpoint ∈ A, ImportFree feature (file.member feature endpoint)) (hAne : A ≠ [])
    (hBne : B ≠ []) :
    file.insert feature (file.render feature A) B = .ok (file.render feature (A ++ B)) := by
  have hfixed := hfeature.fixedImports file
  obtain ⟨c, rest, hopening, hc⟩ := file.exists_opening feature
  have hfree : ImportFree feature
      (file.opening feature ++ (memberRow (A.map (file.member feature ·)) ++ "\x7d\n")) := by
    have hrow : ImportFree feature (memberRow (A.map (file.member feature ·))) :=
      importFree_memberRow hfeature (List.forall_mem_map.2 hquiet)
    exact (file.importFree_opening hfeature).append hfeature
      (.inl (file.startsLineAfter_opening feature))
      (hrow.append hfeature (.inl (startsLineAfter_concat true _ '\n'))
        (.of_not_mem (by decide) (by decide)))
  have himports : insertImports (file.render feature A) (feature.modelImports B) =
      importBlock (file.imports feature (A ++ B)) ++
        (file.opening feature ++ (memberRow (A.map (file.member feature ·)) ++ "\x7d\n")) := by
    rw [hopening] at hfree
    rw [render_eq, hopening]
    exact insertImports_rendered hfeature hfixed hA hB hfree hc
  have hpaths : ∀ path ∈ file.imports feature (A ++ B), Consists isPathChar path :=
    consists_imports hfeature (fun path h => (hfixed path h).1)
      (List.forall_mem_append.2 ⟨hA, hB⟩)
  have hbalanced : file = .useCases → ∀ member ∈ A.map (file.member feature ·), Balanced member := by
    rintro rfl
    exact List.forall_mem_map.2 fun endpoint h => balanced_member hfeature (hA endpoint h)
  have hmembers : memberRow (A.map (file.member feature ·)) ++
      memberBlock "\n\n" (B.map (file.member feature ·)) =
        memberRow ((A ++ B).map (file.member feature ·)) := by
    rw [memberRow_append (by simpa using hAne) (by simpa using hBne), List.map_append]
  rw [insert_eq, himports, file.splitEnd_rendered hfeature hpaths hbalanced, Except.map, render_eq,
    ← hmembers]
  simp only [List.append_assoc]

end ClassFile

/-! ## Cases and fields -/

theorem Text.join_append_preceded {separator : Text} {others : List Text} (hparts : parts ≠ []) :
    Text.join separator (parts ++ others) =
      Text.join separator parts ++ preceded separator others := by
  induction others generalizing parts with
  | nil => simp [preceded]
  | cons other others ih =>
      have hone : Text.join separator (parts ++ [other]) =
          Text.join separator parts ++ separator ++ other := by
        rw [Text.join_append hparts (by simp)]
        rfl
      rw [List.append_cons, ih (by simp), hone]
      simp [preceded]

/-- A match of these patterns starts with the words in front of a union's case. -/
theorem Anchor.prefix_factory {anchor : Anchor} {lineStart : Bool}
    (hanchor : anchor = .eventCase ∨ anchor = .stateFields)
    (h : (anchor.after? lineStart text).isSome) : "const factory".toList <+: text := by
  obtain ⟨rest, hrest⟩ := Option.isSome_iff_exists.1 h
  obtain rfl | rfl := hanchor
  · rw [after?_eventCase] at hrest
    obtain ⟨middle, hmiddle, -⟩ := Option.bind_eq_some_iff.1 hrest
    exact ⟨middle, (Text.after?_eq_some_iff.1 hmiddle).symm⟩
  · rw [after?_stateFields] at hrest
    obtain ⟨middle, hmiddle, -⟩ := Option.bind_eq_some_iff.1 hrest
    obtain ⟨rest, hrest, -⟩ := Option.bind_eq_some_iff.1 hmiddle
    exact ⟨" " ++ rest, (Text.after?_eq_some_iff.1 hrest).symm⟩

/-- The first case or the fields of a file are its last match if no other one follows. -/
theorem Anchor.cut_factory {anchor : Anchor} {body : Text}
    (hanchor : anchor = .eventCase ∨ anchor = .stateFields)
    (hfront : Text.Avoids "const factory" front) (hrest : Text.Avoids "const factory" rest)
    (h : anchor.after? true ("const factory" ++ body ++ rest) = some rest) :
    anchor.Cut (front ++ ("const factory" ++ body)) rest := by
  have hlines : ¬ anchor.WholeLines := by
    obtain rfl | rfl := hanchor <;> rintro (h | h) <;> cases h
  have hnone : ∀ {lineStart : Bool} {text : Text}, ¬ "const factory".toList <+: text →
      anchor.after? lineStart text = none := by
    intro lineStart text hstart
    rw [← Option.not_isSome_iff_eq_none]
    exact fun hsome => hstart (prefix_factory hanchor hsome)
  refine splitAfterLast?_iff.2 ⟨front, "const factory" ++ body, rfl, by simp, ?_, by simp, ?_, ?_⟩
  · refine .of_idle fun a b hab hne => hnone ?_
    rw [List.append_assoc]
    exact hfront.not_prefix (by decide) ⟨a, hab.symm⟩ hne _
  · rwa [after?_of_not_wholeLines hlines true]
  · rw [idle_iff]
    intro a b hab
    exact hnone fun hstart => hrest (hab ▸ hstart.isInfix.trans (List.suffix_append a b).isInfix)

/-- The blank between the two words stands between their letters. -/
theorem avoids_factory (h : Text.Avoids "t f" text) : Text.Avoids "const factory" text :=
  fun hin => h ((by decide : "t f".toList <:+: "const factory".toList).trans hin)

theorem avoids_blank (h : ' ' ∉ text) : Text.Avoids "t f" text :=
  Text.avoids_of_not_mem (by decide) h

/-- The opening of a part of the bloc file has no case of a union. -/
theorem avoids_partOpening (hfeature : feature.Plain) (hname : AsciiWordy name) :
    Text.Avoids "const factory" (partOpening feature name ++ "  ") := by
  have hname : ' ' ∉ name := hname.consists.not_mem (by decide)
  have hfirst : Text.Avoids "t f" ("part of '" ++ feature.name ++ "_bloc.dart';") := by
    have hfeature : ' ' ∉ feature.name := hfeature.name.consists.not_mem (by decide)
    rw [List.append_assoc]
    refine Text.Avoids.append_of_tails (by decide) (avoids_blank ?_) (by decide)
    simp [hfeature]
  have hclass : Text.Avoids "t f" ("class " ++ name ++ " with _$" ++ name ++ " \x7b") := by
    have hhead : Text.Avoids "t f" ("class " ++ name) :=
      Text.Avoids.append_of_tails (by decide) (avoids_blank hname) (by decide)
    have hwith : Text.Avoids "t f" ("class " ++ name ++ " with _$") :=
      hhead.append_of_inits (by decide) (by decide)
    have hnames : Text.Avoids "t f" ("class " ++ name ++ " with _$" ++ name) :=
      hwith.append_of_last (avoids_blank hname) fun c hc => by
        rw [List.getLast?_append] at hc
        obtain rfl := Option.some.inj hc
        decide
    exact hnames.append_of_inits (by decide) (by decide)
  refine avoids_factory ?_
  refine Text.Avoids.append_of_inits (.lines (by decide) (by decide) ?_) (by decide) (by decide)
  simp only [List.forall_mem_cons]
  exact ⟨hfirst, avoids_blank (by decide), avoids_blank (by decide), hclass, List.forall_mem_nil _⟩

/-- The last case of rendered events is their last match. -/
theorem cut_renderEvent (hfeature : feature.Plain) (hA : ∀ endpoint ∈ A, endpoint.Plain)
    (hne : A ≠ []) :
    Anchor.eventCase.Cut (partOpening feature feature.eventClass ++
      Text.join "\n\n" (A.map (eventCase feature))) "\n\x7d\n" := by
  obtain ⟨first, others, rfl⟩ := List.exists_cons_of_ne_nil hne
  obtain ⟨hfirst, hothers⟩ := List.forall_mem_cons.1 hA
  have hcut : Anchor.eventCase.Cut (partOpening feature feature.eventClass ++
      eventCase feature first) "\n\x7d\n" := by
    rw [eventCase_eq, ← List.append_assoc]
    refine cut_factory (.inl rfl) (avoids_partOpening hfeature hfeature.eventClass) (by decide) ?_
    rw [after?_eventCase, List.append_assoc, Text.after?_append, Option.bind_some, List.append_assoc]
    exact afterChar?_append (not_mem_eventCaseBody hfeature hfirst) "\n\x7d\n"
  have hrow : Text.join "\n\n" ((first :: others).map (eventCase feature)) =
      eventCase feature first ++ preceded "\n\n" (others.map (eventCase feature)) :=
    Text.join_append_preceded (List.cons_ne_nil (eventCase feature first) [])
  rw [hrow, ← List.append_assoc]
  by_cases hnil : others = []
  · rw [hnil]
    simpa [preceded] using hcut
  · exact cut_eventCases hcut hfeature hothers hnil

theorem insert_events_rendered (hfeature : feature.Plain) (hA : ∀ endpoint ∈ A, endpoint.Plain)
    (hne : A ≠ []) (B : List Endpoint) :
    insertAfterLast (renderEvent feature A) .eventCase
        (preceded "\n\n" (B.map (eventCase feature))) =
      .ok (renderEvent feature (A ++ B)) := by
  unfold renderEvent
  rw [insertAfterLast_eq (cut_renderEvent hfeature hA hne), List.map_append,
    Text.join_append_preceded (by simpa using hne)]
  simp only [List.append_assoc]

/-- What stands in front of the fields of a state. -/
def stateHead (feature : Feature) : Text := " " ++ feature.stateClass ++ "(\x7b\n"

/-- What stands behind the fields of a state. -/
def stateFoot (feature : Feature) : Text := "\n  \x7d) = _" ++ feature.stateClass ++ ";\n\x7d\n"

theorem renderState_eq (feature : Feature) (endpoints : List Endpoint) :
    renderState feature endpoints =
      partOpening feature feature.stateClass ++ "  " ++ ("const factory" ++ (stateHead feature ++
        Text.join "\n" (commonStateFields ++ endpoints.map stateField))) ++ stateFoot feature := by
  have hhead : ("  const factory " : Text) = "  " ++ ("const factory" ++ " ") := by
    repeat rw [String.toList_ofList]
    rfl
  unfold renderState stateHead stateFoot
  rw [hhead]
  simp only [List.append_assoc]

/-- The fields of a rendered state are its last match. -/
theorem cut_renderState (hfeature : feature.Plain) (hA : ∀ endpoint ∈ A, endpoint.Plain) :
    Anchor.stateFields.Cut (partOpening feature feature.stateClass ++ "  " ++ ("const factory" ++
      (stateHead feature ++ Text.join "\n" (commonStateFields ++ A.map stateField))))
      (stateFoot feature) := by
  have hword := hfeature.stateClass
  have hfoot : Text.Avoids "t f" (stateFoot feature) := by
    have hend : Text.Avoids "t f" (feature.stateClass ++ ";\n\x7d\n") :=
      avoids_blank (by simp [hword.consists.not_mem (by decide : isAsciiWordChar ' ' = false)])
    unfold stateFoot
    rw [List.append_assoc]
    refine Text.Avoids.append_of_last (by decide) hend fun c hc => ?_
    obtain rfl : '_' = c := Option.some.inj hc
    decide
  have hcommon : ∀ field ∈ commonStateFields, '\x7d' ∉ field := by
    unfold commonStateFields
    repeat rw [String.toList_ofList]
    decide
  have hbrace : '\x7d' ∉ "\n" ++ Text.join "\n" (commonStateFields ++ A.map stateField) := by
    intro hmem
    obtain hmem | hmem := List.mem_append.1 hmem
    · exact absurd hmem (by decide)
    obtain hmem | ⟨field, hfield, hmem⟩ := Text.mem_join hmem
    · exact absurd hmem (by decide)
    obtain hfield | hfield := List.mem_append.1 hfield
    · exact hcommon field hfield hmem
    · obtain ⟨endpoint, hendpoint, rfl⟩ := List.mem_map.1 hfield
      exact not_mem_stateField (hA endpoint hendpoint) hmem
  have hcloses : closesBlock (stateFoot feature) = true := rfl
  have hne : feature.stateClass ≠ [] := by simp [Feature.stateClass]
  have hhead : ("const factory" ++ (stateHead feature ++ Text.join "\n" (commonStateFields ++
      A.map stateField)) ++ stateFoot feature : Text) = "const factory " ++ (feature.stateClass ++
        ("(\x7b" ++ ("\n" ++ Text.join "\n" (commonStateFields ++ A.map stateField) ++
          stateFoot feature))) := by
    have hblank : ("const factory " : Text) = "const factory" ++ " " := Text.literal_append rfl
    have hopen : ("(\x7b\n" : Text) = "(\x7b" ++ "\n" := Text.literal_append rfl
    unfold stateHead
    rw [hblank, hopen]
    simp only [List.append_assoc]
  refine cut_factory (.inr rfl) (avoids_partOpening hfeature hword) (avoids_factory hfoot) ?_
  rw [after?_stateFields, hhead, fieldsHead?, Text.after?_append, Option.bind_some,
    afterRun?_append hne (fun c hc => isWordChar_of_ascii (hword c hc)) (by rintro c ⟨⟩; rfl),
    Option.bind_some, Text.after?_append, Option.bind_some,
    fromBlockEnd?_append hbrace (closesBlock.breaksLine hcloses), fromBlockEnd?_of_closes hcloses]

theorem insert_fields_rendered (hfeature : feature.Plain) (hA : ∀ endpoint ∈ A, endpoint.Plain)
    (B : List Endpoint) :
    insertAfterLast (renderState feature A) .stateFields (preceded "\n" (B.map stateField)) =
      .ok (renderState feature (A ++ B)) := by
  have hfields : Text.join "\n" (commonStateFields ++ (A ++ B).map stateField) =
      Text.join "\n" (commonStateFields ++ A.map stateField) ++
        preceded "\n" (B.map stateField) := by
    rw [List.map_append, ← List.append_assoc]
    exact Text.join_append_preceded
      (List.append_ne_nil_of_left_ne_nil (List.cons_ne_nil _ _) _)
  rw [renderState_eq, insertAfterLast_eq (cut_renderState hfeature hA), renderState_eq, hfields]
  simp only [List.append_assoc]

end Scaffold
