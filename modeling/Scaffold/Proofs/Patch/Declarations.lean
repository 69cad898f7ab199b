import Mathlib.Data.List.Nodup
import Scaffold.Proofs.Dart.LineFeeds
import Scaffold.Proofs.Dart.RenderedNames
import Scaffold.Proofs.Patch.Batches

/-!
# Names after an insertion

Extending a file adds the names of the endpoints that it lacks to those it declares, once each, and
nothing else changes (`SourceFile.Tidy.extend`).
-/

namespace Scaffold

open Anchor MemberKind

variable {feature : Feature} {endpoint : Endpoint} {endpoints : List Endpoint} {kind : MemberKind}
  {content result a b : Text} {members paths : List Text} {name : Text}

/-! ## Pieces -/

/-- What goes in front of a line break, or behind the end of a head, does not change the names that
stand there. -/
def Closed (a b : Text) : Prop := BreaksLine b ∨ ∃ c, a.getLast? = some c ∧ endsHead c = true

theorem dropWhile_of_breaksLine (h : BreaksLine b) : b.dropWhile (· != '\n') = b := by
  cases b with
  | nil => rfl
  | cons c b =>
      have hc : c = '\n' := h c rfl
      rw [hc]
      rfl

theorem declared_closed (h : Closed a b) :
    kind.declared (a ++ b) = kind.declared a ++ kind.declared (b.dropWhile (· != '\n')) := by
  rcases h with hbreaks | ⟨c, hlast, hc⟩
  · rw [dropWhile_of_breaksLine hbreaks]
    cases b with
    | nil => simp
    | cons d b =>
        have hd : d = '\n' := hbreaks d rfl
        rw [hd, declared_break, declared_break_cons]
  · obtain ⟨front, rfl⟩ := List.getLast?_eq_some_iff.1 hlast
    have hfront : kind.declared (front ++ [c]) =
        kind.declared front ++ kind.declared (([] : Text).dropWhile (· != '\n')) :=
      declared_closing hc front []
    rw [List.dropWhile_nil, declared_nil, List.append_nil] at hfront
    rw [List.append_assoc, List.singleton_append, declared_closing hc, hfront]

theorem declared_preceded (separator : Text) (h : separator = "\n" ∨ separator = "\n\n") (a : Text)
    (rows : List Text) :
    kind.declared (a ++ preceded separator rows) = kind.declared a ++ rows.flatMap kind.declared := by
  unfold preceded
  induction rows generalizing a with
  | nil => simp
  | cons row rows ih =>
      have hrow : kind.declared (a ++ (separator ++ row)) = kind.declared a ++ kind.declared row := by
        rcases h with rfl | rfl
        · exact declared_break kind a row
        · exact (declared_break kind a ('\n' :: row)).trans (by rw [declared_break_cons])
      rw [List.flatMap_cons, ← List.append_assoc, ih, hrow, List.flatMap_cons, List.append_assoc]

/-- Rows that go in behind the last match of a pattern. -/
theorem declared_rows (separator : Text) (h : separator = "\n" ∨ separator = "\n\n")
    (rows : List Text) (hclosed : Closed a b) (hrows : Closed (a ++ preceded separator rows) b) :
    (kind.declared (a ++ (preceded separator rows ++ b))).Perm
      (kind.declared (a ++ b) ++ rows.flatMap kind.declared) := by
  rw [← List.append_assoc, declared_closed hrows, declared_closed hclosed,
    declared_preceded separator h, List.append_assoc, List.append_assoc]
  exact (List.perm_append_comm).append_left _

/-- Members that go in front of a brace. -/
theorem declared_memberBlock (a b : Text) (members : List Text) :
    (kind.declared (a ++ (memberBlock "\n\n" members ++ '\x7d' :: b))).Perm
      (kind.declared (a ++ '\x7d' :: b) ++ members.flatMap kind.declared) := by
  have hbrace : kind.declared ('\x7d' :: b) = kind.declared (b.dropWhile (· != '\n')) := by
    have hclosing : kind.declared ([] ++ '\x7d' :: b) =
        kind.declared [] ++ kind.declared (b.dropWhile (· != '\n')) :=
      declared_closing (by decide) [] b
    simpa using hclosing
  have htext : a ++ (memberBlock "\n\n" members ++ '\x7d' :: b) =
      a ++ '\n' :: (Text.join "\n\n" members ++ '\n' :: '\x7d' :: b) := by
    unfold memberBlock
    simp
  rw [htext, declared_break, declared_break, declared_join (.inr rfl), hbrace,
    declared_closing (by decide), List.append_assoc]
  exact (List.perm_append_comm).append_left _

/-- Imports that go in declare nothing. -/
theorem declared_insertImports (hpaths : ∀ path ∈ paths, IsImportPath path) (content : Text) :
    kind.declared (insertImports content paths) = kind.declared content := by
  obtain ⟨u, head, foot, v, rfl, hgap⟩ := exists_importGap content
  by_cases hnone : missingImports (u ++ v) paths = []
  · unfold insertImports
    rw [hnone]
    rfl
  · rw [hgap.insertImports hnone]
    have hmissing : ∀ path ∈ missingImports (u ++ v) paths, IsImportPath path := fun path hpath =>
      hpaths path (List.mem_eraseDups.1 (List.mem_of_mem_filter hpath))
    generalize missingImports (u ++ v) paths = missing at hnone hmissing
    have hlines : ∀ rest : Text, kind.declared (importLines missing ++ rest) =
        kind.declared rest := by
      intro rest
      have hlast : (importLines missing).getLast? = some '\n' :=
        Text.getLast?_lines (by simpa using hnone)
      have hnames : kind.declared (importLines missing) = [] := declared_importLines hmissing
      rw [declared_append_of_break hlast, hnames, List.nil_append]
    cases hgap with
    | @line w line v _ _ =>
        have hbreak : (w ++ (importToken ++ (line ++ ['\n']))).getLast? = some '\n' := by
          simp [← List.append_assoc]
        rw [List.nil_append, List.append_nil, List.append_assoc, declared_append_of_break hbreak,
          hlines, declared_append_of_break hbreak]
    | @last w line _ _ =>
        have hempty := hlines []
        rw [List.append_nil, declared_nil] at hempty
        rw [List.append_nil, List.append_nil, List.append_nil, List.singleton_append, declared_break,
          hempty, List.append_nil]
    | top _ =>
        rw [List.nil_append, List.nil_append, List.nil_append, List.append_assoc, hlines]
        split
        · rfl
        · rw [List.singleton_append, declared_break_cons]

theorem fed_insertImports (hcontent : Consists isFed content)
    (hpaths : ∀ path ∈ paths, Consists isFed path) : Consists isFed (insertImports content paths) := by
  obtain ⟨u, head, foot, v, rfl, hgap⟩ := exists_importGap content
  obtain ⟨hu, hv⟩ := Consists.append_iff.1 hcontent
  rw [hgap.insertImports_eq]
  have hends : Consists isFed head ∧ Consists isFed foot := by
    cases hgap with
    | line _ _ => exact ⟨.nil, .nil⟩
    | last _ _ => exact ⟨by decide, .nil⟩
    | top _ =>
        refine ⟨.nil, ?_⟩
        split
        · exact .nil
        · decide
  have hlines : Consists isFed (gapLines head foot (missingImports (u ++ v) paths)) := by
    unfold gapLines
    split
    · exact .nil
    · refine hends.1.append (Consists.append (.lines rfl fun line hline => ?_) hends.2)
      obtain ⟨path, hpath, rfl⟩ := List.mem_map.1 hline
      exact fed_importClause (hpaths path (List.mem_eraseDups.1 (List.mem_of_mem_filter hpath)))
  exact hu.append (hlines.append hv)

theorem fed_memberBlock (h : ∀ member ∈ members, Consists isFed member) :
    Consists isFed (memberBlock "\n\n" members) :=
  (Consists.append (by decide) (.join (by decide) h)).append (by decide)

theorem fed_preceded {separator : Text} {rows : List Text} (hseparator : Consists isFed separator)
    (h : ∀ row ∈ rows, Consists isFed row) : Consists isFed (preceded separator rows) := by
  intro c hc
  obtain ⟨row, hrow, hc⟩ := List.mem_flatMap.1 hc
  exact Consists.append hseparator (h row hrow) c hc

/-! ## Class files -/

theorem ClassFile.declared_insert {file : ClassFile} (hfeature : feature.Lined)
    (hlined : ∀ endpoint ∈ endpoints, endpoint.Lined)
    (h : file.insert feature content endpoints = .ok result) :
    (method.declared result).Perm (method.declared content ++ endpoints.map (·.methodName)) := by
  have hpaths := hfeature.importPath_model hlined
  rw [file.insert_eq] at h
  obtain ⟨⟨a, fromEnd⟩, hsplit, rfl⟩ := map_eq_ok.1 h
  obtain ⟨b, rfl⟩ := exists_brace_of_splitEnd hsplit
  have hmembers : (endpoints.map fun endpoint => file.member feature endpoint).flatMap
      method.declared = endpoints.map (·.methodName) := by
    rw [List.flatMap_map, ← List.flatMap_pure_eq_map]
    exact List.flatMap_congr fun endpoint hendpoint =>
      file.declared_member hfeature (hlined endpoint hendpoint)
  rw [← declared_insertImports hpaths content, splitEnd_append hsplit, ← hmembers]
  exact declared_memberBlock a b _

theorem ClassFile.fed_insert {file : ClassFile} (hfeature : feature.Lined)
    (hlined : ∀ endpoint ∈ endpoints, endpoint.Lined) (hcontent : Consists isFed content)
    (h : file.insert feature content endpoints = .ok result) : Consists isFed result := by
  have himports := fed_insertImports hcontent (hfeature.toFed.modelImports fun endpoint hmem => (hlined endpoint hmem).toFed)
  rw [file.insert_eq] at h
  obtain ⟨⟨a, fromEnd⟩, hsplit, rfl⟩ := map_eq_ok.1 h
  rw [splitEnd_append hsplit, Consists.append_iff] at himports
  refine himports.1.append (.append (fed_memberBlock fun member hmember => ?_) himports.2)
  obtain ⟨endpoint, hendpoint, rfl⟩ := List.mem_map.1 hmember
  exact file.fed_member hfeature.toFed (hlined endpoint hendpoint).toFed

/-! ## Rows -/

theorem endsHead_eventCase (a : Text) (hne : endpoints ≠ []) :
    ∃ c, (a ++ preceded "\n\n" (endpoints.map (eventCase feature))).getLast? = some c ∧
      endsHead c = true := by
  obtain ⟨front, last, rfl⟩ := List.eq_nil_or_concat endpoints |>.resolve_left hne
  refine ⟨';', ?_, rfl⟩
  have htext : preceded "\n\n" ((front ++ [last]).map (eventCase feature)) =
      preceded "\n\n" (front.map (eventCase feature)) ++ ("\n\n" ++ eventCase feature last) := by
    simp [preceded]
  rw [List.concat_eq_append, htext, eventCase_eq]
  simp only [← List.append_assoc]
  exact List.getLast?_concat ..

theorem declared_insertEvents (hfeature : feature.Lined)
    (hlined : ∀ endpoint ∈ endpoints, endpoint.Lined)
    (h : insertAfterLast content .eventCase (preceded "\n\n" (endpoints.map (eventCase feature))) =
      .ok result) (hne : endpoints ≠ []) :
    (event.declared result).Perm (event.declared content ++ endpoints.map (·.eventName)) := by
  obtain ⟨a, b, rfl, hcut, rfl⟩ := exists_cut_of_insertAfterLast h
  have hrows : (endpoints.map (eventCase feature)).flatMap event.declared =
      endpoints.map (·.eventName) := by
    rw [List.flatMap_map, ← List.flatMap_pure_eq_map]
    exact List.flatMap_congr fun endpoint hendpoint =>
      declared_eventCase hfeature (hlined endpoint hendpoint)
  rw [← hrows]
  exact declared_rows "\n\n" (.inr rfl) _ (.inr ⟨';', hcut.getLast?_eventCase, rfl⟩)
    (.inr (endsHead_eventCase a hne))

theorem declared_insertFields (hlined : ∀ endpoint ∈ endpoints, endpoint.Lined)
    (h : insertAfterLast content .stateFields (preceded "\n" (endpoints.map stateField)) =
      .ok result) :
    (field.declared result).Perm (field.declared content ++ endpoints.map (·.stateField)) := by
  obtain ⟨a, b, rfl, hcut, rfl⟩ := exists_cut_of_insertAfterLast h
  have hrows : (endpoints.map stateField).flatMap field.declared =
      endpoints.map (·.stateField) := by
    rw [List.flatMap_map, ← List.flatMap_pure_eq_map]
    exact List.flatMap_congr fun endpoint hendpoint => declared_stateField (hlined endpoint hendpoint)
  rw [← hrows]
  exact declared_rows "\n" (.inl rfl) _ (.inl hcut.breaksLine_stateFields)
    (.inl hcut.breaksLine_stateFields)

/-- Rows and handlers that go into a bloc. -/
theorem declared_insertBloc (hkind : kind = branch ∨ kind = method) (hfeature : feature.Lined)
    (hlined : ∀ endpoint ∈ endpoints, endpoint.Lined)
    (h : BlocStyle.unions.insert feature content endpoints = .ok result) :
    (kind.declared result).Perm (kind.declared content ++ (endpoints.flatMap (branchNames kind) ++
      endpoints.flatMap (handlerNames kind))) := by
  unfold BlocStyle.insert at h
  obtain ⟨middle, hrows, hclass⟩ := bind_eq_ok.1 h
  obtain ⟨a, b, hcontent, hcut, rfl⟩ := exists_cut_of_insertAfterLast hrows
  obtain ⟨p, fromEnd, hsplit⟩ := exists_classEnd_of_insertIntoClass hclass
  obtain ⟨q, rfl⟩ := exists_brace_of_splitClassEnd hsplit
  have hmiddle := splitClassEnd_eq_ok_append hsplit
  rw [hmiddle, insertIntoClass_eq (by rw [← hmiddle]; exact hsplit)] at hclass
  obtain rfl := Except.ok.inj hclass
  have hbreaks := hcut.breaksLine BlocStyle.unions.wholeLines
  have hcases : (endpoints.map whenCase).flatMap kind.declared =
      endpoints.flatMap (branchNames kind) := by
    rw [List.flatMap_map]
    exact List.flatMap_congr fun endpoint hendpoint =>
      declared_whenCase hkind (hlined endpoint hendpoint)
  have hhandlers : (endpoints.map (blocHandler feature)).flatMap kind.declared =
      endpoints.flatMap (handlerNames kind) := by
    rw [List.flatMap_map]
    exact List.flatMap_congr fun endpoint hendpoint =>
      declared_blocHandler hkind hfeature (hlined endpoint hendpoint)
  have hfirst : (kind.declared (a ++ (BlocStyle.unions.rows endpoints ++ b))).Perm
      (kind.declared (a ++ b) ++ (endpoints.map whenCase).flatMap kind.declared) :=
    declared_rows "\n" (.inl rfl) _ (.inl hbreaks) (.inl hbreaks)
  rw [← hcontent, declared_insertImports (hfeature.importPath_model hlined), hmiddle, hcases]
    at hfirst
  refine (declared_memberBlock p q _).trans ?_
  rw [← List.append_assoc, ← hhandlers]
  exact hfirst.append_right _

theorem fed_insertAfterLast {anchor : Anchor} {addition : Text} (hcontent : Consists isFed content)
    (haddition : Consists isFed addition) (h : insertAfterLast content anchor addition = .ok result) :
    Consists isFed result := by
  obtain ⟨a, b, rfl, -, rfl⟩ := exists_cut_of_insertAfterLast h
  obtain ⟨ha, hb⟩ := Consists.append_iff.1 hcontent
  exact ha.append (haddition.append hb)

theorem fed_insertBloc (hfeature : feature.Lined) (hlined : ∀ endpoint ∈ endpoints, endpoint.Lined)
    (hcontent : Consists isFed content)
    (h : BlocStyle.unions.insert feature content endpoints = .ok result) : Consists isFed result := by
  unfold BlocStyle.insert at h
  obtain ⟨middle, hrows, hclass⟩ := bind_eq_ok.1 h
  have hmiddle := fed_insertAfterLast
    (fed_insertImports hcontent (hfeature.toFed.modelImports fun endpoint hmem => (hlined endpoint hmem).toFed))
    (fed_preceded (by decide) fun row hrow => by
      obtain ⟨endpoint, hendpoint, rfl⟩ := List.mem_map.1 hrow
      exact consists_whenCase (hlined endpoint hendpoint).toFed.fills) hrows
  obtain ⟨p, q, hsplit⟩ := exists_classEnd_of_insertIntoClass hclass
  have heq := splitClassEnd_eq_ok_append hsplit
  rw [heq, insertIntoClass_eq (by rw [← heq]; exact hsplit)] at hclass
  obtain rfl := Except.ok.inj hclass
  rw [heq, Consists.append_iff] at hmiddle
  refine hmiddle.1.append (.append (fed_memberBlock fun member hmember => ?_) hmiddle.2)
  obtain ⟨endpoint, hendpoint, rfl⟩ := List.mem_map.1 hmember
  exact fed_blocHandler hfeature.toFed (hlined endpoint hendpoint).toFed

/-! ## Files without duplicates -/

namespace SourceFile

variable {source : SourceFile}

/-- The kinds of members that a file declares for its endpoints. -/
def kinds : SourceFile → List MemberKind
  | ofClass _ => [.method]
  | event => [.event]
  | state => [.field]
  | bloc => [.branch, .method]

/-- The name that a file declares for the method of an endpoint. -/
def declaredName : SourceFile → MemberKind → Text → Text
  | ofClass _, _, name => name
  | _, .method, name => '_' :: name
  | _, .field, name => name ++ "Response"
  | _, _, name => name ++ "Requested"

/-- The names that a file declares whatever the endpoints. -/
def commonNames : SourceFile → List Text
  | state => commonFieldNames
  | _ => []

/-- Whether the text is in the style in which the file is rendered. -/
def inStyle (content : Text) : SourceFile → Bool
  | ofClass _ => true
  | event => usesUnions content
  | state => usesUnions content
  | bloc => handsOnCases content

/-- The text declares each of some methods once, in the style of a rendered file and with line feeds
alone. -/
structure Tidy (source : SourceFile) (content : Text) : Prop where
  fed : Consists isFed content
  style : source.inStyle content = true
  names : ∃ names : List Text, names.Nodup ∧ (∀ name ∈ names, IsWord name) ∧
    ∀ kind ∈ source.kinds,
      (kind.declared content).Perm (source.commonNames ++ names.map (source.declaredName kind))

theorem declaredName_injective (source : SourceFile) (kind : MemberKind) :
    Function.Injective (source.declaredName kind) := by
  intro first second h
  cases source <;> cases kind <;> first
    | exact h
    | exact List.append_cancel_right h
    | exact (List.cons.inj h).2

theorem isWord_declaredName (source : SourceFile) (kind : MemberKind) (h : IsWord name) :
    IsWord (source.declaredName kind name) := by
  have hending : ∀ {ending : Text}, (∀ c ∈ ending, isWordChar c = true) → IsWord (name ++ ending) :=
    fun hending => ⟨by simp [h.ne_nil], List.forall_mem_append.2 ⟨h.word, hending⟩⟩
  have hfront : IsWord ('_' :: name) := ⟨by simp, List.forall_mem_cons.2 ⟨by decide, h.word⟩⟩
  cases source <;> cases kind <;> first
    | exact h
    | exact hfront
    | exact hending (by decide)

/-- A field for a response is none of the common ones. -/
theorem not_mem_commonNames (source : SourceFile) (hkind : kind ∈ source.kinds) (name : Text) :
    source.declaredName kind name ∉ source.commonNames := by
  cases source with
  | state =>
      rw [List.mem_singleton.1 hkind]
      intro hmem
      have hlast : (name ++ ("Response" : Text)).getLast? = some 'e' := by simp
      rcases List.mem_cons.1 hmem with heq | hmem
      · rw [show name ++ ("Response" : Text) = "isLoading" from heq] at hlast
        exact absurd hlast (by decide)
      · rw [show name ++ ("Response" : Text) = "error" from List.mem_singleton.1 hmem] at hlast
        exact absurd hlast (by decide)
  | _ => exact List.not_mem_nil

/-- No two members have one name. -/
theorem Tidy.nodup (h : source.Tidy content) (hkind : kind ∈ source.kinds) :
    (kind.declared content).Nodup := by
  obtain ⟨names, hnodup, -, hnames⟩ := h.names
  have hcommon : source.commonNames.Nodup := by
    cases source with
    | state => exact (by decide : commonFieldNames.Nodup)
    | _ => exact List.nodup_nil
  rw [(hnames kind hkind).nodup_iff]
  refine List.Nodup.append hcommon (hnodup.map (source.declaredName_injective kind)) ?_
  intro name hname hmem
  obtain ⟨methodName, -, rfl⟩ := List.mem_map.1 hmem
  exact source.not_mem_commonNames hkind methodName hname

/-- A file that takes in members it lacks stays without duplicates. -/
theorem Tidy.grow (h : source.Tidy content) {new : List Endpoint}
    (hlined : ∀ endpoint ∈ new, endpoint.Lined) (hnew : (new.map (·.methodName)).Nodup)
    (hlacks : ∃ kind ∈ source.kinds, ∀ endpoint ∈ new,
      hasMember content (source.declaredName kind endpoint.methodName) = false)
    (hfed : Consists isFed result) (hstyle : source.inStyle result = true)
    (hdeclared : ∀ kind ∈ source.kinds, (kind.declared result).Perm
      (kind.declared content ++ new.map fun endpoint =>
        source.declaredName kind endpoint.methodName)) : source.Tidy result := by
  obtain ⟨names, hnodup, hword, hnames⟩ := h.names
  refine ⟨hfed, hstyle, names ++ new.map (·.methodName), ?_, ?_, fun kind hkind => ?_⟩
  · refine List.Nodup.append hnodup hnew fun name hname hmem => ?_
    obtain ⟨endpoint, hendpoint, rfl⟩ := List.mem_map.1 hmem
    obtain ⟨kind, hkind, hmember⟩ := hlacks
    have hdeclaredName : source.declaredName kind endpoint.methodName ∈ kind.declared content :=
      (hnames kind hkind).symm.subset (List.mem_append_right _ (List.mem_map_of_mem hname))
    have := hasMember_of_declared (source.isWord_declaredName kind (hword _ hname)) hdeclaredName
    rw [hmember endpoint hendpoint] at this
    cases this
  · refine List.forall_mem_append.2 ⟨hword, fun name hname => ?_⟩
    obtain ⟨endpoint, hendpoint, rfl⟩ := List.mem_map.1 hname
    exact (hlined endpoint hendpoint).name
  · refine (hdeclared kind hkind).trans ?_
    rw [List.map_append, ← List.append_assoc, List.map_map]
    exact (hnames kind hkind).append_right _

/-- The branches and handlers of a bloc under their names. -/
theorem flatMap_blocNames (hkind : kind = branch ∨ kind = method) (endpoints : List Endpoint) :
    endpoints.flatMap (branchNames kind) ++ endpoints.flatMap (handlerNames kind) =
      endpoints.map fun endpoint => bloc.declaredName kind endpoint.methodName := by
  rcases hkind with rfl | rfl
  · have hnone : endpoints.flatMap (handlerNames branch) = [] :=
      List.flatMap_eq_nil_iff.2 fun _ _ => rfl
    rw [hnone, List.append_nil, ← List.flatMap_pure_eq_map]
    rfl
  · have hnone : endpoints.flatMap (branchNames method) = [] :=
      List.flatMap_eq_nil_iff.2 fun _ _ => rfl
    rw [hnone, List.nil_append, ← List.flatMap_pure_eq_map]
    rfl

theorem infix_freezed (feature : Feature) (className rest : Text) :
    "@freezed".toList <:+: partOpening feature className ++ rest := by
  have hopening : "@freezed".toList <:+: partOpening feature className := by
    unfold partOpening
    exact Text.infix_lines (by simp)
  exact hopening.trans ⟨[], rest, rfl⟩

/-- A rendered file is in the style in which it is rendered. -/
theorem inStyle_full (source : SourceFile) (feature : Feature) (hne : endpoints ≠ []) :
    source.inStyle (source.part feature endpoints).full = true := by
  cases source with
  | ofClass file => rfl
  | event =>
      obtain ⟨first, rest, rfl⟩ := List.exists_cons_of_ne_nil hne
      have hfactory : "const factory".toList <:+: renderEvent feature (first :: rest) := by
        have hcase : "const factory".toList <:+: eventCase feature first :=
          ⟨"  ", eventCaseBody feature first ++ [';'], by rw [eventCase_eq, List.append_assoc]⟩
        have hjoin : eventCase feature first <:+:
            Text.join "\n\n" ((first :: rest).map (eventCase feature)) := Text.infix_join (by simp)
        exact (hcase.trans hjoin).trans ⟨partOpening feature feature.eventClass, "\n\x7d\n", rfl⟩
      show usesUnions (renderEvent feature (first :: rest)) = true
      unfold usesUnions
      rw [Bool.and_eq_true, Text.occursIn_iff, Text.occursIn_iff]
      refine ⟨?_, hfactory⟩
      unfold renderEvent
      rw [List.append_assoc]
      exact infix_freezed feature _ _
  | state =>
      have hhead : "const factory".toList <:+: ("  const factory ".toList : Text) :=
        ⟨"  ", " ", by repeat rw [String.toList_ofList]; rfl⟩
      show usesUnions (renderState feature endpoints) = true
      unfold usesUnions
      rw [Bool.and_eq_true, Text.occursIn_iff, Text.occursIn_iff]
      unfold renderState
      simp only [List.append_assoc]
      exact ⟨infix_freezed feature _ _,
        hhead.trans ⟨partOpening feature feature.stateClass, _, by rw [List.append_assoc]⟩⟩
  | bloc =>
      have hopening : "event.when(".toList <:+: blocOpening feature := by
        have hline : "event.when(".toList <:+: ("      await event.when(".toList : Text) :=
          ⟨"      await ", [], by repeat rw [String.toList_ofList]; rfl⟩
        exact hline.trans (Text.infix_lines (List.mem_of_getLast? rfl))
      show handsOnCases (renderBloc feature endpoints) = true
      unfold handsOnCases
      rw [Text.occursIn_iff]
      unfold renderBloc
      simp only [List.append_assoc]
      exact hopening.trans ⟨importBlock (blocImports feature endpoints), _, by
        rw [List.append_assoc]⟩

/-- A rendered file is without duplicates if the names of its endpoints differ. -/
theorem tidy_full (source : SourceFile) (hfeature : feature.Lined)
    (hlined : ∀ endpoint ∈ endpoints, endpoint.Lined) (hne : endpoints ≠ [])
    (hnames : (endpoints.map (·.methodName)).Nodup) :
    source.Tidy (source.part feature endpoints).full := by
  have hstyle := source.inStyle_full feature hne
  have hword : ∀ name ∈ endpoints.map (·.methodName), IsWord name := by
    intro name hname
    obtain ⟨endpoint, hendpoint, rfl⟩ := List.mem_map.1 hname
    exact (hlined endpoint hendpoint).name
  have hfed : ∀ endpoint ∈ endpoints, endpoint.Fed := fun endpoint hmem =>
    (hlined endpoint hmem).toFed
  cases source with
  | ofClass file =>
      refine ⟨file.fed_render hfeature.toFed hfed, hstyle, _, hnames, hword, fun kind hkind => ?_⟩
      rw [List.mem_singleton.1 hkind]
      show (method.declared (file.render feature endpoints)).Perm _
      rw [file.declared_render hfeature hlined, List.map_map]
      exact List.Perm.refl _
  | event =>
      refine ⟨fed_renderEvent hfeature.toFed hfed, hstyle, _, hnames, hword, fun kind hkind => ?_⟩
      rw [List.mem_singleton.1 hkind]
      show (MemberKind.event.declared (renderEvent feature endpoints)).Perm _
      rw [declared_renderEvent hfeature hlined, List.map_map]
      exact List.Perm.refl _
  | state =>
      refine ⟨fed_renderState hfeature.toFed hfed, hstyle, _, hnames, hword, fun kind hkind => ?_⟩
      rw [List.mem_singleton.1 hkind]
      show (field.declared (renderState feature endpoints)).Perm _
      rw [declared_renderState hfeature hlined, List.map_map]
      exact List.Perm.refl _
  | bloc =>
      refine ⟨fed_renderBloc hfeature.toFed hfed, hstyle, _, hnames, hword, fun kind hkind => ?_⟩
      have hkind : kind = branch ∨ kind = method := by simpa [kinds] using hkind
      show (kind.declared (renderBloc feature endpoints)).Perm _
      rw [declared_renderBloc hkind hfeature hlined, flatMap_blocNames hkind, List.map_map]
      exact List.Perm.refl _

/-- Extending a file keeps it without duplicates. -/
theorem Tidy.extend (h : source.Tidy content) (hfeature : feature.Lined)
    (hlined : ∀ endpoint ∈ endpoints, endpoint.Lined)
    (hnames : (endpoints.map (·.methodName)).Nodup)
    (hresult : (source.part feature endpoints).extend content = .ok result) :
    source.Tidy result := by
  have hnew : ∀ name : Endpoint → Text, (∀ endpoint ∈ lacking content name endpoints,
      endpoint.Lined) ∧ ((lacking content name endpoints).map (·.methodName)).Nodup := fun name =>
    ⟨fun endpoint hmem => hlined endpoint (mem_of_mem_lacking hmem),
      hnames.sublist (List.filter_sublist.map _)⟩
  have hmissing : ∀ name : Endpoint → Text, ∀ endpoint ∈ lacking content name endpoints,
      hasMember content (name endpoint) = false := fun name endpoint hmem => by
    simpa using (List.mem_filter.1 hmem).2
  cases source with
  | ofClass file =>
      have hresult : file.extend feature content endpoints = .ok result := hresult
      rw [file.extend_eq] at hresult
      obtain ⟨hlined, hnames⟩ := hnew Endpoint.methodName
      have hlacks := hmissing Endpoint.methodName
      generalize lacking content Endpoint.methodName endpoints = new at hresult hlined hnames hlacks
      cases new with
      | nil => rwa [← Except.ok.inj hresult]
      | cons first rest =>
          refine h.grow hlined hnames ⟨method, List.mem_cons_self, hlacks⟩
            (file.fed_insert hfeature hlined h.fed hresult) rfl fun kind hkind => ?_
          rw [List.mem_singleton.1 hkind]
          exact file.declared_insert hfeature hlined hresult
  | event =>
      have hresult : extendEvents feature content endpoints = .ok result := hresult
      have hstyle : usesUnions content = true := h.style
      rw [extendEvents_eq, hstyle, if_pos rfl] at hresult
      obtain ⟨hlined, hnames⟩ := hnew Endpoint.eventName
      have hlacks := hmissing Endpoint.eventName
      generalize lacking content Endpoint.eventName endpoints = new at hresult hlined hnames hlacks
      cases new with
      | nil => rwa [← Except.ok.inj hresult]
      | cons first rest =>
          have hkept : usesUnions result = true := by
            obtain ⟨a, b, rfl, hcut, rfl⟩ := exists_cut_of_insertAfterLast hresult
            exact usesUnions_insert (.inr hcut.getLast?_eventCase) hstyle
          refine h.grow hlined hnames ⟨MemberKind.event, List.mem_cons_self, hlacks⟩
            (fed_insertAfterLast h.fed (fed_preceded (by decide) fun row hrow => ?_) hresult) hkept
            fun kind hkind => ?_
          · obtain ⟨endpoint, hendpoint, rfl⟩ := List.mem_map.1 hrow
            exact fed_eventCase hfeature.toFed (hlined endpoint hendpoint).toFed
          · rw [List.mem_singleton.1 hkind]
            exact declared_insertEvents hfeature hlined hresult (by simp)
  | state =>
      have hresult : extendState feature content endpoints = .ok result := hresult
      have hstyle : usesUnions content = true := h.style
      rw [extendState_eq, hstyle, if_pos rfl] at hresult
      obtain ⟨hlined, hnames⟩ := hnew Endpoint.stateField
      have hlacks := hmissing Endpoint.stateField
      generalize lacking content Endpoint.stateField endpoints = new at hresult hlined hnames hlacks
      cases new with
      | nil => rwa [← Except.ok.inj hresult]
      | cons first rest =>
          have hkept : usesUnions result = true := by
            obtain ⟨a, b, rfl, hcut, rfl⟩ := exists_cut_of_insertAfterLast hresult
            exact usesUnions_insert (.inl hcut.breaksLine_stateFields) hstyle
          refine h.grow hlined hnames ⟨field, List.mem_cons_self, hlacks⟩
            (fed_insertAfterLast h.fed (fed_preceded (by decide) fun row hrow => ?_) hresult) hkept
            fun kind hkind => ?_
          · obtain ⟨endpoint, hendpoint, rfl⟩ := List.mem_map.1 hrow
            exact consists_stateField (hlined endpoint hendpoint).toFed.fills
          · rw [List.mem_singleton.1 hkind]
            exact declared_insertFields hlined hresult
  | bloc =>
      have hresult : extendBloc feature content endpoints = .ok result := hresult
      have hstyle : handsOnCases content = true := h.style
      have hunions : BlocStyle.ofContent content = .unions := by
        unfold BlocStyle.ofContent
        rw [hstyle, if_pos rfl]
      rw [extendBloc_eq_completeWith, hunions] at hresult
      obtain ⟨hlined, hnames⟩ := hnew Endpoint.handlerName
      have hlacks := hmissing Endpoint.handlerName
      have hresult : completeWith (BlocStyle.unions.insert feature) content
        (lacking content Endpoint.handlerName endpoints) = .ok result := hresult
      generalize lacking content Endpoint.handlerName endpoints = new at hresult hlined hnames hlacks
      cases new with
      | nil => rwa [← Except.ok.inj hresult]
      | cons first rest =>
          refine h.grow hlined hnames ⟨method, by simp [kinds], hlacks⟩
            (fed_insertBloc hfeature hlined h.fed hresult) (handsOnCases_insertBloc hstyle hresult)
            fun kind hkind => ?_
          have hkind : kind = branch ∨ kind = method := by simpa [kinds] using hkind
          rw [← flatMap_blocNames hkind]
          exact declared_insertBloc hkind hfeature hlined hresult

end SourceFile

end Scaffold
