import Scaffold.Proofs.Patch.Batches

/-!
# What an extension adds

Extending a file removes, changes and moves nothing: the new text is the old one with at most three
blocks put in (`SourceFile.extend_adds`). A block holds, in the order of the endpoints, the imports
or the members that the file lacks, and only line breaks around them.

The edits of one file follow each other, and a later one looks for its place in a text that the
earlier ones have changed. It still does not cut an earlier block in two, because it goes in next to
a character that no earlier block holds: a brace, or the end of a call.
-/

namespace Scaffold

open Anchor

variable {source : SourceFile} {feature : Feature} {endpoint : Endpoint} {endpoints : List Endpoint}
  {a b p q run text longer block content result separator : Text} {c : Char}
  {parts declarations paths : List Text} {added others : List (List Text)}

/-! ## Blocks -/

/-- There are only line breaks in the text. -/
def Breaks (text : Text) : Prop := ∀ c ∈ text, c = '\n'

/-- A block holds the parts in their order, each on lines of its own. -/
inductive SetOut : (parts : List Text) → (block : Text) → Prop
  | none : SetOut [] []
  | last {front part back : Text} : Breaks front → Breaks back →
      SetOut [part] (front ++ (part ++ back))
  | next {front part rest : Text} {parts : List Text} : Breaks front → SetOut parts rest →
      BreaksLine rest → SetOut (part :: parts) (front ++ (part ++ rest))

theorem Breaks.breaksLine_append (h : Breaks a) (hne : a ≠ []) (b : Text) : BreaksLine (a ++ b) := by
  cases a with
  | nil => exact absurd rfl hne
  | cons d a =>
      rintro c ⟨⟩
      exact h d (by simp)

namespace SetOut

theorem not_mem (h : SetOut parts block) (hparts : ∀ part ∈ parts, c ∉ part) (hc : c ≠ '\n') :
    c ∉ block := by
  have hbreaks : ∀ {text : Text}, Breaks text → c ∉ text := fun htext hmem => hc (htext c hmem)
  induction h with
  | none => simp
  | last hfront hback => simp [hbreaks hfront, hbreaks hback, hparts _ (List.mem_singleton.2 rfl)]
  | next hfront _ _ ih =>
      simp only [List.mem_append, not_or]
      exact ⟨hbreaks hfront, hparts _ (by simp), ih fun part hpart => hparts part (by simp [hpart])⟩

/-- A block starts with a line break or as one of its parts does. -/
theorem head (h : SetOut parts block) (hc : c ∈ block.head?) :
    c = '\n' ∨ ∃ part ∈ parts, c ∈ part.head? := by
  have happend : ∀ {a b : Text}, c ∈ (a ++ b).head? → c ∈ a.head? ∨ c ∈ b.head? := by
    intro a b hmem
    cases a with
    | nil => exact .inr hmem
    | cons d a => exact .inl hmem
  have hbreaks : ∀ {text : Text}, Breaks text → c ∈ text.head? → c = '\n' := fun htext hmem =>
    htext c (List.mem_of_mem_head? hmem)
  induction h with
  | none => cases hc
  | last hfront hback =>
      rcases happend hc with hc | hc
      · exact .inl (hbreaks hfront hc)
      rcases happend hc with hc | hc
      · exact .inr ⟨_, by simp, hc⟩
      · exact .inl (hbreaks hback hc)
  | next hfront _ hrest _ =>
      rcases happend hc with hc | hc
      · exact .inl (hbreaks hfront hc)
      rcases happend hc with hc | hc
      · exact .inr ⟨_, by simp, hc⟩
      · exact .inl (hrest c hc)

theorem join {front back : Text} (hseparator : Breaks separator) (hne : separator ≠ [])
    (hfront : Breaks front) (hback : Breaks back) (hparts : parts ≠ []) :
    SetOut parts (front ++ (Text.join separator parts ++ back)) := by
  induction parts generalizing front with
  | nil => exact absurd rfl hparts
  | cons part parts ih =>
      by_cases hnil : parts = []
      · subst hnil
        exact .last hfront hback
      · rw [Text.join_cons part hnil, List.append_assoc, List.append_assoc]
        exact .next hfront (ih hseparator hnil) (hseparator.breaksLine_append hne _)

theorem preceded (hseparator : Breaks separator) (hne : separator ≠ []) (parts : List Text) :
    SetOut parts (preceded separator parts) := by
  induction parts with
  | nil => exact .none
  | cons part parts ih =>
      have hrest : BreaksLine (Scaffold.preceded separator parts) := by
        cases parts with
        | nil => simp [Scaffold.preceded, BreaksLine]
        | cons next parts =>
            rw [Scaffold.preceded, List.flatMap_cons, List.append_assoc]
            exact hseparator.breaksLine_append hne _
      have hcons : Scaffold.preceded separator (part :: parts) =
          separator ++ (part ++ Scaffold.preceded separator parts) := by
        simp [Scaffold.preceded]
      rw [hcons]
      exact .next hseparator ih hrest

end SetOut

/-! ## Texts that blocks are put into -/

/-- The longer text is the text with one block for each list of parts put in, in this order. -/
inductive Adds : (added : List (List Text)) → (text longer : Text) → Prop
  | nil : Adds [] [] []
  | keep {added : List (List Text)} {text longer : Text} (c : Char) :
      Adds added text longer → Adds added (c :: text) (c :: longer)
  | put {parts : List Text} {block : Text} {added : List (List Text)} {text longer : Text} :
      SetOut parts block → Adds added text longer →
      Adds (parts :: added) text (block ++ longer)

namespace Adds

theorem refl (text : Text) : Adds [] text text := by
  induction text with
  | nil => exact .nil
  | cons c text ih => exact .keep c ih

theorem of_nil (h : ∀ parts ∈ added, parts = []) (text : Text) : Adds added text text := by
  induction added with
  | nil => exact refl text
  | cons parts added ih =>
      rw [h parts (by simp)]
      exact .put .none (ih fun others hmem => h others (by simp [hmem]))

theorem eq_of_nil (h : Adds added text longer) (hnil : ∀ parts ∈ added, parts = []) :
    longer = text := by
  induction h with
  | nil => rfl
  | keep c _ ih => rw [ih hnil]
  | put hset _ ih =>
      obtain rfl := hnil _ (List.mem_cons_self ..)
      cases hset
      exact ih fun others hmem => hnil others (List.mem_cons_of_mem _ hmem)

theorem append (h : Adds added a p) (hothers : Adds others b q) :
    Adds (added ++ others) (a ++ b) (p ++ q) := by
  induction h with
  | nil => exact hothers
  | keep c _ ih => exact .keep c ih
  | put hset _ ih =>
      rw [List.append_assoc]
      exact .put hset ih

theorem one (a b : Text) (hset : SetOut parts block) : Adds [parts] (a ++ b) (a ++ (block ++ b)) :=
  (refl a).append (.put hset (refl b))

/-- A character that no block holds stands in the text, too, and cuts the blocks into those in front
of it and those behind it. -/
theorem exists_of_char (h : Adds added text (a ++ c :: b)) (hc : c ≠ '\n')
    (hparts : ∀ parts ∈ added, ∀ part ∈ parts, c ∉ part) :
    ∃ first second text₁ text₂, added = first ++ second ∧ text = text₁ ++ c :: text₂ ∧
      Adds first text₁ a ∧ Adds second text₂ b := by
  generalize hlonger : a ++ c :: b = longer at h
  induction h generalizing a with
  | nil => simp at hlonger
  | @keep added text longer d hrest ih =>
      cases a with
      | nil =>
          obtain ⟨rfl, rfl⟩ := List.cons.inj hlonger
          exact ⟨[], added, [], text, rfl, rfl, .nil, hrest⟩
      | cons e a =>
          obtain ⟨rfl, htail⟩ := List.cons.inj hlonger
          obtain ⟨first, second, text₁, text₂, hadded, rfl, hfirst, hsecond⟩ := ih hparts htail
          exact ⟨first, second, e :: text₁, text₂, hadded, rfl, .keep e hfirst, hsecond⟩
  | @put parts block added text longer hset hrest ih =>
      -- The character lies behind the block, which does not hold it.
      have hblock : c ∉ block := hset.not_mem (hparts parts (by simp)) hc
      obtain ⟨behind, rfl, hbehind⟩ : ∃ behind, a = block ++ behind ∧ behind ++ c :: b = longer := by
        rcases List.append_eq_append_iff.1 hlonger with ⟨m, rfl, hm⟩ | ⟨m, rfl, hm⟩
        · cases m with
          | nil => exact ⟨[], by simp, hm⟩
          | cons d m =>
              obtain ⟨rfl, -⟩ := List.cons.inj hm
              simp at hblock
        · exact ⟨m, rfl, hm.symm⟩
      obtain ⟨first, second, text₁, text₂, rfl, rfl, hfirst, hsecond⟩ :=
        ih (fun others hmem => hparts others (by simp [hmem])) hbehind
      exact ⟨parts :: first, second, text₁, text₂, rfl, rfl, .put hset hfirst, hsecond⟩

/-- A run of characters with which no block starts stands in the text, too. -/
theorem exists_of_run (h : Adds added text (run ++ b)) (hbreak : '\n' ∉ run)
    (hparts : ∀ parts ∈ added, ∀ part ∈ parts, ∀ c ∈ part.head?, c ∉ run) :
    ∃ first second rest, added = first ++ second ∧ text = run ++ rest ∧
      Adds first run run ∧ Adds second rest b := by
  generalize hlonger : run ++ b = longer at h
  induction h generalizing run with
  | nil =>
      obtain ⟨rfl, rfl⟩ := List.append_eq_nil_iff.1 hlonger
      exact ⟨[], [], [], rfl, rfl, .nil, .nil⟩
  | @keep added text longer d hrest ih =>
      cases run with
      | nil =>
          obtain rfl := hlonger
          exact ⟨[], added, d :: text, rfl, rfl, .nil, .keep d hrest⟩
      | cons e run =>
          obtain ⟨rfl, htail⟩ := List.cons.inj hlonger
          obtain ⟨first, second, rest, hadded, rfl, hfirst, hsecond⟩ :=
            ih (fun hmem => hbreak (List.mem_cons_of_mem e hmem))
              (fun parts hmem part hpart d hd hrun =>
                hparts parts hmem part hpart d hd (List.mem_cons_of_mem e hrun)) htail
          exact ⟨first, second, rest, hadded, rfl, .keep e hfirst, hsecond⟩
  | @put parts block added text longer hset hrest ih =>
      cases run with
      | nil =>
          obtain rfl := hlonger
          exact ⟨[], parts :: added, text, rfl, rfl, .nil, .put hset hrest⟩
      | cons e run =>
          -- Only an empty block can stand in front of the run.
          have hblock : block = [] := by
            cases block with
            | nil => rfl
            | cons d block =>
                obtain ⟨rfl, -⟩ := List.cons.inj hlonger
                rcases hset.head (c := e) rfl with rfl | ⟨part, hpart, he⟩
                · exact absurd (List.mem_cons_self ..) hbreak
                · exact absurd (List.mem_cons_self ..) (hparts parts (by simp) part hpart e he)
          subst hblock
          obtain ⟨first, second, rest, rfl, rfl, hfirst, hsecond⟩ :=
            ih hbreak (fun others hmem => hparts others (by simp [hmem])) hlonger
          exact ⟨parts :: first, second, rest, rfl, rfl, .put hset hfirst, hsecond⟩

/-- A further block goes in next to a character that no other block holds, in front of it. -/
theorem insert_before (h : Adds added text (p ++ c :: q)) (hc : c ≠ '\n')
    (hparts : ∀ parts ∈ added, ∀ part ∈ parts, c ∉ part) (hset : SetOut parts block) :
    ∃ others, others.Perm (parts :: added) ∧ Adds others text (p ++ (block ++ c :: q)) := by
  obtain ⟨first, second, text₁, text₂, rfl, rfl, hfirst, hsecond⟩ := h.exists_of_char hc hparts
  exact ⟨first ++ parts :: second, List.perm_middle, hfirst.append (.put hset (.keep c hsecond))⟩

/-- A further block goes in next to a character that no other block holds, behind it and behind a run
of characters with which none starts. -/
theorem insert_behind (h : Adds added text (p ++ c :: (run ++ q))) (hc : c ≠ '\n')
    (hparts : ∀ parts ∈ added, ∀ part ∈ parts, c ∉ part) (hbreak : '\n' ∉ run)
    (hrun : ∀ parts ∈ added, ∀ part ∈ parts, ∀ d ∈ part.head?, d ∉ run)
    (hset : SetOut parts block) : ∃ others, others.Perm (parts :: added) ∧
      Adds others text (p ++ c :: (run ++ (block ++ q))) := by
  obtain ⟨first, second, text₁, text₂, rfl, rfl, hfirst, hsecond⟩ := h.exists_of_char hc hparts
  obtain ⟨third, fourth, rest, rfl, rfl, hthird, hfourth⟩ :=
    hsecond.exists_of_run hbreak fun parts hmem => hrun parts (by simp [hmem])
  refine ⟨first ++ (third ++ parts :: fourth), ?_,
    hfirst.append (.keep c (hthird.append (.put hset hfourth)))⟩
  rw [← List.append_assoc, ← List.append_assoc first]
  exact List.perm_middle

end Adds

/-! ## The edits -/

/-- Imports are put in as one block. -/
theorem adds_insertImports (content : Text) (paths : List Text) :
    Adds [(missingImports content paths).map importClause] content (insertImports content paths) := by
  obtain ⟨u, head, foot, v, rfl, hgap⟩ := exists_importGap content
  rw [hgap.insertImports_eq]
  refine .one u v ?_
  have hbreaks : Breaks head ∧ Breaks foot := by
    cases hgap with
    | line => simp [Breaks]
    | last => simp [Breaks]
    | top =>
        split <;> simp [Breaks]
  unfold gapLines
  cases hmissing : missingImports (u ++ v) paths with
  | nil => exact .none
  | cons path missing =>
      have hne : (path :: missing).map importClause ≠ [] := by simp
      rw [if_neg (by simp), importLines, Text.lines_eq_join hne, List.append_assoc]
      refine .join (by simp [Breaks]) (by simp) hbreaks.1 ?_ hne
      simpa [Breaks] using hbreaks.2

/-- A line that ends a call has the parenthesis that closes it in front of its semicolon. -/
theorem afterCallLine?_ends {rest : Text} (h : afterCallLine? text = some rest) :
    ∃ front blanks, (∀ c ∈ blanks, isIndent c = true) ∧
      text = front ++ ')' :: ';' :: (blanks ++ rest) := by
  obtain ⟨htext, hends⟩ := afterCallLine?_eq_some h
  generalize text.takeWhile (· != '\n') = line at htext hends
  obtain ⟨more, hmore⟩ := List.isPrefixOf_iff_prefix.1 hends
  have hline := List.takeWhile_append_dropWhile (p := isIndent) (l := line.reverse)
  have hblanks : ∀ c ∈ line.reverse.takeWhile isIndent, isIndent c = true := fun c hc =>
    List.mem_takeWhile_imp hc
  rw [← hmore] at hline
  generalize line.reverse.takeWhile isIndent = blanks at hline hblanks
  refine ⟨more.reverse, blanks.reverse, fun c hc => hblanks c (List.mem_reverse.1 hc), ?_⟩
  rw [htext, ← List.reverse_reverse line, ← hline]
  simp

theorem after?_registration_ends {lineStart : Bool} {rest : Text}
    (h : after? .registration lineStart text = some rest) :
    ∃ front blanks, (∀ c ∈ blanks, isIndent c = true) ∧
      text = front ++ ')' :: ';' :: (blanks ++ rest) := by
  cases lineStart with
  | false => cases h
  | true =>
      rw [after?_registration] at h
      obtain ⟨r₁, hindent, h₁⟩ := Option.bind_eq_some_iff.1 h
      obtain ⟨r₂, hon, h₂⟩ := Option.bind_eq_some_iff.1 h₁
      obtain ⟨r₃, hname, h₃⟩ := Option.bind_eq_some_iff.1 h₂
      obtain ⟨r₄, hopen, hend⟩ := Option.bind_eq_some_iff.1 h₃
      obtain ⟨indent, -, -, rfl⟩ := afterRun?_eq_some hindent
      obtain rfl := Text.after?_eq_some_iff.1 hon
      obtain ⟨name, -, -, rfl⟩ := afterRun?_eq_some hname
      obtain rfl := Text.after?_eq_some_iff.1 hopen
      obtain ⟨front, blanks, hblanks, rfl⟩ := afterCallLine?_ends hend
      exact ⟨indent ++ ("on<" ++ (name ++ (">(" ++ front))), blanks, hblanks, by simp⟩

/-- The rows of a bloc go in behind the parenthesis that closes a call, the character that ends the
row and blanks. -/
theorem BlocStyle.exists_call_end {style : BlocStyle} (h : style.anchor.Cut a b) :
    ∃ front run, a = front ++ ')' :: run ∧ ∀ c ∈ run, c = ',' ∨ c = ';' ∨ isIndent c = true := by
  obtain ⟨front, matched, rfl, -, -, -, hafter, -⟩ := splitAfterLast?_iff.1 h
  cases style with
  | unions =>
      obtain ⟨-, head, parameters, arrow, arguments, blanks, -, -, -, -, hblanks, hmatched⟩ :=
        after?_whenCase_eq_some hafter
      have hmatched : matched ++ b = (head ++ parameters ++ ')' :: arrow ++ arguments ++
          ')' :: ',' :: blanks) ++ b := by
        simpa using hmatched
      refine ⟨front ++ (head ++ parameters ++ ')' :: arrow ++ arguments), ',' :: blanks, ?_, ?_⟩
      · rw [List.append_cancel_right hmatched, List.append_assoc front]
      · intro c hc
        rcases List.mem_cons.1 hc with rfl | hc
        · exact .inl rfl
        · exact .inr (.inr (hblanks c hc))
  | plain =>
      obtain ⟨before, blanks, hblanks, hmatched⟩ := after?_registration_ends hafter
      have hmatched : matched ++ b = (before ++ ')' :: ';' :: blanks) ++ b := by
        simpa using hmatched
      refine ⟨front ++ before, ';' :: blanks, ?_, ?_⟩
      · rw [List.append_cancel_right hmatched, List.append_assoc]
      · intro c hc
        rcases List.mem_cons.1 hc with rfl | hc
        · exact .inr (.inl rfl)
        · exact .inr (.inr (hblanks c hc))

theorem setOut_memberBlock {members : List Text} (hseparator : Breaks separator)
    (hne : separator ≠ []) (hmembers : members ≠ []) :
    SetOut members (memberBlock separator members) := by
  unfold memberBlock
  rw [List.append_assoc]
  exact .join hseparator hne (by simp [Breaks]) (by simp [Breaks]) hmembers

theorem breaks_separator : Breaks "\n" ∧ Breaks "\n\n" := by simp [Breaks]

/-- The import of a model holds none of the characters next to which other blocks go in. -/
theorem not_mem_missing (content : Text) (hfeature : feature.Plain)
    (hplain : ∀ endpoint ∈ endpoints, endpoint.Plain) (hc : isPathChar c = false)
    (hclause : c ∉ ("import '';" : Text)) :
    ∀ part ∈ (missingImports content (feature.modelImports endpoints)).map importClause, c ∉ part := by
  intro part hpart
  obtain ⟨path, hpath, rfl⟩ := List.mem_map.1 hpart
  have hmodel := mem_modelImports feature hplain path (mem_missingImports.1 hpath).1
  exact not_mem_importClause (hmodel.consists hfeature) hc hclause

theorem ClassFile.insert_adds {file : ClassFile} (hfeature : feature.Plain)
    (hplain : ∀ endpoint ∈ endpoints, endpoint.Plain) (hne : endpoints ≠ [])
    (h : file.insert feature content endpoints = .ok result) :
    ∃ added, added.Perm [(missingImports content (feature.modelImports endpoints)).map importClause,
        endpoints.map fun endpoint => file.member feature endpoint] ∧ Adds added content result := by
  rw [ClassFile.insert_eq] at h
  obtain ⟨⟨p, q⟩, hsplit, rfl⟩ := map_eq_ok.1 h
  obtain ⟨rest, rfl⟩ := exists_brace_of_splitEnd hsplit
  have himports := adds_insertImports content (feature.modelImports endpoints)
  rw [splitEnd_append hsplit] at himports
  have hmembers : endpoints.map (fun endpoint => file.member feature endpoint) ≠ [] := by
    simpa using hne
  obtain ⟨added, hperm, hadds⟩ := himports.insert_before (by decide)
    (by simpa using not_mem_missing content hfeature hplain (by decide) (by decide))
    (setOut_memberBlock breaks_separator.2 (by simp) hmembers)
  exact ⟨added, hperm.trans (.swap ..), hadds⟩

theorem insertAfterLast_adds {anchor : Anchor} (hseparator : Breaks separator)
    (hne : separator ≠ []) (h : insertAfterLast content anchor (preceded separator parts) = .ok result) :
    Adds [parts] content result := by
  obtain ⟨a, b, rfl, -, rfl⟩ := exists_cut_of_insertAfterLast h
  exact .one a b (.preceded hseparator hne parts)

theorem appendDeclarations_adds (hne : declarations ≠ [])
    (h : appendDeclarations content declarations = .ok result) : Adds [declarations] content result := by
  obtain ⟨p, q, rfl, -, rfl⟩ := appendDeclarations_eq_ok.1 h
  have hempty : Breaks [] := by simp [Breaks]
  have hadds := Adds.one (p ++ ['\x7d']) q
    (.join breaks_separator.2 (by simp) breaks_separator.2 hempty hne)
  simpa using hadds

theorem BlocStyle.insert_adds {style : BlocStyle} (hfeature : feature.Plain)
    (hplain : ∀ endpoint ∈ endpoints, endpoint.Plain) (hne : endpoints ≠ [])
    (h : style.insert feature content endpoints = .ok result) :
    ∃ added, added.Perm [(missingImports content (feature.modelImports endpoints)).map importClause,
        endpoints.map style.row, endpoints.map (style.handler feature)] ∧
      Adds added content result := by
  unfold BlocStyle.insert at h
  obtain ⟨middle, hrows, hhandlers⟩ := bind_eq_ok.1 h
  obtain ⟨a, b, hab, hcut, rfl⟩ := exists_cut_of_insertAfterLast hrows
  have himports := adds_insertImports content (feature.modelImports endpoints)
  rw [hab] at himports
  have hclose : ∀ part ∈ (missingImports content (feature.modelImports endpoints)).map importClause,
      ')' ∉ part := not_mem_missing content hfeature hplain (by decide) (by decide)
  have hbrace : ∀ part ∈ (missingImports content (feature.modelImports endpoints)).map importClause,
      '\x7d' ∉ part := not_mem_missing content hfeature hplain (by decide) (by decide)
  have hhead : ∀ part ∈ (missingImports content (feature.modelImports endpoints)).map importClause,
      part.head? = some 'i' := by
    intro part hpart
    obtain ⟨path, -, rfl⟩ := List.mem_map.1 hpart
    rfl
  generalize (missingImports content (feature.modelImports endpoints)).map importClause = lines
    at himports hclose hbrace hhead ⊢
  -- The rows go in behind the end of a call, which no import holds.
  obtain ⟨front, run, rfl, hrun⟩ := BlocStyle.exists_call_end hcut
  rw [List.append_assoc, List.cons_append] at himports
  have hapart : '\n' ∉ run ∧ 'i' ∉ run :=
    ⟨fun hmem => absurd (hrun _ hmem) (by decide), fun hmem => absurd (hrun _ hmem) (by decide)⟩
  obtain ⟨added, hperm, hadds⟩ := himports.insert_behind (by decide) (by simpa using hclose) hapart.1
    (by simpa using fun part hpart => hhead part hpart ▸ by simpa using hapart.2)
    (.preceded breaks_separator.1 (by simp) (endpoints.map style.row))
  -- The handlers go in in front of a brace, which neither an import nor a row holds.
  obtain ⟨p, q, hends⟩ := exists_classEnd_of_insertIntoClass hhandlers
  obtain ⟨rest, rfl⟩ := exists_brace_of_splitClassEnd hends
  have hmiddle := splitClassEnd_eq_ok_append hends
  rw [hmiddle] at hends hhandlers
  rw [insertIntoClass_eq hends] at hhandlers
  obtain rfl := Except.ok.inj hhandlers
  have hadds : Adds added content (p ++ '\x7d' :: rest) := by
    rw [← hmiddle]
    simpa [BlocStyle.rows] using hadds
  have hrows : ∀ part ∈ endpoints.map style.row, '\x7d' ∉ part := by
    intro part hpart
    obtain ⟨endpoint, hendpoint, rfl⟩ := List.mem_map.1 hpart
    exact (braceless_row (hplain endpoint hendpoint)).not_mem (by decide)
  have hparts : ∀ parts ∈ added, ∀ part ∈ parts, '\x7d' ∉ part := by
    intro parts hmem
    rcases List.mem_cons.1 (hperm.mem_iff.1 hmem) with rfl | hmem
    · exact hrows
    · rw [List.mem_singleton.1 hmem]
      exact hbrace
  obtain ⟨others, hothers, hadds⟩ := hadds.insert_before (by decide) hparts
    (setOut_memberBlock breaks_separator.2 (by simp)
      (by simpa using hne : endpoints.map (style.handler feature) ≠ []))
  refine ⟨others, (hothers.trans (hperm.cons _)).trans ?_, hadds⟩
  exact (List.reverse_perm _).symm

/-! ## What a file lacks -/

namespace SourceFile

/-- The endpoints for which something is not found in the content. -/
def fresh (feature : Feature) (content : Text) (endpoints : List Endpoint) (source : SourceFile) :
    List Endpoint :=
  endpoints.filter fun endpoint => (source.answers feature content endpoint).contains false

/-- The paths of the imports that the content lacks. Events and states import nothing. -/
def imports (feature : Feature) (content : Text) (endpoints : List Endpoint) :
    SourceFile → List Text
  | event => []
  | state => []
  | source => missingImports content (feature.modelImports (source.fresh feature content endpoints))

/-- What an endpoint needs in a file, one list for each block. -/
def renderings (feature : Feature) (content : Text) : SourceFile → List (Endpoint → List Text)
  | ofClass file => [fun endpoint => [file.member feature endpoint]]
  | event =>
    if usesUnions content then [fun endpoint => [eventCase feature endpoint]]
    else [fun endpoint => [plainEventClass feature endpoint]]
  | state =>
    if usesUnions content then [fun endpoint => [stateField endpoint]]
    else [fun endpoint =>
      ((plainStates feature endpoint).filter fun state => !declaresClass content state.1).map (·.2)]
  | bloc =>
    [fun endpoint => [(BlocStyle.ofContent content).row endpoint],
      fun endpoint => [(BlocStyle.ofContent content).handler feature endpoint]]

/-- The parts of the blocks that an extension puts in: the lines of the imports, and what the
endpoints that the file lacks need. -/
def additions (feature : Feature) (content : Text) (endpoints : List Endpoint)
    (source : SourceFile) : List (List Text) :=
  (source.imports feature content endpoints).map importClause ::
    (source.renderings feature content).map
      (source.fresh feature content endpoints).flatMap

theorem length_additions (source : SourceFile) :
    (source.additions feature content endpoints).length ≤ 3 := by
  cases source with
  | ofClass file => simp [additions, renderings]
  | event => simp only [additions, renderings]; split <;> simp
  | state => simp only [additions, renderings]; split <;> simp
  | bloc => simp [additions, renderings]

end SourceFile

theorem contains_false_singleton (answer : Bool) : [answer].contains false = !answer := by
  cases answer <;> rfl

namespace SourceFile

theorem fresh_cons (source : SourceFile) :
    source.fresh feature content (endpoint :: endpoints) =
      if (source.answers feature content endpoint).contains false then
        endpoint :: source.fresh feature content endpoints
      else source.fresh feature content endpoints :=
  List.filter_cons

theorem fresh_eq_filter {found : Endpoint → Bool}
    (h : ∀ endpoint, source.answers feature content endpoint = [found endpoint]) :
    source.fresh feature content endpoints = endpoints.filter fun endpoint => !found endpoint := by
  refine List.filter_congr fun endpoint _ => ?_
  rw [h, contains_false_singleton]

theorem fresh_ofClass (file : ClassFile) : (ofClass file).fresh feature content endpoints =
    lacking content Endpoint.methodName endpoints :=
  fresh_eq_filter fun _ => rfl

theorem fresh_bloc : bloc.fresh feature content endpoints =
    lacking content (BlocStyle.ofContent content).handlerName endpoints :=
  fresh_eq_filter fun _ => rfl

theorem fresh_event_of_unions (hunions : usesUnions content = true) :
    event.fresh feature content endpoints = lacking content Endpoint.eventName endpoints :=
  fresh_eq_filter fun _ => if_pos hunions

theorem fresh_event_of_plain (hplain : usesUnions content = false) :
    event.fresh feature content endpoints =
      endpoints.filter fun endpoint => !declaresClass content endpoint.plainEvent :=
  fresh_eq_filter fun _ => if_neg (by simp [hplain])

theorem fresh_state_of_unions (hunions : usesUnions content = true) :
    state.fresh feature content endpoints = lacking content Endpoint.stateField endpoints :=
  fresh_eq_filter fun _ => if_pos hunions

/-- An endpoint that the file lacks nothing of has no part in the declarations that go in. -/
theorem flatMap_fresh_state (feature : Feature) (endpoints : List Endpoint)
    (hplain : usesUnions content = false) :
    ((state.fresh feature content endpoints).flatMap fun endpoint =>
      ((plainStates feature endpoint).filter fun state => !declaresClass content state.1).map (·.2)) =
      ((endpoints.flatMap (plainStates feature)).filter fun state =>
        !declaresClass content state.1).map (·.2) := by
  induction endpoints with
  | nil => rfl
  | cons endpoint endpoints ih =>
      rw [List.flatMap_cons, List.filter_append, List.map_append, ← ih]
      by_cases hlacks : (state.answers feature content endpoint).contains false = true
      · rw [fresh_cons, if_pos hlacks, List.flatMap_cons]
      · have hnone : (plainStates feature endpoint).filter
            (fun state => !declaresClass content state.1) = [] := by
          rw [List.filter_eq_nil_iff]
          intro declaration hmem hdeclares
          refine hlacks (List.contains_iff_mem.2 ?_)
          rw [answers, if_neg (by simp [hplain])]
          exact List.mem_map.2 ⟨declaration, hmem, by simpa using hdeclares⟩
        rw [fresh_cons, if_neg hlacks, hnone]
        rfl

theorem additions_of_fresh (h : source.fresh feature content endpoints = []) :
    ∀ parts ∈ source.additions feature content endpoints, parts = [] := by
  have himports : source.imports feature content endpoints = [] := by
    cases source <;> simp [imports, h, Feature.modelImports, missingImports]
  intro parts hparts
  unfold additions at hparts
  rw [himports, h] at hparts
  rcases List.mem_cons.1 hparts with rfl | hparts
  · rfl
  · obtain ⟨rendering, -, rfl⟩ := List.mem_map.1 hparts
    rfl

theorem additions_ofClass (file : ClassFile) :
    (ofClass file).additions feature content endpoints =
      [(missingImports content (feature.modelImports
          (lacking content Endpoint.methodName endpoints))).map importClause,
        (lacking content Endpoint.methodName endpoints).map fun endpoint =>
          file.member feature endpoint] := by
  simp [additions, imports, renderings, fresh_ofClass, List.map_eq_flatMap]

theorem additions_bloc : bloc.additions feature content endpoints =
    [(missingImports content (feature.modelImports (lacking content
        (BlocStyle.ofContent content).handlerName endpoints))).map importClause,
      (lacking content (BlocStyle.ofContent content).handlerName endpoints).map
        (BlocStyle.ofContent content).row,
      (lacking content (BlocStyle.ofContent content).handlerName endpoints).map
        ((BlocStyle.ofContent content).handler feature)] := by
  simp [additions, imports, renderings, fresh_bloc, List.map_eq_flatMap]

theorem additions_event_of_unions (hunions : usesUnions content = true) :
    event.additions feature content endpoints =
      [[], (lacking content Endpoint.eventName endpoints).map (eventCase feature)] := by
  simp [additions, imports, renderings, hunions, fresh_event_of_unions, List.map_eq_flatMap]

theorem additions_event_of_plain (hplain : usesUnions content = false) :
    event.additions feature content endpoints =
      [[], (endpoints.filter fun endpoint => !declaresClass content endpoint.plainEvent).map
        (plainEventClass feature)] := by
  simp [additions, imports, renderings, hplain, fresh_event_of_plain, List.map_eq_flatMap]

theorem additions_state_of_unions (hunions : usesUnions content = true) :
    state.additions feature content endpoints =
      [[], (lacking content Endpoint.stateField endpoints).map stateField] := by
  simp [additions, imports, renderings, hunions, fresh_state_of_unions, List.map_eq_flatMap]

theorem additions_state_of_plain (hplain : usesUnions content = false) :
    state.additions feature content endpoints =
      [[], ((endpoints.flatMap (plainStates feature)).filter fun state =>
        !declaresClass content state.1).map (·.2)] := by
  simp [additions, imports, renderings, hplain, ← flatMap_fresh_state feature endpoints hplain]

end SourceFile

/-- What goes in for no items at all is nothing, so only edits for some items count. -/
theorem completeWith_adds {α : Type} {insert : Text → List α → Except MissingAnchor Text}
    {items : List α} (render : List α → List (List Text)) (hnil : ∀ parts ∈ render [], parts = [])
    (hinsert : items ≠ [] → insert content items = .ok result →
      ∃ added, added.Perm (render items) ∧ Adds added content result)
    (h : completeWith insert content items = .ok result) :
    ∃ added, added.Perm (render items) ∧ Adds added content result := by
  by_cases hitems : items = []
  · subst hitems
    obtain rfl := Except.ok.inj h
    exact ⟨render [], .refl _, .of_nil hnil content⟩
  · rw [completeWith_of_ne_nil hitems] at h
    exact hinsert hitems h

/-- The same for edits that put in the texts of the items as one block. -/
theorem completeWith_adds_one {α : Type} {insert : Text → List α → Except MissingAnchor Text}
    {items : List α} (render : α → Text)
    (hinsert : items ≠ [] → insert content items = .ok result →
      Adds [items.map render] content result)
    (h : completeWith insert content items = .ok result) :
    ∃ added, added.Perm [[], items.map render] ∧ Adds added content result :=
  completeWith_adds (fun items => [[], items.map render]) (by simp)
    (fun hne hresult => ⟨_, .refl _, .put .none (hinsert hne hresult)⟩) h

namespace SourceFile

theorem exists_adds (hfeature : feature.Plain) (hplain : ∀ endpoint ∈ endpoints, endpoint.Plain)
    (h : (source.part feature endpoints).extend content = .ok result) :
    ∃ added, added.Perm (source.additions feature content endpoints) ∧
      Adds added content result := by
  have hlacking : ∀ {name : Endpoint → Text}, ∀ endpoint ∈ lacking content name endpoints,
      endpoint.Plain := fun endpoint hmem => hplain endpoint (mem_of_mem_lacking hmem)
  have hnone : missingImports content (feature.modelImports []) = [] := rfl
  cases source with
  | ofClass file =>
      have h : file.extend feature content endpoints = .ok result := h
      rw [ClassFile.extend_eq] at h
      rw [additions_ofClass]
      exact completeWith_adds (fun new =>
        [(missingImports content (feature.modelImports new)).map importClause,
          new.map fun endpoint => file.member feature endpoint]) (by simp [hnone])
        (ClassFile.insert_adds hfeature hlacking) h
  | event =>
      have h : extendEvents feature content endpoints = .ok result := h
      rw [extendEvents_eq] at h
      split at h
      · next hunions =>
        rw [additions_event_of_unions hunions]
        exact completeWith_adds_one (eventCase feature)
          (fun _ => insertAfterLast_adds breaks_separator.2 (by simp)) h
      · next hunions =>
        rw [additions_event_of_plain (by simpa using hunions)]
        exact completeWith_adds_one (plainEventClass feature)
          (fun hne => appendDeclarations_adds (by simpa using hne)) h
  | state =>
      have h : extendState feature content endpoints = .ok result := h
      rw [extendState_eq] at h
      split at h
      · next hunions =>
        rw [additions_state_of_unions hunions]
        exact completeWith_adds_one stateField
          (fun _ => insertAfterLast_adds breaks_separator.1 (by simp)) h
      · next hunions =>
        rw [additions_state_of_plain (by simpa using hunions)]
        exact completeWith_adds_one (·.2)
          (fun hne => appendDeclarations_adds (by simpa using hne)) h
  | bloc =>
      have h : extendBloc feature content endpoints = .ok result := h
      rw [extendBloc_eq_completeWith] at h
      rw [additions_bloc]
      exact completeWith_adds (fun new =>
        [(missingImports content (feature.modelImports new)).map importClause,
          new.map (BlocStyle.ofContent content).row,
          new.map ((BlocStyle.ofContent content).handler feature)]) (by simp [hnone])
        (BlocStyle.insert_adds hfeature hlacking) h

theorem nodup_imports (source : SourceFile) : (source.imports feature content endpoints).Nodup := by
  cases source with
  | event => exact List.nodup_nil
  | state => exact List.nodup_nil
  | ofClass file => exact (nodup_eraseDups _).filter _
  | bloc => exact (nodup_eraseDups _).filter _

/-- Extending a file only adds to it: at most three blocks, with the imports and with what the
endpoints need that the file lacks. If it lacks nothing, it stays as it is. -/
theorem extend_adds (hfeature : feature.Plain) (hplain : ∀ endpoint ∈ endpoints, endpoint.Plain)
    (h : (source.part feature endpoints).extend content = .ok result) :
    (∃ added, added.Perm (source.additions feature content endpoints) ∧ added.length ≤ 3 ∧
        Adds added content result) ∧
      (source.imports feature content endpoints).Nodup ∧
      (source.fresh feature content endpoints = [] → result = content) := by
  obtain ⟨added, hperm, hadds⟩ := exists_adds hfeature hplain h
  refine ⟨⟨added, hperm, hperm.length_eq ▸ length_additions source, hadds⟩, nodup_imports source,
    fun hfresh => hadds.eq_of_nil fun parts hmem => ?_⟩
  exact additions_of_fresh hfresh parts (hperm.mem_iff.1 hmem)

end SourceFile

/-- A bloc by hand lacks what two further endpoints need. -/
theorem extend_adds_byHand : ∃ result,
    (SourceFile.bloc.part newsFeature [readEndpoint, listEndpoint]).extend oldBloc = .ok result ∧
      (∃ added, added.Perm (SourceFile.bloc.additions newsFeature oldBloc
          [readEndpoint, listEndpoint]) ∧ added.length ≤ 3 ∧ Adds added oldBloc result) ∧
      (SourceFile.bloc.imports newsFeature oldBloc [readEndpoint, listEndpoint]).Nodup ∧
      (SourceFile.bloc.fresh newsFeature oldBloc [readEndpoint, listEndpoint] = [] →
        result = oldBloc) := by
  have hplain : ∀ endpoint ∈ [readEndpoint, listEndpoint], endpoint.Plain := by
    simpa using ⟨readEndpoint_quiet.toPlain, listEndpoint_quiet.toPlain⟩
  obtain ⟨result, hresult⟩ := exists_of_isOk (extend_byHand.1 oldBloc List.mem_cons_self).1
  exact ⟨result, hresult, SourceFile.extend_adds newsFeature_plain hplain hresult⟩

end Scaffold
