import Scaffold.Patch.Extension
import Scaffold.Proofs.Dart.Templates
import Scaffold.Proofs.Patch.Scanning

/-!
# Members behind anchors

Members that are put in behind the last match of an anchor end with the last match of the new text,
so that the next ones go in behind them: `cut_eventCases`, `cut_whenCases`, `cut_registrations` and
`cut_stateFields`.
-/

namespace Scaffold

namespace Anchor

variable {anchor : Anchor} {lineStart : Bool} {text a b x rest rest' left : Text} {mark : Char}

/-- The text is cut between `a` and `b`, behind the last match. -/
def Cut (anchor : Anchor) (a b : Text) : Prop :=
  anchor.splitAfterLast? true 0 (a ++ b) = some (a, b)

theorem cut_of_eq (h : anchor.splitAfterLast? true 0 text = some (a, b)) : anchor.Cut a b := by
  unfold Cut
  rwa [← splitAfterLast?_eq_some_append h]

/-! ## Cases of the events -/

theorem after?_eventCase (text : Text) :
    after? eventCase lineStart text = (Text.after? "const factory" text).bind (afterChar? ';') :=
  rfl

/-- Taking a part off a text with a mark that is not in the part leaves the mark. -/
theorem after?_append_of_mem {part : Text} (hpart : mark ∉ part) (hmem : mark ∈ left) :
    (∀ rest, Text.after? part (left ++ rest) = none) ∨
      ∃ left', mark ∈ left' ∧ ∀ rest, Text.after? part (left ++ rest) = some (left' ++ rest) := by
  induction part generalizing left with
  | nil => exact .inr ⟨left, hmem, fun rest => rfl⟩
  | cons p part ih =>
      rw [List.mem_cons, not_or] at hpart
      cases left with
      | nil => simp at hmem
      | cons c left =>
          by_cases hc : p = c
          · subst hc
            have hmem : mark ∈ left := (List.mem_cons.1 hmem).resolve_left hpart.1
            simpa [Text.after?] using ih hpart.2 hmem
          · exact .inl fun rest => by simp [Text.after?, hc]

/-- The next place of a mark that stands in `left` does not depend on what follows. -/
theorem afterChar?_append_of_mem (hmem : mark ∈ left) :
    ∃ first last, left = first ++ mark :: last ∧ mark ∉ first ∧
      ∀ rest, afterChar? mark (left ++ rest) = some (last ++ rest) := by
  obtain ⟨first, last, rfl, hfirst⟩ := List.eq_append_cons_of_mem hmem
  refine ⟨first, last, rfl, hfirst, fun rest => ?_⟩
  rw [List.append_assoc, List.cons_append]
  exact afterChar?_append hfirst (last ++ rest)

theorem afterChar?_skip (h : mark ∉ left) (rest : Text) :
    afterChar? mark (left ++ rest) = afterChar? mark rest := by
  have hall : ∀ c ∈ left, (c != mark) = true := by
    intro c hc
    rw [bne_iff_ne]
    rintro rfl
    exact h hc
  unfold afterChar?
  rw [List.dropWhile_append_of_pos hall]

theorem carries_eventCase (h : ';' ∈ left) (rest rest' : Text) :
    eventCase.Carries left rest rest' := by
  refine .of_alike fun lineStart => ?_
  rw [after?_eventCase, after?_eventCase]
  have hword : ';' ∉ "const factory".toList := by decide
  rcases after?_append_of_mem hword h with hnone | ⟨left', hmem, h'⟩
  · exact .inl ⟨by rw [hnone]; rfl, by rw [hnone]; rfl⟩
  · obtain ⟨-, last, -, -, hlast⟩ := afterChar?_append_of_mem hmem
    refine .inr ⟨last, ?_, ?_⟩
    · rw [h', Option.bind_some, hlast]
    · rw [h', Option.bind_some, hlast]

theorem after?_eventCase_of_ne {c : Char} (hc : c ≠ 'c') :
    after? eventCase lineStart (c :: rest) = none := by
  have hword : Text.after? "const factory" (c :: rest) = none := if_neg (Ne.symm hc)
  rw [after?_eventCase, hword, Option.bind_none]

/-! ## Branches -/

theorem count_le_of_append {used : Text} (h : text = used ++ left) (hused : mark ∉ used) :
    left.count mark = text.count mark := by
  rw [h, List.count_append, List.count_eq_zero.2 hused, Nat.zero_add]

/-- A match that starts in front of two closing parentheses ends in front of the end of the line that
the second one stands in. -/
theorem carries_whenCase (h : 2 ≤ left.count ')') (hrest : BreaksLine rest)
    (hrest' : BreaksLine rest') : whenCase.Carries left rest rest' := by
  refine .of_alike fun lineStart => ?_
  cases lineStart with
  | false => exact .inl ⟨rfl, rfl⟩
  | true =>
      rw [after?_whenCase, after?_whenCase]
      rcases staysInLine_branchHead? left rest rest' hrest hrest' with ⟨h₁, h₁'⟩ | ⟨left₁, h₁, h₁'⟩
      · exact .inl ⟨by rw [h₁]; rfl, by rw [h₁']; rfl⟩
      rw [h₁, h₁', Option.bind_some, Option.bind_some]
      obtain ⟨used, hused, htext⟩ := passes_branchHead? _ _ h₁
      rw [← List.append_assoc] at htext
      have hcount₁ := count_le_of_append (List.append_cancel_right htext) hused
      obtain ⟨first, left₂, rfl, hfirst, hlast⟩ :=
        afterChar?_append_of_mem (List.count_pos_iff.1 (by omega : 0 < left₁.count ')'))
      rw [hlast, hlast, Option.bind_some, Option.bind_some]
      have hcount₂ : 1 ≤ left₂.count ')' := by
        rw [List.count_append, List.count_cons_self, List.count_eq_zero.2 hfirst] at hcount₁
        omega
      rcases staysInLine_branchArrow? left₂ rest rest' hrest hrest' with
        ⟨h₃, h₃'⟩ | ⟨left₃, h₃, h₃'⟩
      · exact .inl ⟨by rw [h₃]; rfl, by rw [h₃']; rfl⟩
      rw [h₃, h₃', Option.bind_some, Option.bind_some]
      obtain ⟨used', hused', htext'⟩ := passes_branchArrow? _ _ h₃
      rw [← List.append_assoc] at htext'
      have hcount₃ := count_le_of_append (List.append_cancel_right htext') hused'
      obtain ⟨-, left₄, -, -, hlast'⟩ :=
        afterChar?_append_of_mem (List.count_pos_iff.1 (by omega : 0 < left₃.count ')'))
      rw [hlast', hlast', Option.bind_some, Option.bind_some]
      exact staysInLine_branchEnd? left₄ rest rest' hrest hrest'

theorem carries_registration (hrest : BreaksLine rest) (hrest' : BreaksLine rest') :
    registration.Carries left rest rest' := by
  refine .of_alike fun lineStart => ?_
  cases lineStart with
  | false => exact .inl ⟨rfl, rfl⟩
  | true => exact staysInLine_registrationLine? left rest rest' hrest hrest'

/-! ## Fields of the state -/

/-- What stands in front of the block of a state's fields. -/
def fieldsHead? (text : Text) : Option Text :=
  (Text.after? "const factory " text).bind fun rest =>
    (afterRun? isWordChar rest).bind (Text.after? "(\x7b")

theorem after?_stateFields (text : Text) :
    after? stateFields lineStart text = (fieldsHead? text).bind fromBlockEnd? := by
  simp only [after?, fieldsHead?, Option.bind_eq_bind, Option.bind_assoc]

theorem staysInLine_fieldsHead? : StaysInLine fieldsHead? :=
  (staysInLine_after? (by decide)).bind
    ((staysInLine_afterRun? isWordChar_break).bind (staysInLine_after? (by decide)))

theorem closesBlock_of_brace (h : '\x7d' ∉ text) (hrest : BreaksLine rest)
    (hne : text ≠ []) : closesBlock (text ++ rest) = false := by
  cases text with
  | nil => exact absurd rfl hne
  | cons c text =>
      rw [List.mem_cons, not_or] at h
      by_cases hc : c = '\n'
      · subst hc
        rw [List.cons_append, closesBlock, hrest.dropWhile isIndent (by decide)]
        cases hdrop : text.dropWhile isIndent with
        | nil =>
            cases rest with
            | nil => rfl
            | cons d rest =>
                obtain rfl := hrest d rfl
                rfl
        | cons d left =>
            have hmem : d ∈ text := by
              have : d ∈ text.dropWhile isIndent := by rw [hdrop]; simp
              exact List.dropWhile_subset _ this
            have hd : ¬ '\x7d' = d := fun heq => h.2 (heq ▸ hmem)
            simp [Text.startsWith, List.isPrefixOf, hd]
      · rw [List.cons_append, closesBlock.eq_def]
        split
        · next heq => exact absurd (List.cons.inj heq).1 hc
        · rfl

/-- Whether a block ends at a place is seen up to the end of the next line. -/
theorem closesBlock_append (hrest : BreaksLine rest) (hrest' : BreaksLine rest') (hne : left ≠ []) :
    closesBlock (left ++ rest) = closesBlock (left ++ rest') := by
  cases left with
  | nil => exact absurd rfl hne
  | cons c left =>
      by_cases hc : c = '\n'
      · subst hc
        rw [List.cons_append, List.cons_append, closesBlock, closesBlock,
          hrest.dropWhile isIndent (by decide), hrest'.dropWhile isIndent (by decide), Bool.eq_iff_iff]
        have hiff : ∀ text : Text, Text.startsWith text "\x7d)" = true ↔
            Text.after? "\x7d)" text ≠ none := by
          intro text
          rw [Ne, Text.after?_eq_none_iff, not_not, Text.startsWith, List.isPrefixOf_iff_prefix]
        rw [hiff, hiff]
        have hword : '\n' ∉ "\x7d)".toList := by decide
        rcases staysInLine_after? hword (left.dropWhile isIndent) rest rest' hrest hrest' with ⟨h, h'⟩ | ⟨left', h, h'⟩
        · rw [h, h']
        · rw [h, h']
          simp
      · have hno : ∀ text, closesBlock (c :: text) = false := by
          intro text
          rw [closesBlock.eq_def]
          split
          · next heq => exact absurd (List.cons.inj heq).1 hc
          · rfl
        rw [List.cons_append, List.cons_append, hno, hno]

theorem fromBlockEnd?_of_closes (h : closesBlock rest = true) : fromBlockEnd? rest = some rest := by
  cases rest with
  | nil => cases h
  | cons c rest => simp [fromBlockEnd?, h]

/-- The end of a block behind a text without braces. -/
theorem fromBlockEnd?_append (hclosing : '\x7d' ∉ x) (hrest : BreaksLine rest) :
    fromBlockEnd? (x ++ rest) = fromBlockEnd? rest := by
  induction x with
  | nil => rfl
  | cons c x ih =>
      have hcloses := closesBlock_of_brace hclosing hrest (by simp)
      rw [List.mem_cons, not_or] at hclosing
      rw [List.cons_append] at hcloses ⊢
      rw [fromBlockEnd?, hcloses, ih hclosing.2]
      simp

theorem closesBlock.breaksLine (h : closesBlock rest = true) : BreaksLine rest := by
  intro c hc
  cases rest with
  | nil => cases hc
  | cons d rest =>
      obtain rfl : d = c := by simpa using hc
      by_contra hne
      rw [closesBlock.eq_def] at h
      split at h
      · next heq => exact hne (List.cons.inj heq).1
      · cases h

/-- The end of the block that `left` opens lies in `left`, or is the next one behind it. -/
theorem fromBlockEnd?_alike (hcloses : closesBlock b = true) (hx : BreaksLine (x ++ b))
    (hbrace : '\x7d' ∉ x) (left : Text) :
    (fromBlockEnd? (left ++ b) = some b ∧ fromBlockEnd? (left ++ (x ++ b)) = some b) ∨
      ∃ last, last ≠ [] ∧ fromBlockEnd? (left ++ b) = some (last ++ b) ∧
        fromBlockEnd? (left ++ (x ++ b)) = some (last ++ (x ++ b)) := by
  have hb := closesBlock.breaksLine hcloses
  induction left with
  | nil =>
      refine .inl ⟨fromBlockEnd?_of_closes hcloses, ?_⟩
      rw [List.nil_append, fromBlockEnd?_append hbrace hb, fromBlockEnd?_of_closes hcloses]
  | cons c left ih =>
      have hsame : closesBlock (c :: left ++ b) = closesBlock (c :: left ++ (x ++ b)) :=
        closesBlock_append hb hx (by simp)
      by_cases hc : closesBlock (c :: left ++ b) = true
      · rw [hc] at hsame
        exact .inr ⟨c :: left, by simp, fromBlockEnd?_of_closes hc,
          fromBlockEnd?_of_closes hsame.symm⟩
      · rw [Bool.not_eq_true] at hc
        rw [hc] at hsame
        have hsame := hsame.symm
        rw [List.cons_append] at hc hsame ⊢
        rw [List.cons_append, fromBlockEnd?, fromBlockEnd?, hc, hsame]
        exact ih

theorem after?_stateFields_alike (hcloses : closesBlock b = true) (hx : BreaksLine (x ++ b))
    (hbrace : '\x7d' ∉ x) (left : Text) (lineStart : Bool) :
    (after? stateFields lineStart (left ++ b) = none ∧
        after? stateFields lineStart (left ++ (x ++ b)) = none) ∨
      (after? stateFields lineStart (left ++ b) = some b ∧
        after? stateFields lineStart (left ++ (x ++ b)) = some b) ∨
      ∃ last, last ≠ [] ∧ after? stateFields lineStart (left ++ b) = some (last ++ b) ∧
        after? stateFields lineStart (left ++ (x ++ b)) = some (last ++ (x ++ b)) := by
  rw [after?_stateFields, after?_stateFields]
  rcases staysInLine_fieldsHead? left b (x ++ b) (closesBlock.breaksLine hcloses) hx with
    ⟨h, h'⟩ | ⟨left', h, h'⟩
  · exact .inl ⟨by rw [h]; rfl, by rw [h']; rfl⟩
  · rw [h, h', Option.bind_some, Option.bind_some]
    exact .inr (fromBlockEnd?_alike hcloses hx hbrace left')

/-- Lines without braces that are put in at the end of a state's fields become part of them. -/
theorem cut_stateFields_lines (h : stateFields.Cut a b) (hx : BreaksLine (x ++ b))
    (hbrace : '\x7d' ∉ x) : stateFields.Cut (a ++ x) b := by
  obtain ⟨front, matched, ha, htext, hscans, hne, hmatch, hidle⟩ := splitAfterLast?_iff.1 h
  have hcloses : closesBlock b = true := by
    rw [after?_stateFields] at hmatch
    obtain ⟨middle, -, hend⟩ := Option.bind_eq_some_iff.1 hmatch
    obtain ⟨-, -, hcloses⟩ := fromBlockEnd?_eq_some hend
    exact hcloses
  have hlength : ∀ last matched : Text, matched ≠ [] → last ++ (matched ++ b) ≠ b := by
    intro last matched hne heq
    have hpos : 0 < matched.length := List.length_pos_iff.2 hne
    have := congrArg List.length heq
    simp only [List.length_append] at this
    omega
  unfold Cut
  rw [List.append_assoc]
  refine splitAfterLast?_stretch h ?_ ?_ ?_
  · intro left matched _ _ hne
    refine ⟨fun lineStart hnone => ?_, fun lineStart last hsome => ?_⟩
    · rw [← List.append_assoc] at hnone ⊢
      rcases after?_stateFields_alike hcloses hx hbrace (left ++ matched) lineStart with
        ⟨-, h'⟩ | ⟨h, -⟩ | ⟨last, -, h, -⟩
      · exact h'
      · rw [hnone] at h
        cases h
      · rw [hnone] at h
        cases h
    · rw [← List.append_assoc] at hsome ⊢
      rcases after?_stateFields_alike hcloses hx hbrace (left ++ matched) lineStart with
        ⟨h, -⟩ | ⟨h, -⟩ | ⟨last', -, h, h'⟩
      · rw [hsome] at h
        cases h
      · rw [hsome] at h
        exact absurd (Option.some.inj h) (hlength last matched hne)
      · rw [hsome, ← List.append_assoc] at h
        rw [h', ← List.append_cancel_right (Option.some.inj h), List.append_assoc]
  · intro lineStart matched hne hmatched
    rcases after?_stateFields_alike hcloses hx hbrace matched lineStart with
      ⟨h, -⟩ | ⟨-, h'⟩ | ⟨last, hlast, h, -⟩
    · rw [hmatched] at h
      cases h
    · exact h'
    · rw [hmatched] at h
      exact absurd (Option.some.inj h).symm (by simpa using hlength [] last hlast)
  · intro hidle
    rw [idle_iff] at hidle ⊢
    intro a' b' hb
    rw [after?_of_not_wholeLines (by rintro (h | h) <;> cases h)]
    exact hidle a' b' hb

/-! ## Lines of other code -/

/-- Lines without closing parentheses that are put in where a line starts, or behind the last line,
let each match of whole lines in front of them stretch over them at most. -/
theorem across_lines (hlines : anchor.WholeLines) (hx : ')' ∉ x)
    (hplace : (∃ first, left = first ++ ['\n']) ∨ rest = [] ∧ BreaksLine x) :
    Across left x rest (anchor.after? lineStart (left ++ rest))
      (anchor.after? lineStart (left ++ (x ++ rest))) := by
  -- up to the end of the line the two texts agree
  obtain ⟨left, edge, rfl, hedge, hbreaks, hbreaks'⟩ : ∃ left' edge, left = left' ++ edge ∧
      ')' ∉ edge ∧ BreaksLine (edge ++ rest) ∧ BreaksLine (edge ++ (x ++ rest)) := by
    rcases hplace with ⟨first, rfl⟩ | ⟨rfl, hbreaks⟩
    · exact ⟨first, ['\n'], rfl, by decide, by simp [BreaksLine], by simp [BreaksLine]⟩
    · exact ⟨left, [], by simp, by simp, by simp [BreaksLine], by simpa using hbreaks⟩
  rw [List.append_assoc, List.append_assoc]
  have halike : ∀ {answer answer' : Option Text},
      Alike (edge ++ rest) (edge ++ (x ++ rest)) answer answer' →
      Across (left ++ edge) x rest answer answer' := by
    rintro answer answer' (⟨rfl, rfl⟩ | ⟨last, rfl, rfl⟩)
    · exact .none
    · rw [← List.append_assoc, ← List.append_assoc]
      exact .before
  cases lineStart with
  | false =>
      rw [after?_of_mid_line hlines, after?_of_mid_line hlines]
      exact .none
  | true =>
      rcases hlines with rfl | rfl
      · -- a search for a closing parenthesis that leaves the line finds the same one
        have hsearch : ∀ (next : Text → Option Text) (left₁ : Text), ')' ∉ left₁ →
            (∀ text last, next text = some last → ∃ used, text = used ++ last) →
            Across (left ++ edge) x rest
              ((afterChar? ')' (left₁ ++ (edge ++ rest))).bind next)
              ((afterChar? ')' (left₁ ++ (edge ++ (x ++ rest)))).bind next) := by
          intro next left₁ hleft₁ hnext
          rw [afterChar?_skip hleft₁, afterChar?_skip hleft₁, afterChar?_skip hedge,
            afterChar?_skip hedge, afterChar?_skip hx]
          cases hanswer : (afterChar? ')' rest).bind next with
          | none => exact .none
          | some last =>
              obtain ⟨middle, hmiddle, hlast⟩ := Option.bind_eq_some_iff.1 hanswer
              obtain ⟨before, -, rfl⟩ := afterChar?_eq_some hmiddle
              obtain ⟨used, rfl⟩ := hnext middle last hlast
              exact .behind (by simp : before ++ ')' :: used ≠ []) (by simp)
        have hend : ∀ text last, branchEnd? text = some last → ∃ used, text = used ++ last := by
          intro text last h
          obtain ⟨blanks, -, rfl⟩ := branchEnd?_eq_some h
          exact ⟨',' :: blanks, rfl⟩
        have hcall : ∀ text last, ((branchArrow? text).bind fun rest =>
            (afterChar? ')' rest).bind branchEnd?) = some last → ∃ used, text = used ++ last := by
          intro text last h
          obtain ⟨r₁, harrow, hcall⟩ := Option.bind_eq_some_iff.1 h
          obtain ⟨r₂, harguments, hlast⟩ := Option.bind_eq_some_iff.1 hcall
          obtain ⟨arrow, -, rfl⟩ := passes_branchArrow? _ _ harrow
          obtain ⟨arguments, -, rfl⟩ := afterChar?_eq_some harguments
          obtain ⟨used, rfl⟩ := hend _ _ hlast
          exact ⟨arrow ++ (arguments ++ ')' :: used), by simp⟩
        rw [after?_whenCase, after?_whenCase]
        rcases staysInLine_branchHead? left _ _ hbreaks hbreaks' with ⟨h, h'⟩ | ⟨left₁, h, h'⟩
        · rw [h, h']
          exact .none
        rw [h, h', Option.bind_some, Option.bind_some]
        by_cases hleft₁ : ')' ∈ left₁
        · obtain ⟨-, left₂, -, -, hlast⟩ := afterChar?_append_of_mem hleft₁
          rw [hlast, hlast, Option.bind_some, Option.bind_some]
          rcases staysInLine_branchArrow? left₂ _ _ hbreaks hbreaks' with
            ⟨h, h'⟩ | ⟨left₃, h, h'⟩
          · rw [h, h']
            exact .none
          rw [h, h', Option.bind_some, Option.bind_some]
          by_cases hleft₃ : ')' ∈ left₃
          · obtain ⟨-, left₄, -, -, hlast⟩ := afterChar?_append_of_mem hleft₃
            rw [hlast, hlast, Option.bind_some, Option.bind_some]
            exact halike (staysInLine_branchEnd? left₄ _ _ hbreaks hbreaks')
          · exact hsearch branchEnd? left₃ hleft₃ hend
        · exact hsearch _ left₁ hleft₁ hcall
      · exact halike (staysInLine_registrationLine? left _ _ hbreaks hbreaks')

/-- Lines of other code: without closing parentheses, none of them indented, and all ended. -/
structure Inert (x : Text) : Prop where
  no_close : ')' ∉ x
  not_indented : ∀ front left, x = front ++ left → startsLineAfter true front = true →
    ∀ c ∈ left.head?, isIndent c = false
  ends_line : startsLineAfter true x = true

theorem Inert.nil : Inert [] := by
  refine ⟨by simp, fun front left h _ c hc => ?_, rfl⟩
  obtain ⟨-, rfl⟩ := List.append_eq_nil_iff.1 h.symm
  simp at hc

theorem Inert.append {y : Text} (hx : Inert x) (hy : Inert y) : Inert (x ++ y) where
  no_close := by simp [hx.no_close, hy.no_close]
  not_indented front left h hfront c hc := by
    rcases List.append_eq_append_iff.1 h with ⟨mid, rfl, rfl⟩ | ⟨mid, rfl, rfl⟩
    · rw [startsLineAfter_append, hx.ends_line] at hfront
      exact hy.not_indented mid left rfl hfront c hc
    · cases mid with
      | nil =>
          have hx' := hx.ends_line
          exact hy.not_indented [] y rfl rfl c (by simpa using hc)
      | cons d mid =>
          exact hx.not_indented front (d :: mid) rfl hfront c (by simpa using hc)
  ends_line := by rw [startsLineAfter_append, hx.ends_line, hy.ends_line]

theorem Inert.line {line : Text} (hbreak : '\n' ∉ line) (hclose : ')' ∉ line)
    (hindent : ∀ c ∈ line.head?, isIndent c = false) : Inert (line ++ ['\n']) where
  no_close := by simp [hclose]
  not_indented front left h hfront c hc := by
    cases front with
    | nil =>
        obtain rfl : line ++ ['\n'] = left := h
        cases line with
        | nil =>
            obtain rfl : '\n' = c := by simpa using hc
            rfl
        | cons d line => exact hindent c (by simpa using hc)
    | cons d front =>
        -- the only line break stands at the end
        rcases List.append_eq_append_iff.1 h with ⟨mid, hmid, hleft⟩ | ⟨mid, hmid, hleft⟩
        · rcases List.append_eq_cons_iff.1 hleft.symm with ⟨rfl, rfl⟩ | ⟨others, -, hnil⟩
          · rw [List.append_nil] at hmid
            rw [hmid, startsLineAfter_of_not_mem (hmid ▸ by simp) hbreak] at hfront
            cases hfront
          · obtain ⟨-, rfl⟩ := List.append_eq_nil_iff.1 hnil.symm
            simp at hc
        · have hnot : '\n' ∉ d :: front := fun hmem => hbreak (hmid ▸ List.mem_append_left _ hmem)
          rw [startsLineAfter_of_not_mem (by simp) hnot] at hfront
          cases hfront
  ends_line := by simp

/-- Scanning whole lines passes over lines of other code. -/
theorem Inert.split (h : Inert x) (hlines : anchor.WholeLines) :
    anchor.splitAfterLast? lineStart 0 (x ++ rest) =
      behind x (anchor.splitAfterLast? (startsLineAfter lineStart x) 0 rest) := by
  refine splitAfterLast?_append fun front left hx hleft => ?_
  obtain ⟨c, left, rfl⟩ := List.exists_cons_of_ne_nil hleft
  cases hstart : startsLineAfter lineStart front with
  | false => exact after?_of_mid_line hlines
  | true =>
      refine after?_of_not_indent hlines (h.not_indented front (c :: left) hx ?_ c rfl)
      cases front with
      | nil => rfl
      | cons d front => exact hstart

/-- Lines `x` may be put in between `a` and `b`: where a line starts, or behind the last line. -/
def LinePlace (a x b : Text) : Prop := startsLineAfter true a = true ∨ b = [] ∧ BreaksLine x

theorem exists_concat_break (h : startsLineAfter true a = true) (hleft : left <:+ a)
    (hne : left ≠ []) : ∃ first, left = first ++ ['\n'] := by
  obtain ⟨front, c, rfl⟩ := (List.eq_nil_or_concat left).resolve_left hne
  obtain ⟨first, rfl⟩ := hleft
  rw [List.concat_eq_append, ← List.append_assoc, startsLineAfter_concat, beq_iff_eq] at h
  exact ⟨front, by rw [h, List.concat_eq_append]⟩

theorem shifted_lines {front : Text} (hlines : anchor.WholeLines) (hx : Inert x)
    (hplace : LinePlace front x rest) :
    Shifted front x rest (anchor.splitAfterLast? true 0 (front ++ rest))
      (anchor.splitAfterLast? true 0 (front ++ (x ++ rest))) := by
  refine shifted_splitAfterLast? (fun lineStart left hleft hne => ?_) ?_
  · refine across_lines hlines hx.no_close ?_
    rcases hplace with hfront | hrest
    · exact .inl (exists_concat_break hfront hleft hne)
    · exact .inr hrest
  · rw [hx.split hlines]
    rcases hplace with hfront | ⟨rfl, -⟩
    · rw [hfront, hx.ends_line]
    · rfl

/-- Lines put in front of the end of the last match of whole lines. -/
theorem Cut.lines_before {front : Text} (h : anchor.Cut (front ++ a) b) (hlines : anchor.WholeLines)
    (hx : Inert x) (hplace : LinePlace front x (a ++ b)) (ha : a ≠ []) :
    anchor.Cut (front ++ (x ++ a)) b := by
  have hshift := shifted_lines hlines hx hplace
  unfold Cut at h ⊢
  rw [List.append_assoc] at h
  rw [List.append_assoc, List.append_assoc]
  generalize hcut : anchor.splitAfterLast? true 0 (front ++ (x ++ (a ++ b))) = cut at hshift ⊢
  rw [h] at hshift
  generalize hparts : some (front ++ a, b) = parts at hshift
  cases hshift with
  | none => cases hparts
  | @left a' b' hfront =>
      obtain ⟨hparts, -⟩ := Prod.mk.inj (Option.some.inj hparts)
      rw [← hparts] at hfront
      have := congrArg List.length hfront
      have hpos : 0 < a.length := List.length_pos_iff.2 ha
      simp only [List.length_append] at this
      omega
  | @right a' b' hrest =>
      obtain ⟨hbefore, rfl⟩ := Prod.mk.inj (Option.some.inj hparts)
      rw [List.append_cancel_left hbefore]

/-- Lines put in behind the last match of whole lines. -/
theorem Cut.lines_behind (h : anchor.Cut a (b ++ rest)) (hlines : anchor.WholeLines) (hx : Inert x)
    (hplace : LinePlace (a ++ b) x rest) (hb : b ≠ []) : anchor.Cut a (b ++ (x ++ rest)) := by
  have hshift := shifted_lines hlines hx hplace
  unfold Cut at h ⊢
  rw [← List.append_assoc] at h
  rw [← List.append_assoc]
  generalize hcut : anchor.splitAfterLast? true 0 (a ++ b ++ (x ++ rest)) = cut at hshift ⊢
  rw [h] at hshift
  generalize hparts : some (a, b ++ rest) = parts at hshift
  cases hshift with
  | none => cases hparts
  | @left a' b' hfront =>
      obtain ⟨rfl, -⟩ := Prod.mk.inj (Option.some.inj hparts)
      rw [List.append_cancel_left hfront]
  | @right a' b' hrest =>
      obtain ⟨hparts, -⟩ := Prod.mk.inj (Option.some.inj hparts)
      have := congrArg List.length hparts
      have hpos : 0 < b.length := List.length_pos_iff.2 hb
      simp only [List.length_append] at this
      omega

end Anchor

end Scaffold
