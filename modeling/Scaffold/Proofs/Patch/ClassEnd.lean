import Scaffold.Patch.Insertion
import Scaffold.Proofs.Patch.Imports
import Scaffold.Proofs.Patch.Presence

/-!
# The end of a class

The closing brace of a class stays the one that is found when text without braces goes in anywhere
at the ends of lines (`splitClassEnd_insert`), and when balanced text goes in in front of the brace
itself (`splitClassEnd_members`).
-/

namespace Scaffold

open Anchor

variable {a b p q u v x text rest word name inside : Text} {previous : Option Char}

/-! ## The first place of a word -/

theorem LineJoint.of_cons {c : Char} (h : LineJoint (c :: u) v) : LineJoint u v := by
  refine h.imp_left fun h => ?_
  cases u with
  | nil => rfl
  | cons d u => exact h

/-- A word as it is looked for in front of a class: it starts and ends with word characters, and
stands in one line. -/
structure IsPhrase (word : Text) : Prop where
  head : ∃ c rest, word = c :: rest ∧ isWordChar c = true
  last : ∃ front c, word = front ++ [c] ∧ isWordChar c = true
  one_line : '\n' ∉ word

namespace IsPhrase

theorem ne_nil (h : IsPhrase word) : word ≠ [] := by
  obtain ⟨c, rest, rfl, -⟩ := h.head
  simp

/-- Where the word stands in front of a text. -/
theorem afterWord?_isSome_iff (h : IsPhrase word) :
    (Text.afterWord? word previous text).isSome = true ↔
      ∃ rest, text = word ++ rest ∧ (∀ c ∈ previous, isWordChar c = false) ∧ StartsApart rest := by
  obtain ⟨c, front, hhead, hc⟩ := h.head
  obtain ⟨back, d, hlast, hd⟩ := h.last
  have hgetLast : word.getLast? = some d := by simp [hlast]
  have hgetHead : ∀ rest, (word ++ rest).head? = some c := fun rest => by simp [hhead]
  rw [Option.isSome_iff_exists]
  constructor
  · rintro ⟨rest, hafter⟩
    simp only [Text.afterWord?, Option.bind_eq_bind, Option.bind_eq_some_iff] at hafter
    obtain ⟨rest', htext, hedges⟩ := hafter
    obtain rfl := Text.after?_eq_some_iff.1 htext
    split at hedges
    · next hedge =>
      rw [Bool.and_eq_true, isWordEdge, isWordEdge, hgetHead, hgetLast] at hedge
      refine ⟨rest', rfl, any_isWordChar_eq_false.1 ?_, any_isWordChar_eq_false.1 ?_⟩
      · simpa [hc] using hedge.1
      · simpa [hd] using hedge.2
    · cases hedges
  · rintro ⟨rest, rfl, hprevious, hrest⟩
    have hprevious := any_isWordChar_eq_false.2 hprevious
    have hrest : rest.head?.any isWordChar = false := any_isWordChar_eq_false.2 hrest
    refine ⟨rest, ?_⟩
    simp [Text.afterWord?, isWordEdge, hgetHead, hgetLast, hprevious, hrest, hc, hd]

/-- Whether the word stands in front of `left` is seen up to the end of the line. -/
theorem isSome_afterWord?_append (h : IsPhrase word) {left : Text} (hne : left ≠ [])
    (huv : LineJoint left a) (hux : LineJoint left b) :
    (Text.afterWord? word previous (left ++ a)).isSome =
      (Text.afterWord? word previous (left ++ b)).isSome := by
  -- a line ends behind `left` either way
  have hone : ∀ {a b : Text}, LineJoint left a → LineJoint left b →
      (Text.afterWord? word previous (left ++ a)).isSome = true →
      (Text.afterWord? word previous (left ++ b)).isSome = true := by
    intro a b ha hb hsome
    obtain ⟨rest, htext, hprevious, hrest⟩ := h.afterWord?_isSome_iff.1 hsome
    refine h.afterWord?_isSome_iff.2 ?_
    rcases List.append_eq_append_iff.1 htext with ⟨mid, hword, ha'⟩ | ⟨mid, hleft, hrest'⟩
    · by_cases hmid : mid = []
      · subst hmid
        rw [List.append_nil] at hword
        refine ⟨b, by rw [hword], hprevious, ?_⟩
        intro c hc
        rcases hb with hb | hb
        · obtain ⟨back, d, hlast, hd⟩ := h.last
          rw [← hword, hlast, startsLineAfter_concat, beq_iff_eq] at hb
          rw [hb] at hd
          exact absurd hd (by decide)
        · rw [hb c hc]
          decide
      · -- the word would lie across the end of the line
        exfalso
        rcases ha with ha | ha
        · obtain ⟨first, rfl⟩ := exists_concat_break ha (List.suffix_refl _) hne
          exact h.one_line (by rw [hword]; simp)
        · obtain ⟨c, mid, rfl⟩ := List.exists_cons_of_ne_nil hmid
          have hc : c = '\n' := ha c (by rw [ha']; rfl)
          exact h.one_line (by rw [hword, hc]; simp)
    · refine ⟨mid ++ b, by rw [hleft, List.append_assoc], hprevious, ?_⟩
      cases mid with
      | nil =>
          rw [List.append_nil] at hleft
          intro c hc
          rcases hb with hb | hb
          · obtain ⟨back, d, hlast, hd⟩ := h.last
            rw [hleft, hlast, startsLineAfter_concat, beq_iff_eq] at hb
            rw [hb] at hd
            exact absurd hd (by decide)
          · rw [hb c hc]
            decide
      | cons c mid => exact fun d hd => hrest d (by rw [hrest']; exact hd)
  rw [Bool.eq_iff_iff]
  exact ⟨hone huv hux, hone hux huv⟩

end IsPhrase

/-- The last character of a text, or the one in front of it. -/
def lastOr (previous : Option Char) (text : Text) : Option Char := text.getLast?.or previous

theorem splitWord?_cons_of_not {c : Char}
    (h : (Text.afterWord? word previous (c :: rest)).isSome = false) :
    splitWord? word previous (c :: rest) =
      (splitWord? word (some c) rest).map fun parts => (c :: parts.1, parts.2) := by
  rw [splitWord?, h]
  rfl

theorem splitWord?_of_isSome (h : (Text.afterWord? word previous text).isSome = true) :
    splitWord? word previous text = some ([], text) := by
  cases text with
  | nil => rw [splitWord?, if_pos h]
  | cons c rest => rw [splitWord?, if_pos h]

theorem lastOr_cons (c : Char) (rest : Text) :
    lastOr previous (c :: rest) = lastOr (some c) rest := by
  unfold lastOr
  cases rest with
  | nil => rfl
  | cons d rest =>
      rw [List.getLast?_cons_cons]
      obtain ⟨e, he⟩ : ∃ e, (d :: rest).getLast? = some e :=
        ⟨_, List.getLast?_eq_some_getLast (by simp)⟩
      rw [he]
      rfl

/-- The word is not found in a text without it. -/
theorem splitWord?_skip (h : IsPhrase word) (hx : Text.Avoids word x) (hjoint : LineJoint x v) :
    splitWord? word previous (x ++ v) =
      (splitWord? word (lastOr previous x) v).map fun parts => (x ++ parts.1, parts.2) := by
  induction x generalizing previous with
  | nil =>
      have hlast : lastOr previous [] = previous := rfl
      rw [hlast, List.nil_append]
      cases splitWord? word previous v <;> rfl
  | cons c x ih =>
      have hno : (Text.afterWord? word previous (c :: x ++ v)).isSome = false := by
        rw [Bool.eq_false_iff]
        intro hsome
        obtain ⟨rest, htext, -, -⟩ := h.afterWord?_isSome_iff.1 hsome
        rcases List.append_eq_append_iff.1 htext with ⟨mid, hword, hv⟩ | ⟨mid, hleft, -⟩
        · by_cases hmid : mid = []
          · subst hmid
            rw [List.append_nil] at hword
            exact hx (hword ▸ List.infix_refl _)
          · rcases hjoint with hjoint | hjoint
            · obtain ⟨first, hfirst⟩ :=
                exists_concat_break hjoint (List.suffix_refl _) (List.cons_ne_nil c x)
              exact h.one_line (by rw [hword, hfirst]; simp)
            · obtain ⟨d, mid, rfl⟩ := List.exists_cons_of_ne_nil hmid
              have hd : d = '\n' := hjoint d (by rw [hv]; rfl)
              exact h.one_line (by rw [hword, hd]; simp)
        · exact hx ⟨[], mid, by rw [hleft]; rfl⟩
      rw [List.cons_append] at hno ⊢
      rw [splitWord?_cons_of_not hno, ih (hx.of_part (List.suffix_cons c x).isInfix) hjoint.of_cons,
        lastOr_cons]
      cases splitWord? word (lastOr (some c) x) v <;> rfl

/-- Only the character in front of a text that starts with the word matters. -/
theorem splitWord?_previous {other : Option Char}
    (hsame : (Text.afterWord? word previous text).isSome =
      (Text.afterWord? word other text).isSome) :
    splitWord? word previous text = splitWord? word other text := by
  cases text with
  | nil => rw [splitWord?, splitWord?, hsame]
  | cons c rest => rw [splitWord?, splitWord?, hsame]

/-- A cut of a text before and after `x` has been put in between `front` and `rest`. What was cut
between `front` and `rest` is cut behind `x`. -/
inductive Moved (front x rest : Text) : Option (Text × Text) → Option (Text × Text) → Prop
  | none : Moved front x rest none none
  | left {a b : Text} : b ≠ [] → front = a ++ b →
      Moved front x rest (some (a, b ++ rest)) (some (a, b ++ (x ++ rest)))
  | right {a b : Text} : rest = a ++ b →
      Moved front x rest (some (front ++ a, b)) (some (front ++ (x ++ a), b))

theorem Moved.cons {cut cut' : Option (Text × Text)} (c : Char) (h : Moved u x v cut cut') :
    Moved (c :: u) x v (cut.map fun parts => (c :: parts.1, parts.2))
      (cut'.map fun parts => (c :: parts.1, parts.2)) := by
  cases h with
  | none => exact .none
  | @left a b hb h => exact .left (a := c :: a) hb (by rw [h]; rfl)
  | @right a b h => exact .right h

/-- Text without the word that goes in where a line ends only moves the first place of the word. -/
theorem moved_splitWord? (h : IsPhrase word) (hx : Text.Avoids word x) (hxne : x ≠ [])
    (huv : LineJoint u v) (hux : LineJoint u (x ++ v)) (hxv : LineJoint x v)
    (hprevious : u = [] → (∀ c ∈ previous, isWordChar c = false) ∨ BreaksLine v) :
    Moved u x v (splitWord? word previous (u ++ v)) (splitWord? word previous (u ++ (x ++ v))) := by
  induction u generalizing previous with
  | nil =>
      have hno : BreaksLine v → ∀ rest, v ≠ word ++ rest := by
        rintro hv rest hrest
        obtain ⟨c, front, hword, -⟩ := h.head
        have hc : c = '\n' := hv c (by rw [hrest, hword]; rfl)
        exact h.one_line (by rw [hword, hc]; simp)
      have hlast : splitWord? word (lastOr previous x) v = splitWord? word previous v := by
        refine splitWord?_previous ?_
        rw [Bool.eq_iff_iff, h.afterWord?_isSome_iff, h.afterWord?_isSome_iff]
        by_cases hv : BreaksLine v
        · simp [hno hv]
        · have hprevious := (hprevious rfl).resolve_right hv
          obtain ⟨first, rfl⟩ := exists_concat_break (hxv.resolve_right hv) (List.suffix_refl _) hxne
          have hbreak : ∀ c ∈ lastOr previous (first ++ ['\n']), isWordChar c = false := by
            intro c hc
            obtain rfl : '\n' = c := by simpa [lastOr] using hc
            decide
          simp only [eq_true hbreak, eq_true hprevious, true_and]
      rw [List.nil_append, List.nil_append, splitWord?_skip h hx hxv, hlast]
      cases hsplit : splitWord? word previous v with
      | none => exact .none
      | some parts => exact .right (splitWord?_eq_some_append hsplit)
  | cons c u ih =>
      have hsame : (Text.afterWord? word previous (c :: u ++ v)).isSome =
          (Text.afterWord? word previous (c :: u ++ (x ++ v))).isSome :=
        h.isSome_afterWord?_append (List.cons_ne_nil c u) huv hux
      cases hsome : (Text.afterWord? word previous (c :: u ++ v)).isSome with
      | true =>
          rw [hsome] at hsame
          rw [splitWord?_of_isSome hsome, splitWord?_of_isSome hsame.symm]
          exact .left (List.cons_ne_nil c u) rfl
      | false =>
          rw [hsome] at hsame
          have hprevious' : u = [] → (∀ d ∈ some c, isWordChar d = false) ∨ BreaksLine v := by
            rintro rfl
            refine huv.imp_left fun hc d hd => ?_
            obtain rfl := Option.some.inj hd
            have hc : c = '\n' := by simpa [startsLineAfter] using hc
            rw [hc]
            decide
          have hsame := hsame.symm
          rw [List.cons_append] at hsome hsame ⊢
          rw [List.cons_append, splitWord?_cons_of_not hsome, splitWord?_cons_of_not hsame]
          exact (ih huv.of_cons hux.of_cons hprevious').cons c

/-- The first place of a word does not depend on what follows a mark behind it. -/
theorem splitWord?_of_mem {mark : Char} (h : IsPhrase word) (hword : mark ∉ word)
    (hmem : mark ∈ inside) (hsplit : splitWord? word previous (b ++ (inside ++ p)) =
      some (b, inside ++ p)) :
    splitWord? word previous (b ++ (inside ++ q)) = some (b, inside ++ q) := by
  -- the word and the character behind it lie in front of the mark
  have hone : ∀ {left : Text} {previous : Option Char} {p q : Text}, mark ∈ left →
      (Text.afterWord? word previous (left ++ p)).isSome = true →
      (Text.afterWord? word previous (left ++ q)).isSome = true := by
    intro left previous p q hmem hsome
    obtain ⟨rest, htext, hprevious, hrest⟩ := h.afterWord?_isSome_iff.1 hsome
    refine h.afterWord?_isSome_iff.2 ?_
    rcases List.append_eq_append_iff.1 htext with ⟨mid, hmid, -⟩ | ⟨mid, hleft, hrest'⟩
    · exact absurd (hmid ▸ List.mem_append_left _ hmem) hword
    · refine ⟨mid ++ q, by rw [hleft, List.append_assoc], hprevious, ?_⟩
      cases mid with
      | nil =>
          rw [List.append_nil] at hleft
          exact absurd (hleft ▸ hmem) hword
      | cons c mid => exact fun d hd => hrest d (by rw [hrest']; exact hd)
  have hsame : ∀ (left : Text) (previous : Option Char), mark ∈ left →
      (Text.afterWord? word previous (left ++ p)).isSome =
        (Text.afterWord? word previous (left ++ q)).isSome := fun left previous hmem => by
    rw [Bool.eq_iff_iff]
    exact ⟨hone hmem, hone hmem⟩
  induction b generalizing previous with
  | nil =>
      rw [List.nil_append] at hsplit ⊢
      refine splitWord?_of_isSome ?_
      rw [← hsame inside previous hmem]
      obtain ⟨c, inside, rfl⟩ := List.exists_cons_of_ne_nil (List.ne_nil_of_mem hmem)
      by_contra hno
      rw [Bool.not_eq_true] at hno
      rw [List.cons_append] at hsplit hno
      rw [splitWord?_cons_of_not hno] at hsplit
      obtain ⟨parts, -, heq⟩ := Option.map_eq_some_iff.1 hsplit
      cases heq
  | cons c b ih =>
      cases hsome : (Text.afterWord? word previous (c :: (b ++ (inside ++ p)))).isSome with
      | true =>
          rw [List.cons_append, splitWord?_of_isSome hsome] at hsplit
          cases hsplit
      | false =>
          have hno : (Text.afterWord? word previous (c :: (b ++ (inside ++ q)))).isSome = false := by
            rw [← hsome]
            simpa using (hsame (c :: (b ++ inside)) previous (by simp [hmem])).symm
          rw [List.cons_append, splitWord?_cons_of_not hsome] at hsplit
          obtain ⟨⟨b', p'⟩, hrest, heq⟩ := Option.map_eq_some_iff.1 hsplit
          obtain ⟨hb, rfl⟩ := Prod.mk.inj heq
          obtain rfl := (List.cons.inj hb).2
          rw [List.cons_append, splitWord?_cons_of_not hno, ih hrest]
          rfl

/-! ## The end of the block -/

variable {depth : Int} {opened : Bool}

/-- The brace at the start of the rest of a block that is closed. -/
theorem splitBlockEnd?_eq_some (h : splitBlockEnd? depth opened text = some (a, b)) :
    ∃ q, b = '\x7d' :: q := by
  induction text generalizing depth opened a with
  | nil => cases h
  | cons c rest ih =>
      rw [splitBlockEnd?] at h
      split at h
      · obtain ⟨parts, hparts, heq⟩ := Option.map_eq_some_iff.1 h
        obtain ⟨-, rfl⟩ := Prod.mk.inj heq
        exact ih hparts
      · next =>
        split at h
        · next hc =>
          split at h
          · obtain ⟨-, rfl⟩ := Prod.mk.inj (Option.some.inj h)
            exact ⟨rest, by rw [hc]⟩
          · obtain ⟨parts, hparts, heq⟩ := Option.map_eq_some_iff.1 h
            obtain ⟨-, rfl⟩ := Prod.mk.inj heq
            exact ih hparts
        · obtain ⟨parts, hparts, heq⟩ := Option.map_eq_some_iff.1 h
          obtain ⟨-, rfl⟩ := Prod.mk.inj heq
          exact ih hparts

/-- One character that the end of the block does not lie in front of. -/
theorem splitBlockEnd?_cons (depth : Int) (opened : Bool) (c : Char) :
    ((c = '\x7d' ∧ opened = true ∧ depth = 1) ∧
      ∀ rest, splitBlockEnd? depth opened (c :: rest) = some ([], c :: rest)) ∨
    ∃ depth' opened', (opened' = true → c = '\x7b' ∨ opened = true) ∧ ∀ rest,
      splitBlockEnd? depth opened (c :: rest) =
        (splitBlockEnd? depth' opened' rest).map fun parts => (c :: parts.1, parts.2) := by
  by_cases hopen : c = '\x7b'
  · exact .inr ⟨depth + 1, true, fun _ => .inl hopen, fun rest => by rw [splitBlockEnd?, if_pos hopen]⟩
  by_cases hclose : c = '\x7d'
  · by_cases hend : opened = true ∧ depth = 1
    · refine .inl ⟨⟨hclose, hend⟩, fun rest => ?_⟩
      rw [splitBlockEnd?, if_neg hopen, if_pos hclose, if_pos (by simp [hend.1, hend.2])]
    · refine .inr ⟨depth - 1, opened, fun h => .inr h, fun rest => ?_⟩
      rw [splitBlockEnd?, if_neg hopen, if_pos hclose, if_neg (by simpa using hend)]
  · refine .inr ⟨depth, opened, fun h => .inr h, fun rest => ?_⟩
    rw [splitBlockEnd?, if_neg hopen, if_neg hclose]

/-- The block has been opened in front of its end. -/
theorem brace_mem_of_splitBlockEnd? (h : splitBlockEnd? depth false text = some (a, b)) :
    '\x7b' ∈ a := by
  induction text generalizing depth a with
  | nil => cases h
  | cons c rest ih =>
      rcases splitBlockEnd?_cons depth false c with
        ⟨⟨-, hopened, -⟩, -⟩ | ⟨depth', opened', hopened, hcons⟩
      · cases hopened
      · rw [hcons] at h
        obtain ⟨parts, hparts, heq⟩ := Option.map_eq_some_iff.1 h
        obtain ⟨rfl, rfl⟩ := Prod.mk.inj heq
        cases opened' with
        | true =>
            rcases hopened rfl with rfl | hno
            · simp
            · cases hno
        | false => exact List.mem_cons_of_mem _ (ih hparts)

/-- Text without braces is passed over. -/
theorem splitBlockEnd?_skip (hopen : '\x7b' ∉ x) (hclose : '\x7d' ∉ x) (rest : Text) :
    splitBlockEnd? depth opened (x ++ rest) =
      (splitBlockEnd? depth opened rest).map fun parts => (x ++ parts.1, parts.2) := by
  induction x with
  | nil =>
      rw [List.nil_append]
      cases splitBlockEnd? depth opened rest <;> rfl
  | cons c x ih =>
      rw [List.mem_cons, not_or] at hopen hclose
      rw [List.cons_append, splitBlockEnd?, if_neg (Ne.symm hopen.1), if_neg (Ne.symm hclose.1),
        ih hopen.2 hclose.2]
      cases splitBlockEnd? depth opened rest <;> rfl

/-- Text without braces that goes in anywhere only moves the end of the block. -/
theorem moved_splitBlockEnd? (hopen : '\x7b' ∉ x) (hclose : '\x7d' ∉ x) :
    Moved u x v (splitBlockEnd? depth opened (u ++ v))
      (splitBlockEnd? depth opened (u ++ (x ++ v))) := by
  induction u generalizing depth opened with
  | nil =>
      rw [List.nil_append, List.nil_append, splitBlockEnd?_skip hopen hclose]
      cases hsplit : splitBlockEnd? depth opened v with
      | none => exact .none
      | some parts => exact .right (splitBlockEnd?_eq_some_append hsplit)
  | cons c u ih =>
      rw [List.cons_append, List.cons_append]
      rcases splitBlockEnd?_cons depth opened c with
        ⟨-, hend⟩ | ⟨depth', opened', -, hcons⟩
      · rw [hend, hend]
        exact .left (a := []) (List.cons_ne_nil c u) rfl
      · rw [hcons, hcons]
        exact ih.cons c

/-! ## Balanced text -/

/-- All characters but braces. -/
def isBraceless (c : Char) : Bool := !(c == '\x7b' || c == '\x7d')

/-- The braces of templates are no tokens. -/
theorem takesTokens_isBraceless : TakesTokens isBraceless := by
  intro c hc
  simp only [isTokenChar, Bool.not_eq_true', Bool.or_eq_false_iff] at hc
  simp [isBraceless, hc]

/-- Text that closes the braces it opens, and no others. -/
def Balanced (x : Text) : Prop :=
  ∀ (depth : Int) (rest : Text), 1 ≤ depth → splitBlockEnd? depth true (x ++ rest) =
    (splitBlockEnd? depth true rest).map fun parts => (x ++ parts.1, parts.2)

namespace Balanced

variable {y : Text}

theorem of_not_mem (hopen : '\x7b' ∉ x) (hclose : '\x7d' ∉ x) : Balanced x :=
  fun _ rest _ => splitBlockEnd?_skip hopen hclose rest

theorem of_consists (h : Consists isBraceless x) : Balanced x :=
  of_not_mem (h.not_mem (by decide)) (h.not_mem (by decide))

theorem append (hx : Balanced x) (hy : Balanced y) : Balanced (x ++ y) := by
  intro depth rest hdepth
  rw [List.append_assoc, hx depth _ hdepth, hy depth _ hdepth]
  cases splitBlockEnd? depth true rest <;> simp

theorem braces (hx : Balanced x) : Balanced ('\x7b' :: (x ++ ['\x7d'])) := by
  intro depth rest hdepth
  have hinner : ¬ (depth + 1 = 1) := by omega
  have hback : depth + 1 - 1 = depth := by omega
  have hbrace : ¬ ('\x7d' = '\x7b') := by decide
  rw [List.cons_append, List.append_assoc, splitBlockEnd?, if_pos rfl, hx _ _ (by omega),
    List.cons_append, List.nil_append, splitBlockEnd?, if_neg hbrace, if_pos rfl,
    if_neg (by simp [hinner]), hback]
  cases splitBlockEnd? depth true rest <;> simp

theorem join {separator : Text} {parts : List Text} (hseparator : Balanced separator)
    (hparts : ∀ part ∈ parts, Balanced part) : Balanced (Text.join separator parts) := by
  induction parts with
  | nil => exact of_not_mem (by simp [Text.join]) (by simp [Text.join])
  | cons part parts ih =>
      by_cases hnil : parts = []
      · subst hnil
        simpa using hparts part (by simp)
      · rw [Text.join_cons part hnil, List.append_assoc]
        exact (hparts part (by simp)).append (hseparator.append
          (ih fun other hother => hparts other (by simp [hother])))

theorem memberBlock {members : List Text} (h : ∀ member ∈ members, Balanced member) :
    Balanced (Scaffold.memberBlock "\n\n" members) := by
  have hbreak : Balanced ("\n" : Text) := .of_not_mem (by decide) (by decide)
  have hbreaks : Balanced ("\n\n" : Text) := .of_not_mem (by decide) (by decide)
  exact (hbreak.append (.join hbreaks h)).append hbreak

end Balanced

theorem splitBlockEnd?_block (hx : Balanced x)
    (h : splitBlockEnd? depth opened (p ++ q) = some (p, q)) :
    splitBlockEnd? depth opened (p ++ (x ++ q)) = some (p ++ x, q) := by
  induction p generalizing depth opened with
  | nil =>
      obtain ⟨q, rfl⟩ := splitBlockEnd?_eq_some h
      rw [List.nil_append] at h ⊢
      rcases splitBlockEnd?_cons depth opened '\x7d' with
        ⟨⟨-, rfl, rfl⟩, hend⟩ | ⟨depth', opened', -, hcons⟩
      · rw [hx 1 _ (by omega), hend]
        simp
      · rw [hcons] at h
        obtain ⟨parts, -, heq⟩ := Option.map_eq_some_iff.1 h
        cases heq
  | cons c p ih =>
      rw [List.cons_append] at h ⊢
      rcases splitBlockEnd?_cons depth opened c with
        ⟨-, hend⟩ | ⟨depth', opened', -, hcons⟩
      · rw [hend] at h
        cases h
      · rw [hcons] at h ⊢
        obtain ⟨⟨p', q'⟩, hrest, heq⟩ := Option.map_eq_some_iff.1 h
        obtain ⟨hp, rfl⟩ := Prod.mk.inj heq
        obtain rfl := (List.cons.inj hp).2
        rw [ih hrest]
        rfl

/-! ## The end of the class -/

theorem splitClassEnd_eq_ok (h : splitClassEnd text name = .ok (a, b)) :
    ∃ before inside, a = before ++ inside ∧
      splitWord? ("class " ++ name) none text = some (before, inside ++ b) ∧
      splitBlockEnd? 0 false (inside ++ b) = some (inside, b) := by
  unfold splitClassEnd at h
  split at h
  · cases h
  · next before fromClass hword =>
    split at h
    · cases h
    · next inside fromEnd hend =>
      obtain ⟨rfl, rfl⟩ := Prod.mk.inj (Except.ok.inj h)
      obtain rfl := splitBlockEnd?_eq_some_append hend
      exact ⟨before, inside, rfl, hword, hend⟩

theorem splitClassEnd_toOption (text name : Text) : (splitClassEnd text name).toOption =
    (splitWord? ("class " ++ name) none text).bind fun parts =>
      (splitBlockEnd? 0 false parts.2).map fun ends => (parts.1 ++ ends.1, ends.2) := by
  unfold splitClassEnd
  cases splitWord? ("class " ++ name) none text with
  | none => rfl
  | some parts =>
      obtain ⟨before, fromClass⟩ := parts
      dsimp only [Option.bind_some]
      cases splitBlockEnd? 0 false fromClass <;> rfl

theorem toOption_eq_some_iff {ε α : Type} {result : Except ε α} {value : α} :
    result.toOption = some value ↔ result = .ok value := by
  cases result <;> simp [Except.toOption]

/-- The class ends with a closing brace. -/
theorem exists_brace_of_splitClassEnd (h : splitClassEnd text name = .ok (a, b)) :
    ∃ q, b = '\x7d' :: q := by
  obtain ⟨before, inside, -, -, hend⟩ := splitClassEnd_eq_ok h
  exact splitBlockEnd?_eq_some hend

theorem isPhrase_class (h : ∃ front c, name = front ++ [c] ∧ isWordChar c = true)
    (hline : '\n' ∉ name) : IsPhrase ("class " ++ name) where
  head := ⟨'c', "lass " ++ name, rfl, by decide⟩
  last := by
    obtain ⟨front, c, rfl, hc⟩ := h
    exact ⟨"class " ++ front, c, by simp, hc⟩
  one_line := by
    simp only [List.mem_append, hline]
    decide

/-- Lines without braces that do not name the class only move the class's end. -/
theorem moved_splitClassEnd (hname : IsPhrase ("class " ++ name))
    (hx : Text.Avoids ("class " ++ name) x) (hxne : x ≠ []) (hopen : '\x7b' ∉ x)
    (hclose : '\x7d' ∉ x) (huv : LineJoint u v) (hux : LineJoint u (x ++ v))
    (hxv : LineJoint x v) :
    Moved u x v (splitClassEnd (u ++ v) name).toOption
      (splitClassEnd (u ++ (x ++ v)) name).toOption := by
  rw [splitClassEnd_toOption, splitClassEnd_toOption]
  have hword : Moved u x v (splitWord? ("class " ++ name) none (u ++ v))
      (splitWord? ("class " ++ name) none (u ++ (x ++ v))) :=
    moved_splitWord? hname hx hxne huv hux hxv fun _ => .inl (by simp)
  generalize splitWord? ("class " ++ name) none (u ++ v) = cut at hword ⊢
  generalize splitWord? ("class " ++ name) none (u ++ (x ++ v)) = cut' at hword ⊢
  cases hword with
  | none => exact .none
  | @left before s hs hu =>
      have hend : Moved s x v (splitBlockEnd? 0 false (s ++ v))
          (splitBlockEnd? 0 false (s ++ (x ++ v))) := moved_splitBlockEnd? hopen hclose
      dsimp only [Option.bind_some]
      generalize splitBlockEnd? 0 false (s ++ v) = ends at hend ⊢
      generalize splitBlockEnd? 0 false (s ++ (x ++ v)) = ends' at hend ⊢
      cases hend with
      | none => exact .none
      | @left inside last hlast hinside =>
          exact .left hlast (by rw [hu, hinside, List.append_assoc])
      | @right inside last hinside =>
          have hright : Moved u x v (some (u ++ inside, last)) (some (u ++ (x ++ inside), last)) :=
            .right hinside
          simpa [hu] using hright
  | @right before fromClass hv =>
      dsimp only [Option.bind_some]
      cases hend : splitBlockEnd? 0 false fromClass with
      | none => exact .none
      | some parts =>
          have hright : Moved u x v (some (u ++ (before ++ parts.1), parts.2))
              (some (u ++ (x ++ (before ++ parts.1)), parts.2)) :=
            .right (by rw [hv, splitBlockEnd?_eq_some_append hend, List.append_assoc])
          simpa using hright

/-- Balanced text that goes in in front of the class's end is passed over. -/
theorem splitClassEnd_block (hname : IsPhrase ("class " ++ name)) (hbrace : '\x7b' ∉ name)
    (hx : Balanced x) (h : splitClassEnd (p ++ q) name = .ok (p, q)) :
    splitClassEnd (p ++ (x ++ q)) name = .ok (p ++ x, q) := by
  obtain ⟨before, inside, rfl, hword, hend⟩ := splitClassEnd_eq_ok h
  have hword' : '\x7b' ∉ "class " ++ name := by
    simp only [List.mem_append, hbrace]
    decide
  rw [List.append_assoc] at hword ⊢
  have hmem := brace_mem_of_splitBlockEnd? hend
  rw [List.append_assoc]
  rw [← toOption_eq_some_iff, splitClassEnd_toOption,
    splitWord?_of_mem (q := x ++ q) hname hword' hmem hword, Option.bind_some]
  dsimp only
  rw [splitBlockEnd?_block hx hend]
  rfl

end Scaffold
