import Scaffold.Proofs.Patch.Renderings

/-!
# The scope of a class

The end of a class is the brace that closes the first one behind its header
(`insertIntoClass_scope`): for a class with balanced braces it is found whatever stands in front of
the class and behind it, and members go in right in front of it. It is missing only if the header
is, or the brace behind it, or the brace that closes that one.
-/

namespace Scaffold

open Anchor

variable {a b x text rest word name front fromHead head inside : Text} {previous : Option Char}
  {depth : Int} {opened : Bool}

/-! ## The first header -/

/-- The first place of a word has no other place of the word in front of it. -/
theorem splitWord?_eq_some_iff : splitWord? word previous text = some (a, b) ↔
    text = a ++ b ∧ (Text.afterWord? word (lastOr previous a) b).isSome = true ∧
      ∀ front back, text = front ++ back → front.length < a.length →
        (Text.afterWord? word (lastOr previous front) back).isSome = false := by
  constructor
  · intro h
    refine ⟨splitWord?_eq_some_append h, ?_⟩
    induction text generalizing previous a with
    | nil =>
        rw [splitWord?] at h
        split at h
        · next hsome =>
          obtain ⟨rfl, rfl⟩ := Prod.mk.inj (Option.some.inj h)
          exact ⟨hsome, fun _ _ _ hlt => absurd hlt (Nat.not_lt_zero _)⟩
        · cases h
    | cons c rest ih =>
        cases hsome : (Text.afterWord? word previous (c :: rest)).isSome with
        | true =>
            rw [splitWord?_of_isSome hsome] at h
            obtain ⟨rfl, rfl⟩ := Prod.mk.inj (Option.some.inj h)
            exact ⟨hsome, fun _ _ _ hlt => absurd hlt (Nat.not_lt_zero _)⟩
        | false =>
            rw [splitWord?_cons_of_not hsome] at h
            obtain ⟨⟨a', b'⟩, hrest, heq⟩ := Option.map_eq_some_iff.1 h
            obtain ⟨rfl, rfl⟩ := Prod.mk.inj heq
            obtain ⟨hhere, hfirst⟩ := ih hrest
            rw [← lastOr_cons] at hhere
            refine ⟨hhere, fun front back htext hlt => ?_⟩
            cases front with
            | nil =>
                rw [List.nil_append] at htext
                rw [← htext]
                exact hsome
            | cons d front =>
                obtain ⟨rfl, hback⟩ := List.cons.inj htext
                rw [lastOr_cons]
                exact hfirst front back hback (by simpa using hlt)
  · rintro ⟨rfl, hhere, hfirst⟩
    induction a generalizing previous with
    | nil => exact splitWord?_of_isSome hhere
    | cons c a ih =>
        have hno : (Text.afterWord? word previous (c :: (a ++ b))).isSome = false :=
          hfirst [] _ rfl (Nat.succ_pos _)
        rw [List.cons_append]
        rw [lastOr_cons] at hhere
        rw [splitWord?_cons_of_not hno, ih hhere fun front back htext hlt => ?_]
        · rfl
        · rw [← lastOr_cons]
          exact hfirst (c :: front) back (congrArg (c :: ·) htext) (by simpa using hlt)

/-- A word that is not found stands nowhere. -/
theorem splitWord?_eq_none_iff : splitWord? word previous text = none ↔
    ∀ front back, text = front ++ back →
      (Text.afterWord? word (lastOr previous front) back).isSome = false := by
  induction text generalizing previous with
  | nil =>
      rw [splitWord?]
      constructor
      · intro h front back htext
        obtain ⟨rfl, rfl⟩ := List.append_eq_nil_iff.1 htext.symm
        have hlast : lastOr previous [] = previous := rfl
        rw [hlast]
        simpa using h
      · intro h
        exact if_neg (Bool.eq_false_iff.1 (h [] [] rfl))
  | cons c rest ih =>
      constructor
      · intro h front back htext
        cases hsome : (Text.afterWord? word previous (c :: rest)).isSome with
        | true =>
            rw [splitWord?_of_isSome hsome] at h
            cases h
        | false =>
            rw [splitWord?_cons_of_not hsome, Option.map_eq_none_iff] at h
            cases front with
            | nil =>
                rw [List.nil_append] at htext
                rw [← htext]
                exact hsome
            | cons d front =>
                obtain ⟨rfl, hback⟩ := List.cons.inj htext
                rw [lastOr_cons]
                exact ih.1 h front back hback
      · intro h
        have hno : (Text.afterWord? word previous (c :: rest)).isSome = false := h [] _ rfl
        rw [splitWord?_cons_of_not hno, ih.2 fun front back htext => ?_]
        · rfl
        · rw [← lastOr_cons]
          exact h (c :: front) back (congrArg (c :: ·) htext)

/-- The header of a class stands at the start of the second text, as whole words. -/
def Heads (name front fromHead : Text) : Prop :=
  EndsApart front ∧ ∃ rest, fromHead = "class " ++ name ++ rest ∧ StartsApart rest

/-- The header that the second text starts with is the first one of the class. -/
structure FirstHead (name front fromHead : Text) : Prop where
  heads : Heads name front fromHead
  first : ∀ a b, front ++ fromHead = a ++ b → a.length < front.length → ¬ Heads name a b

theorem isPhrase_class_of_isWord (hname : IsWord name) : IsPhrase ("class " ++ name) := by
  obtain ⟨front, c, rfl⟩ := (List.eq_nil_or_concat' name).resolve_left hname.ne_nil
  exact isPhrase_class ⟨front, c, rfl, hname.word c (by simp)⟩ (hname.not_mem isWordChar_break)

theorem heads_iff (hname : IsWord name) : Heads name front fromHead ↔
    (Text.afterWord? ("class " ++ name) (lastOr none front) fromHead).isSome = true := by
  rw [(isPhrase_class_of_isWord hname).afterWord?_isSome_iff]
  simp only [Heads, EndsApart, lastOr, Option.or_none]
  constructor
  · rintro ⟨hfront, rest, htext, hrest⟩
    exact ⟨rest, htext, hfront, hrest⟩
  · rintro ⟨rest, htext, hfront, hrest⟩
    exact ⟨hfront, rest, htext, hrest⟩

/-- A class is looked for at its first header. -/
theorem firstHead_iff (hname : IsWord name) : FirstHead name front fromHead ↔
    splitWord? ("class " ++ name) none (front ++ fromHead) = some (front, fromHead) := by
  rw [splitWord?_eq_some_iff]
  constructor
  · rintro ⟨hheads, hfirst⟩
    refine ⟨rfl, (heads_iff hname).1 hheads, fun a b htext hlt => ?_⟩
    exact Bool.eq_false_iff.2 fun h => hfirst a b htext hlt ((heads_iff hname).2 h)
  · rintro ⟨-, hheads, hfirst⟩
    refine ⟨(heads_iff hname).2 hheads, fun a b htext hlt h => ?_⟩
    exact Bool.eq_false_iff.1 (hfirst a b htext hlt) ((heads_iff hname).1 h)

/-- A class that is not found has no header anywhere. -/
theorem splitWord?_class_eq_none_iff (hname : IsWord name) :
    splitWord? ("class " ++ name) none text = none ↔
      ¬ ∃ front fromHead, text = front ++ fromHead ∧ Heads name front fromHead := by
  simp only [splitWord?_eq_none_iff, heads_iff hname, not_exists, not_and, Bool.not_eq_true]

/-! ## The braces of a text -/

/-- The braces a text opens less those it closes. -/
def braceDepth (text : Text) : Int := text.count '\x7b' - text.count '\x7d'

@[simp] theorem braceDepth_nil : braceDepth [] = 0 := rfl

@[simp] theorem braceDepth_cons (c : Char) (text : Text) : braceDepth (c :: text) =
    (if c = '\x7b' then 1 else if c = '\x7d' then -1 else 0) + braceDepth text := by
  unfold braceDepth
  by_cases hopen : c = '\x7b'
  · subst hopen
    rw [List.count_cons_self, List.count_cons_of_ne (by decide), if_pos rfl]
    omega
  by_cases hclose : c = '\x7d'
  · subst hclose
    rw [List.count_cons_self, List.count_cons_of_ne (by decide), if_neg (by decide), if_pos rfl]
    omega
  · rw [List.count_cons_of_ne hopen, List.count_cons_of_ne hclose, if_neg hopen, if_neg hclose]
    omega

/-- No part at the start of the text closes more braces than it opens, and the whole closes as many
as it opens. -/
structure BraceBalanced (text : Text) : Prop where
  sane : ∀ part, part <+: text → 0 ≤ braceDepth part
  settled : braceDepth text = 0

/-- Text in which the first brace stays open is passed over. -/
theorem splitBlockEnd?_pass (hsane : ∀ part, part <+: x → 1 ≤ depth + braceDepth part) :
    splitBlockEnd? depth true (x ++ rest) =
      (splitBlockEnd? (depth + braceDepth x) true rest).map fun parts => (x ++ parts.1, parts.2) := by
  induction x generalizing depth with
  | nil =>
      rw [List.nil_append, braceDepth_nil, Int.add_zero]
      cases splitBlockEnd? depth true rest <;> rfl
  | cons c x ih =>
      have hhead := hsane [c] ⟨x, rfl⟩
      have htail : ∀ {depth' : Int}, (∀ part, depth' + braceDepth part = depth + braceDepth (c :: part)) →
          splitBlockEnd? depth' true (x ++ rest) =
            (splitBlockEnd? (depth + braceDepth (c :: x)) true rest).map fun parts =>
              (x ++ parts.1, parts.2) := by
        intro depth' hdepth
        rw [ih fun part hpart => by
          rw [hdepth]; exact hsane (c :: part) (List.cons_prefix_cons.2 ⟨rfl, hpart⟩), hdepth]
      rw [List.cons_append, splitBlockEnd?]
      split
      · next hopen =>
        rw [htail fun part => by rw [braceDepth_cons, if_pos hopen]; omega, Option.map_map]
        rfl
      · next hopen =>
        split
        · next hclose =>
          have hdeep : depth ≠ 1 := by
            rintro rfl
            rw [braceDepth_cons, if_neg hopen, if_pos hclose, braceDepth_nil] at hhead
            omega
          rw [if_neg (by simp [hdeep]),
            htail fun part => by rw [braceDepth_cons, if_neg hopen, if_pos hclose]; omega,
            Option.map_map]
          rfl
        · next hclose =>
          rw [htail fun part => by rw [braceDepth_cons, if_neg hopen, if_neg hclose]; omega,
            Option.map_map]
          rfl

theorem BraceBalanced.balanced (h : BraceBalanced x) : Balanced x := by
  intro depth rest hdepth
  rw [splitBlockEnd?_pass fun part hpart => by have := h.sane part hpart; omega, h.settled,
    Int.add_zero]

/-- The brace that ends a block brings the depth down to nothing, and no brace in front of it
does. -/
theorem braceDepth_of_splitBlockEnd? (hdepth : 1 ≤ depth)
    (h : splitBlockEnd? depth true text = some (inside, b)) :
    (∀ part, part <+: inside → 1 ≤ depth + braceDepth part) ∧ depth + braceDepth inside = 1 := by
  induction text generalizing depth inside with
  | nil => cases h
  | cons c rest ih =>
      have hcons : ∀ {depth' : Int} {inside' : Text}, 1 ≤ depth' →
          splitBlockEnd? depth' true rest = some (inside', b) →
          (∀ part, depth' + braceDepth part = depth + braceDepth (c :: part)) →
          (∀ part, part <+: c :: inside' → 1 ≤ depth + braceDepth part) ∧
            depth + braceDepth (c :: inside') = 1 := by
        intro depth' inside' hdepth' hrest hsame
        obtain ⟨hsane, hlevel⟩ := ih hdepth' hrest
        refine ⟨fun part hpart => ?_, by rw [← hsame]; exact hlevel⟩
        cases part with
        | nil => simpa using hdepth
        | cons d part =>
            obtain ⟨rfl, hrest⟩ := List.cons_prefix_cons.1 hpart
            rw [← hsame]
            exact hsane part hrest
      rw [splitBlockEnd?] at h
      split at h
      · next hopen =>
        obtain ⟨⟨inside', b'⟩, hrest, heq⟩ := Option.map_eq_some_iff.1 h
        obtain ⟨rfl, rfl⟩ := Prod.mk.inj heq
        exact hcons (by omega) hrest fun part => by rw [braceDepth_cons, if_pos hopen]; omega
      · next hopen =>
        split at h
        · next hclose =>
          split at h
          · next hend =>
            obtain ⟨rfl, rfl⟩ := Prod.mk.inj (Option.some.inj h)
            obtain rfl : depth = 1 := by simpa using hend
            refine ⟨fun part hpart => ?_, rfl⟩
            rw [List.prefix_nil.1 hpart, braceDepth_nil]
            omega
          · next hend =>
            obtain ⟨⟨inside', b'⟩, hrest, heq⟩ := Option.map_eq_some_iff.1 h
            obtain ⟨rfl, rfl⟩ := Prod.mk.inj heq
            have hdeep : depth ≠ 1 := by simpa using hend
            exact hcons (by omega) hrest fun part => by
              rw [braceDepth_cons, if_neg hopen, if_pos hclose]; omega
        · next hclose =>
          obtain ⟨⟨inside', b'⟩, hrest, heq⟩ := Option.map_eq_some_iff.1 h
          obtain ⟨rfl, rfl⟩ := Prod.mk.inj heq
          exact hcons hdepth hrest fun part => by
            rw [braceDepth_cons, if_neg hopen, if_neg hclose]; omega

/-- Behind an open brace the block ends exactly at a closing one that balanced text leads to. -/
theorem splitBlockEnd?_one_eq_some_iff : splitBlockEnd? 1 true text = some (inside, b) ↔
    text = inside ++ b ∧ (∃ rest, b = '\x7d' :: rest) ∧ BraceBalanced inside := by
  constructor
  · intro h
    obtain ⟨hsane, hlevel⟩ := braceDepth_of_splitBlockEnd? (Int.le_refl 1) h
    refine ⟨splitBlockEnd?_eq_some_append h, splitBlockEnd?_eq_some h, fun part hpart => ?_, ?_⟩
    · have := hsane part hpart
      omega
    · omega
  · rintro ⟨rfl, ⟨rest, rfl⟩, hinside⟩
    have hclose : splitBlockEnd? 1 true ('\x7d' :: rest) = some ([], '\x7d' :: rest) := rfl
    rw [hinside.balanced 1 _ (Int.le_refl 1), hclose]
    simp

/-- A block whose first brace is the one given has no end exactly if that brace is not closed. -/
theorem splitBlockEnd?_eq_none_iff (hopen : '\x7b' ∉ head) (hclose : '\x7d' ∉ head) :
    splitBlockEnd? 0 false (head ++ '\x7b' :: rest) = none ↔
      ∀ inside after, rest = inside ++ '\x7d' :: after → ¬ BraceBalanced inside := by
  have hfirst : splitBlockEnd? 0 false ('\x7b' :: rest) =
      (splitBlockEnd? 1 true rest).map fun parts => ('\x7b' :: parts.1, parts.2) := rfl
  rw [splitBlockEnd?_skip hopen hclose, hfirst, Option.map_eq_none_iff, Option.map_eq_none_iff]
  constructor
  · rintro hnone inside after rfl hinside
    rw [splitBlockEnd?_one_eq_some_iff.2 ⟨rfl, ⟨after, rfl⟩, hinside⟩] at hnone
    cases hnone
  · intro hno
    cases hsplit : splitBlockEnd? 1 true rest with
    | none => rfl
    | some parts =>
        obtain ⟨htext, ⟨after, hafter⟩, hinside⟩ := splitBlockEnd?_one_eq_some_iff.1 hsplit
        exact absurd hinside (hno parts.1 after (by rw [htext, hafter]))

theorem splitBlockEnd?_eq_none_of_not_mem (hopen : '\x7b' ∉ text) :
    splitBlockEnd? 0 false text = none := by
  cases hsplit : splitBlockEnd? 0 false text with
  | none => rfl
  | some parts =>
      refine absurd ?_ hopen
      rw [splitBlockEnd?_eq_some_append hsplit]
      exact List.mem_append_left _ (brace_mem_of_splitBlockEnd? hsplit)

/-! ## The class -/

/-- A class in a source text, cut at its first header, the brace behind it and the brace that closes
that one. Nothing is said of the braces in front of the class and behind it. -/
structure ClassScope (name : Text) where
  front : Text
  head : Text
  body : Text
  rest : Text
  front_apart : EndsApart front
  first : ∀ a b, front ++ ("class " ++ name ++ head ++ "\x7b" ++ body ++ "\x7d" ++ rest) = a ++ b →
    a.length < front.length → ¬ Heads name a b
  head_apart : StartsApart head
  head_open : '\x7b' ∉ head
  head_close : '\x7d' ∉ head
  body_balanced : BraceBalanced body

namespace ClassScope

/-- The text in front of the closing brace of the class. -/
def upToEnd (scope : ClassScope name) : Text :=
  scope.front ++ "class " ++ name ++ scope.head ++ "\x7b" ++ scope.body

/-- The whole text. -/
def source (scope : ClassScope name) : Text := scope.upToEnd ++ "\x7d" ++ scope.rest

/-- The text from the header up to the first brace. -/
def opening (scope : ClassScope name) : Text := "class " ++ name ++ scope.head

theorem source_eq (scope : ClassScope name) : scope.source =
    scope.front ++ (scope.opening ++ '\x7b' :: (scope.body ++ '\x7d' :: scope.rest)) := by
  unfold source upToEnd opening
  simp only [List.append_assoc]
  rfl

theorem heads (scope : ClassScope name) : Heads name scope.front
    (scope.opening ++ '\x7b' :: (scope.body ++ '\x7d' :: scope.rest)) := by
  refine ⟨scope.front_apart, _, List.append_assoc .., ?_⟩
  have hapart := scope.head_apart
  cases hhead : scope.head with
  | nil =>
      intro c hc
      obtain rfl : '\x7b' = c := Option.some.inj hc
      decide
  | cons d head => exact fun c hc => hapart c (by rw [hhead]; exact hc)

theorem firstHead (scope : ClassScope name) : FirstHead name scope.front
    (scope.opening ++ '\x7b' :: (scope.body ++ '\x7d' :: scope.rest)) where
  heads := scope.heads
  first := by
    have hsame : scope.front ++ (scope.opening ++
        '\x7b' :: (scope.body ++ '\x7d' :: scope.rest)) = scope.front ++
          ("class " ++ name ++ scope.head ++ "\x7b" ++ scope.body ++ "\x7d" ++ scope.rest) := by
      unfold opening
      simp only [List.append_assoc]
      rfl
    rw [hsame]
    exact scope.first

/-- No brace stands in front of the one that opens the class. -/
theorem not_mem_opening (hname : IsWord name) (scope : ClassScope name) {c : Char}
    (hword : isWordChar c = false) (hhead : c ∉ scope.head) (hclass : c ∉ ("class " : Text)) :
    c ∉ scope.opening := by
  unfold opening
  rw [List.mem_append, List.mem_append, not_or, not_or]
  exact ⟨⟨hclass, hname.not_mem hword⟩, hhead⟩

theorem splitClassEnd_source (hname : IsWord name) (scope : ClassScope name) :
    splitClassEnd scope.source name = .ok (scope.upToEnd, "\x7d" ++ scope.rest) := by
  have hsplit := (firstHead_iff hname).1 scope.firstHead
  rw [← source_eq] at hsplit
  rw [splitClassEnd_of_head hsplit
    (scope.not_mem_opening hname (by decide) scope.head_open (by decide))
    (scope.not_mem_opening hname (by decide) scope.head_close (by decide))
    scope.body_balanced.balanced]
  unfold upToEnd opening
  simp only [List.append_assoc]
  rfl

end ClassScope

theorem classEnd_error_iff : (∃ missing, classEnd text name = .error missing) ↔
    (splitClassEnd text name).toOption = none := by
  unfold classEnd
  cases splitClassEnd text name <;> simp [Except.map, Except.toOption]

/-- Members go in right in front of the closing brace of the class. The brace is the one that closes
the first one behind the header, whatever else stands in front of the class and behind it; it is
missing only if the class has no header, no brace follows it or that brace is not closed. -/
theorem insertIntoClass_scope (hname : IsWord name) :
    (∀ scope : ClassScope name,
      classEnd scope.source name = .ok scope.upToEnd.length ∧
      ∀ members separator, insertIntoClass scope.source name members separator =
        .ok (scope.upToEnd ++ memberBlock separator members ++ ("\x7d" ++ scope.rest))) ∧
    ∀ text : Text,
      (∀ front head rest, text = front ++ (head ++ '\x7b' :: rest) →
        FirstHead name front (head ++ '\x7b' :: rest) → '\x7b' ∉ head → '\x7d' ∉ head) →
      ((∃ missing, classEnd text name = .error missing) ↔
        (¬ ∃ front fromHead, text = front ++ fromHead ∧ Heads name front fromHead) ∨
        (∃ front fromHead, text = front ++ fromHead ∧ FirstHead name front fromHead ∧
          '\x7b' ∉ fromHead) ∨
        ∃ front head rest, text = front ++ (head ++ '\x7b' :: rest) ∧
          FirstHead name front (head ++ '\x7b' :: rest) ∧ '\x7b' ∉ head ∧
          ∀ inside after, rest = inside ++ '\x7d' :: after → ¬ BraceBalanced inside) := by
  refine ⟨fun scope => ?_, fun text hguard => ?_⟩
  · have hsplit := scope.splitClassEnd_source hname
    refine ⟨by rw [classEnd, hsplit]; rfl, fun members separator => ?_⟩
    rw [insertIntoClass, hsplit]
    rfl
  rw [classEnd_error_iff, splitClassEnd_toOption]
  cases hsplit : splitWord? ("class " ++ name) none text with
  | none => simp [(splitWord?_class_eq_none_iff hname).1 hsplit]
  | some parts =>
      obtain ⟨front, fromHead⟩ := parts
      obtain rfl := splitWord?_eq_some_append hsplit
      have hfirst : FirstHead name front fromHead := (firstHead_iff hname).2 hsplit
      -- the text has one first header only
      have honly : ∀ {a b : Text}, front ++ fromHead = a ++ b → FirstHead name a b →
          a = front ∧ b = fromHead := fun htext hab => by
        have hother := (firstHead_iff hname).1 hab
        rw [← htext, hsplit] at hother
        exact (Prod.mk.inj (Option.some.inj hother)).imp Eq.symm Eq.symm
      rw [Option.bind_some, Option.map_eq_none_iff]
      constructor
      · intro hnone
        by_cases hopen : '\x7b' ∈ fromHead
        · obtain ⟨head, rest, rfl, hhead⟩ := List.eq_append_cons_of_mem hopen
          have hclose := hguard front head rest rfl hfirst hhead
          exact .inr (.inr ⟨front, head, rest, rfl, hfirst, hhead,
            (splitBlockEnd?_eq_none_iff hhead hclose).1 hnone⟩)
        · exact .inr (.inl ⟨front, fromHead, rfl, hfirst, hopen⟩)
      · rintro (hno | ⟨a, b, htext, hab, hopen⟩ | ⟨a, head, rest, htext, hab, hhead, hno⟩)
        · exact absurd ⟨front, fromHead, rfl, hfirst.heads⟩ hno
        · rw [← (honly htext hab).2]
          exact splitBlockEnd?_eq_none_of_not_mem hopen
        · rw [← (honly htext hab).2]
          exact (splitBlockEnd?_eq_none_iff hhead (hguard a head rest htext hab hhead)).2 hno

/-- A class with braces in braces, between text whose braces do not match. -/
def ordersScope : ClassScope "Orders" where
  front := "\x7d\n"
  head := " "
  body := "f() \x7b \x7d"
  rest := " \x7b"
  front_apart := by
    intro c hc
    obtain rfl : '\n' = c := Option.some.inj hc
    decide
  first := ((firstHead_iff ⟨by decide, by decide⟩).2 (by decide +kernel)).first
  head_apart := by
    intro c hc
    obtain rfl : ' ' = c := Option.some.inj hc
    decide
  head_open := by decide
  head_close := by decide
  body_balanced := ⟨fun part hpart => (by decide +kernel :
    ∀ part ∈ ("f() \x7b \x7d" : Text).inits, 0 ≤ braceDepth part) part
      ((List.mem_inits part _).2 hpart), by decide⟩

theorem insertIntoClass_scope_orders :
    IsWord "Orders" ∧
    insertIntoClass "\x7d\nclass Orders \x7bf() \x7b \x7d\x7d \x7b" "Orders" ["h();"] "\n\n" =
      .ok "\x7d\nclass Orders \x7bf() \x7b \x7d\nh();\n\x7d \x7b" ∧
    ∃ missing, classEnd "class Orders \x7b f() \x7b" "Orders" = .error missing := by
  have hname : IsWord "Orders" := ⟨by decide, by decide⟩
  have hfirst : FirstHead "Orders" [] "class Orders \x7b f() \x7b" :=
    (firstHead_iff hname).2 (by decide +kernel)
  have hclose : '\x7d' ∉ ("class Orders \x7b f() \x7b" : Text) := by decide
  refine ⟨hname, ((insertIntoClass_scope hname).1 ordersScope).2 _ _,
    ((insertIntoClass_scope hname).2 _ fun front head rest htext _ _ hmem => ?_).2
      (.inr (.inr ⟨[], "class Orders ", " f() \x7b", rfl, hfirst, by decide, ?_⟩))⟩
  · exact hclose (by simp [htext, hmem])
  · rintro inside after hrest -
    have hmem : '\x7d' ∈ (" f() \x7b" : Text) := by rw [hrest]; simp
    exact absurd hmem (by decide)

end Scaffold
