import Mathlib.Data.List.TakeDrop
import Mathlib.Data.List.TakeWhile
import Scaffold.Patch.Anchor
import Scaffold.Proofs.Text.Search

/-!
# Matches of anchors

What a match of an anchor takes off the front of a text (`after?_eq_some`), and how far it looks: the
parts of a match of whole lines do not look behind the end of the line (`StaysInLine`), and only the
search for a closing parenthesis goes on to later lines (`after?_whenCase`).
-/

namespace Scaffold

namespace Anchor

variable {anchor : Anchor} {lineStart : Bool} {text rest rest' before : Text} {c : Char}

/-- Whether a line starts behind the text, which starts a line itself if `lineStart` holds. -/
def startsLineAfter : Bool → Text → Bool
  | lineStart, [] => lineStart
  | _, c :: rest => startsLineAfter (c == '\n') rest

/-- Behind nothing a line starts if it did before. -/
@[simp] theorem startsLineAfter_nil (lineStart : Bool) : startsLineAfter lineStart [] = lineStart :=
  rfl

/-- Only the last character tells, so the first one starts anew. -/
@[simp] theorem startsLineAfter_cons (lineStart : Bool) (c : Char) (rest : Text) :
    startsLineAfter lineStart (c :: rest) = startsLineAfter (c == '\n') rest := rfl

/-- Two texts are gone through one behind the other. -/
theorem startsLineAfter_append (lineStart : Bool) (a b : Text) :
    startsLineAfter lineStart (a ++ b) = startsLineAfter (startsLineAfter lineStart a) b := by
  induction a generalizing lineStart with
  | nil => rfl
  | cons c a ih => exact ih (c == '\n')

/-- A line starts behind a line feed and behind nothing else. -/
@[simp] theorem startsLineAfter_concat (lineStart : Bool) (a : Text) (c : Char) :
    startsLineAfter lineStart (a ++ [c]) = (c == '\n') := by
  rw [startsLineAfter_append]
  rfl

/-- A line starts behind a text that ends with a line feed. -/
theorem startsLineAfter_of_getLast? {a : Text} (h : a.getLast? = some '\n') (lineStart : Bool) :
    startsLineAfter lineStart a = true := by
  obtain ⟨front, rfl⟩ := List.getLast?_eq_some_iff.1 h
  exact startsLineAfter_concat lineStart front '\n'

/-- A text that is not empty makes the start forgotten. -/
theorem startsLineAfter_of_ne_nil (h : b ≠ []) (lineStart lineStart' : Bool) :
    startsLineAfter lineStart b = startsLineAfter lineStart' b := by
  obtain ⟨c, rest, rfl⟩ := List.exists_cons_of_ne_nil h
  rfl

/-! ## What a match leaves -/

/-- A run is not empty, and all of its characters are taken. -/
theorem afterRun?_eq_some {accepts : Char → Bool} (h : afterRun? accepts text = some rest) :
    ∃ run, run ≠ [] ∧ (∀ c ∈ run, accepts c = true) ∧ text = run ++ rest := by
  cases text with
  | nil => simp [afterRun?] at h
  | cons c text =>
      rw [afterRun?] at h
      split at h
      · next hc =>
        obtain rfl := Option.some.inj h
        refine ⟨c :: text.takeWhile accepts, by simp, ?_, by simp⟩
        intro d hd
        rcases List.mem_cons.1 hd with rfl | hd
        · exact hc
        · exact List.mem_takeWhile_imp hd
      · cases h

/-- A run that something else follows ends there. -/
theorem afterRun?_append {accepts : Char → Bool} {run : Text} (hne : run ≠ [])
    (hrun : ∀ c ∈ run, accepts c = true) (hrest : ∀ c ∈ rest.head?, accepts c = false) :
    afterRun? accepts (run ++ rest) = some rest := by
  obtain ⟨c, run', rfl⟩ := List.exists_cons_of_ne_nil hne
  have hdrop : (run' ++ rest).dropWhile accepts = rest := by
    rw [List.dropWhile_append_of_pos fun d hd => hrun d (by simp [hd])]
    cases rest with
    | nil => rfl
    | cons d rest => simp [hrest d rfl]
  simp [afterRun?, hrun c (by simp), hdrop]

/-- The search for a character stops at the first one. -/
theorem afterChar?_eq_some {mark : Char} (h : afterChar? mark text = some rest) :
    ∃ before, mark ∉ before ∧ text = before ++ mark :: rest := by
  rw [afterChar?, Text.after?_eq_some_iff] at h
  refine ⟨text.takeWhile (· != mark), fun hmem => ?_, ?_⟩
  · simpa using List.mem_takeWhile_imp hmem
  · have htext := List.takeWhile_append_dropWhile (p := fun c => c != mark) (l := text)
    rw [h] at htext
    exact htext.symm

/-- The character is found behind a text without it. -/
theorem afterChar?_append {mark : Char} (h : mark ∉ before) (rest : Text) :
    afterChar? mark (before ++ mark :: rest) = some rest := by
  have hall : ∀ c ∈ before, (c != mark) = true := by
    intro c hc
    rw [bne_iff_ne]
    rintro rfl
    exact h hc
  rw [afterChar?, List.dropWhile_append_of_pos hall]
  simp [Text.after?]

/-- Only blanks stand in front of the end of a line. -/
theorem atLineEnd?_eq_some (h : atLineEnd? text = some rest) :
    ∃ blanks, (∀ c ∈ blanks, isIndent c = true) ∧ text = blanks ++ rest := by
  have htext := List.takeWhile_append_dropWhile (p := isIndent) (l := text)
  refine ⟨text.takeWhile isIndent, fun c hc => List.mem_takeWhile_imp hc, ?_⟩
  rw [atLineEnd?] at h
  split at h
  · next hdrop =>
    obtain rfl := Option.some.inj h
    simpa [hdrop] using htext.symm
  · next d others hdrop =>
    split at h
    · obtain rfl := Option.some.inj h
      rw [hdrop] at htext
      exact htext.symm
    · cases h

/-- The search for the end of a block stops where one is closed. -/
theorem fromBlockEnd?_eq_some (h : fromBlockEnd? text = some rest) :
    ∃ before, text = before ++ rest ∧ closesBlock rest = true := by
  induction text with
  | nil => simp [fromBlockEnd?] at h
  | cons c text ih =>
      rw [fromBlockEnd?] at h
      split at h
      · next hcloses =>
        obtain rfl := Option.some.inj h
        exact ⟨[], rfl, hcloses⟩
      · obtain ⟨before, rfl, hcloses⟩ := ih h
        exact ⟨c :: before, rfl, hcloses⟩

/-- The line of a call is taken to its end, which closes the call. -/
theorem afterCallLine?_eq_some (h : afterCallLine? text = some rest) :
    text = text.takeWhile (· != '\n') ++ rest ∧
      Text.startsWith ((text.takeWhile (· != '\n')).reverse.dropWhile isIndent) ";)" = true := by
  rw [afterCallLine?] at h
  split at h
  · next hends =>
    obtain rfl := Option.some.inj h
    exact ⟨(List.prefix_iff_eq_append.1 (List.takeWhile_prefix _)).symm, hends⟩
  · cases h

/-- The patterns that match whole lines. -/
def WholeLines (anchor : Anchor) : Prop := anchor = whenCase ∨ anchor = registration

/-- A match of a pattern for whole lines starts with an indentation. -/
theorem after?_of_not_indent (h : anchor.WholeLines) (hc : isIndent c = false) :
    anchor.after? lineStart (c :: rest) = none := by
  rcases h with rfl | rfl <;> simp [after?, afterRun?, hc]

/-- No pattern for whole lines matches inside a line. -/
theorem after?_of_mid_line (h : anchor.WholeLines) : anchor.after? false text = none := by
  rcases h with rfl | rfl <;> rfl

/-- No pattern matches nothing. -/
theorem after?_nil : anchor.after? lineStart [] = none := by
  cases anchor <;> cases lineStart <;> rfl

/-- The other patterns match anywhere in a line. -/
theorem after?_of_not_wholeLines (h : ¬ anchor.WholeLines) (lineStart' : Bool) :
    anchor.after? lineStart text = anchor.after? lineStart' text := by
  cases anchor with
  | eventCase => rfl
  | stateFields => rfl
  | whenCase => exact absurd (.inl rfl) h
  | registration => exact absurd (.inr rfl) h

/-! ## The parts of a match

All parts of a match but the search for a closing parenthesis stay within one line. -/

/-- The head of a branch: its name and what opens its parameters. -/
def branchHead? (text : Text) : Option Text :=
  (afterRun? isIndent text).bind fun rest =>
    (afterRun? isWordChar rest).bind (Text.after? ": (")

/-- The middle of a branch, between its parameters and its arguments. -/
def branchArrow? (text : Text) : Option Text :=
  (Text.after? " => _" text).bind fun rest => (afterRun? isWordChar rest).bind (Text.after? "(")

/-- The end of a branch behind its arguments. -/
def branchEnd? (text : Text) : Option Text := (Text.after? "," text).bind atLineEnd?

/-- A registration, which is one line. -/
def registrationLine? (text : Text) : Option Text :=
  (afterRun? isIndent text).bind fun rest => (Text.after? "on<" rest).bind fun rest =>
    (afterRun? isWordChar rest).bind fun rest => (Text.after? ">(" rest).bind afterCallLine?

/-- The pattern of a branch is its head, its middle and its end, with searches for a closing
parenthesis between. -/
theorem after?_whenCase (text : Text) :
    after? whenCase true text =
      (branchHead? text).bind fun rest => (afterChar? ')' rest).bind fun rest =>
        (branchArrow? rest).bind fun rest => (afterChar? ')' rest).bind branchEnd? := by
  simp only [after?, branchHead?, branchArrow?, Option.bind_eq_bind, Option.bind_assoc, if_true]
  rfl

/-- The pattern of a registration is one line. -/
theorem after?_registration (text : Text) :
    after? registration true text = registrationLine? text := rfl

/-! ## Texts behind which a line ends -/

/-- The text, if any, starts with a line break. -/
def BreaksLine (text : Text) : Prop := ∀ c ∈ text.head?, c = '\n'

/-- Two answers of a step that leaves `rest` or `rest'` at the end alone. -/
def Alike (rest rest' : Text) (answer answer' : Option Text) : Prop :=
  (answer = none ∧ answer' = none) ∨
    ∃ left, answer = some (left ++ rest) ∧ answer' = some (left ++ rest')

/-- The step does not look behind the end of a line. -/
def StaysInLine (step : Text → Option Text) : Prop :=
  ∀ left rest rest', BreaksLine rest → BreaksLine rest' →
    Alike rest rest' (step (left ++ rest)) (step (left ++ rest'))

/-- Two steps that stay in their line make one that does. -/
theorem StaysInLine.bind {step next : Text → Option Text} (hstep : StaysInLine step)
    (hnext : StaysInLine next) : StaysInLine fun text => (step text).bind next := by
  intro left rest rest' hrest hrest'
  rcases hstep left rest rest' hrest hrest' with ⟨h, h'⟩ | ⟨left', h, h'⟩
  · exact .inl ⟨by simp [h], by simp [h']⟩
  · simpa only [h, h', Option.bind_some] using hnext left' rest rest' hrest hrest'

/-- What does not take line feeds drops nothing behind the end of a line. -/
theorem BreaksLine.dropWhile (h : BreaksLine rest) (accepts : Char → Bool)
    (haccepts : accepts '\n' = false) (left : Text) :
    (left ++ rest).dropWhile accepts = left.dropWhile accepts ++ rest := by
  induction left with
  | nil =>
      cases rest with
      | nil => rfl
      | cons c rest =>
          obtain rfl := h c rfl
          simp [haccepts]
  | cons c left ih =>
      by_cases hc : accepts c = true
      · simp [hc, ih]
      · simp [hc]

/-- A run without line feeds stays in its line. -/
theorem staysInLine_afterRun? {accepts : Char → Bool} (haccepts : accepts '\n' = false) :
    StaysInLine (afterRun? accepts) := by
  intro left rest rest' hrest hrest'
  -- a run needs a first character, which at the end of the line is missing on both sides
  cases left with
  | nil =>
      have hnone : ∀ rest, BreaksLine rest → afterRun? accepts rest = none := by
        intro rest hrest
        cases rest with
        | nil => rfl
        | cons c rest =>
            obtain rfl := hrest c rfl
            simp [afterRun?, haccepts]
      exact .inl ⟨hnone rest hrest, hnone rest' hrest'⟩
  | cons c left =>
      by_cases hc : accepts c = true
      · refine .inr ⟨left.dropWhile accepts, ?_, ?_⟩
        · simp [afterRun?, hc, hrest.dropWhile accepts haccepts]
        · simp [afterRun?, hc, hrest'.dropWhile accepts haccepts]
      · exact .inl ⟨by simp [afterRun?, hc], by simp [afterRun?, hc]⟩

/-- A literal without a line feed stays in its line, by induction on the literal. -/
theorem staysInLine_after? {part : Text} (hpart : '\n' ∉ part) : StaysInLine (Text.after? part) := by
  induction part with
  | nil => exact fun left rest rest' _ _ => .inr ⟨left, rfl, rfl⟩
  | cons p part ih =>
      rw [List.mem_cons, not_or] at hpart
      intro left rest rest' hrest hrest'
      cases left with
      | nil =>
          have hnone : ∀ rest, BreaksLine rest → Text.after? (p :: part) rest = none := by
            intro rest hrest
            cases rest with
            | nil => rfl
            | cons c rest =>
                obtain rfl := hrest c rfl
                simp [Text.after?, Ne.symm hpart.1]
          exact .inl ⟨hnone rest hrest, hnone rest' hrest'⟩
      | cons c left =>
          by_cases hc : p = c
          · simpa [Text.after?, hc] using ih hpart.2 left rest rest' hrest hrest'
          · exact .inl ⟨by simp [Text.after?, hc], by simp [Text.after?, hc]⟩

/-- Where a line ends there are no blanks to take. -/
theorem BreaksLine.atLineEnd? (h : BreaksLine rest) : Anchor.atLineEnd? rest = some rest := by
  have hdrop : rest.dropWhile isIndent = rest := by simpa using h.dropWhile isIndent (by decide) []
  unfold Anchor.atLineEnd?
  rw [hdrop]
  cases rest with
  | nil => rfl
  | cons c rest => simp [h c rfl]

/-- Looking for the end of the line does not look behind it. -/
theorem staysInLine_atLineEnd? : StaysInLine atLineEnd? := by
  intro left rest rest' hrest hrest'
  -- either only blanks are left of the line, or something in it decides
  by_cases hleft : left.dropWhile isIndent = []
  · have hend : ∀ rest, BreaksLine rest → atLineEnd? (left ++ rest) = some rest := by
      intro rest hrest
      rw [← hrest.atLineEnd?]
      unfold atLineEnd?
      rw [hrest.dropWhile isIndent (by decide), hleft]
      have hdrop : rest.dropWhile isIndent = rest := by
        simpa using hrest.dropWhile isIndent (by decide) []
      rw [hdrop]
      rfl
    exact .inr ⟨[], hend rest hrest, hend rest' hrest'⟩
  · obtain ⟨c, left', hcons⟩ := List.exists_cons_of_ne_nil hleft
    by_cases hc : c = '\n'
    · refine .inr ⟨c :: left', ?_, ?_⟩
      · simp [atLineEnd?, hrest.dropWhile isIndent (by decide), hcons, hc]
      · simp [atLineEnd?, hrest'.dropWhile isIndent (by decide), hcons, hc]
    · refine .inl ⟨?_, ?_⟩
      · simp [atLineEnd?, hrest.dropWhile isIndent (by decide), hcons, hc]
      · simp [atLineEnd?, hrest'.dropWhile isIndent (by decide), hcons, hc]

/-- What follows the end of a line does not belong to the line. -/
theorem BreaksLine.takeWhile (h : BreaksLine rest) (left : Text) :
    (left ++ rest).takeWhile (· != '\n') = left.takeWhile (· != '\n') := by
  induction left with
  | nil =>
      cases rest with
      | nil => rfl
      | cons c rest =>
          obtain rfl := h c rfl
          rfl
  | cons c left ih =>
      by_cases hc : c = '\n'
      · simp [hc]
      · simp [hc, ih]

/-- The line of a call is judged by itself. -/
theorem staysInLine_afterCallLine? : StaysInLine afterCallLine? := by
  intro left rest rest' hrest hrest'
  -- the line is a part of `left`, so it is taken off `left` alone
  have hle : (left.takeWhile (· != '\n')).length ≤ left.length :=
    (List.takeWhile_prefix _).length_le
  unfold afterCallLine?
  rw [hrest.takeWhile, hrest'.takeWhile]
  by_cases hends : Text.startsWith ((left.takeWhile (· != '\n')).reverse.dropWhile isIndent) ";)"
  · refine .inr ⟨left.drop (left.takeWhile (· != '\n')).length, ?_, ?_⟩
    · simp only [hends, if_true, List.drop_append_of_le_length hle]
    · simp only [hends, if_true, List.drop_append_of_le_length hle]
  · rw [Bool.not_eq_true] at hends
    exact .inl ⟨by simp only [hends]; rfl, by simp only [hends]; rfl⟩

/-- No word character is a blank. -/
theorem isIndent_of_isWordChar (h : isWordChar c = true) : isIndent c = false := by
  rw [isIndent, Bool.or_eq_false_iff, beq_eq_false_iff_ne, beq_eq_false_iff_ne]
  constructor
  · rintro rfl
    exact absurd h (by decide)
  · rintro rfl
    exact absurd h (by decide)

/-- A line feed is no word character. -/
theorem isWordChar_break : isWordChar '\n' = false := by decide

/-- The head of a branch stays in its line. -/
theorem staysInLine_branchHead? : StaysInLine branchHead? :=
  (staysInLine_afterRun? rfl).bind
    ((staysInLine_afterRun? isWordChar_break).bind (staysInLine_after? (by decide)))

/-- The middle of a branch stays in its line. -/
theorem staysInLine_branchArrow? : StaysInLine branchArrow? :=
  (staysInLine_after? (by decide)).bind
    ((staysInLine_afterRun? isWordChar_break).bind (staysInLine_after? (by decide)))

/-- The end of a branch stays in its line. -/
theorem staysInLine_branchEnd? : StaysInLine branchEnd? :=
  (staysInLine_after? (by decide)).bind staysInLine_atLineEnd?

/-- A registration stays in its line. -/
theorem staysInLine_registrationLine? : StaysInLine registrationLine? :=
  (staysInLine_afterRun? rfl).bind ((staysInLine_after? (by decide)).bind
    ((staysInLine_afterRun? isWordChar_break).bind
      ((staysInLine_after? (by decide)).bind staysInLine_afterCallLine?)))

/-! ## What a match takes -/

/-- The step takes something without the mark off the front of a text. -/
def Passes (mark : Char) (step : Text → Option Text) : Prop :=
  ∀ text rest, step text = some rest → ∃ used, mark ∉ used ∧ text = used ++ rest

/-- Two steps that pass over texts without the mark make one that does. -/
theorem Passes.bind {mark : Char} {step next : Text → Option Text} (hstep : Passes mark step)
    (hnext : Passes mark next) : Passes mark fun text => (step text).bind next := by
  intro text rest h
  obtain ⟨middle, hmiddle, hlast⟩ := Option.bind_eq_some_iff.1 h
  obtain ⟨used, hused, rfl⟩ := hstep text middle hmiddle
  obtain ⟨used', hused', rfl⟩ := hnext middle rest hlast
  exact ⟨used ++ used', by simp [hused, hused'], by simp⟩

/-- A literal without the mark is passed over. -/
theorem passes_after? {mark : Char} {part : Text} (hpart : mark ∉ part) :
    Passes mark (Text.after? part) :=
  fun _ _ h => ⟨part, hpart, Text.after?_eq_some_iff.1 h⟩

/-- A run of characters other than the mark is passed over. -/
theorem passes_afterRun? {mark : Char} {accepts : Char → Bool} (hmark : accepts mark = false) :
    Passes mark (afterRun? accepts) := by
  intro text rest h
  obtain ⟨run, -, hrun, rfl⟩ := afterRun?_eq_some h
  refine ⟨run, fun hmem => ?_, rfl⟩
  have := hrun mark hmem
  simp [hmark] at this

/-- The head of a branch closes no parenthesis. -/
theorem passes_branchHead? : Passes ')' branchHead? :=
  (passes_afterRun? (by decide)).bind ((passes_afterRun? (by decide)).bind
    (passes_after? (by decide)))

/-- The middle of a branch closes no parenthesis. -/
theorem passes_branchArrow? : Passes ')' branchArrow? :=
  (passes_after? (by decide)).bind ((passes_afterRun? (by decide)).bind
    (passes_after? (by decide)))

/-- The end of a branch is a comma and blanks. -/
theorem branchEnd?_eq_some (h : branchEnd? text = some rest) :
    ∃ blanks, (∀ c ∈ blanks, isIndent c = true) ∧ text = ',' :: blanks ++ rest := by
  obtain ⟨behind, hcomma, hend⟩ := Option.bind_eq_some_iff.1 h
  obtain ⟨blanks, hblanks, rfl⟩ := atLineEnd?_eq_some hend
  have htext : text = "," ++ (blanks ++ rest) := Text.after?_eq_some_iff.1 hcomma
  exact ⟨blanks, hblanks, htext⟩

/-- A branch has a closing parenthesis behind its parameters and one behind its arguments. -/
theorem after?_whenCase_eq_some (h : after? whenCase lineStart text = some rest) :
    lineStart = true ∧ ∃ head parameters arrow arguments blanks,
      ')' ∉ head ∧ ')' ∉ parameters ∧ ')' ∉ arrow ∧ ')' ∉ arguments ∧
      (∀ c ∈ blanks, isIndent c = true) ∧
      text = head ++ parameters ++ ')' :: arrow ++ arguments ++ ')' :: ',' :: blanks ++ rest := by
  cases lineStart with
  | false => cases h
  | true =>
      rw [after?_whenCase] at h
      obtain ⟨r₁, hhead, h₁⟩ := Option.bind_eq_some_iff.1 h
      obtain ⟨r₂, hparameters, h₂⟩ := Option.bind_eq_some_iff.1 h₁
      obtain ⟨r₃, harrow, h₃⟩ := Option.bind_eq_some_iff.1 h₂
      obtain ⟨r₄, harguments, hend⟩ := Option.bind_eq_some_iff.1 h₃
      obtain ⟨head, hheadmem, rfl⟩ := passes_branchHead? _ _ hhead
      obtain ⟨parameters, hparametersmem, rfl⟩ := afterChar?_eq_some hparameters
      obtain ⟨arrow, harrowmem, rfl⟩ := passes_branchArrow? _ _ harrow
      obtain ⟨arguments, hargumentsmem, rfl⟩ := afterChar?_eq_some harguments
      obtain ⟨blanks, hblanks, rfl⟩ := branchEnd?_eq_some hend
      exact ⟨rfl, head, parameters, arrow, arguments, blanks, hheadmem, hparametersmem, harrowmem,
        hargumentsmem, hblanks, by simp⟩

/-- No line starts behind a text without line feeds. -/
theorem startsLineAfter_of_not_mem (hne : text ≠ []) (h : '\n' ∉ text) (lineStart : Bool) :
    startsLineAfter lineStart text = false := by
  obtain ⟨front, c, rfl⟩ := (List.eq_nil_or_concat text).resolve_left hne
  have hc : c ≠ '\n' := fun hc => h (by simp [hc])
  simp [hc]

/-- A registration is one line. -/
theorem registrationLine?_eq_some (h : registrationLine? text = some rest) :
    ∃ line, line ≠ [] ∧ '\n' ∉ line ∧ text = line ++ rest := by
  obtain ⟨r₁, hindent, h₁⟩ := Option.bind_eq_some_iff.1 h
  obtain ⟨r₂, hon, h₂⟩ := Option.bind_eq_some_iff.1 h₁
  obtain ⟨r₃, hname, h₃⟩ := Option.bind_eq_some_iff.1 h₂
  obtain ⟨r₄, hopen, hend⟩ := Option.bind_eq_some_iff.1 h₃
  have hrun : ∀ {accepts : Char → Bool}, accepts '\n' = false → Passes '\n' (afterRun? accepts) :=
    passes_afterRun?
  have hword : '\n' ∉ "on<".toList := by decide
  obtain ⟨indent, hindentmem, rfl⟩ := hrun (by decide) _ _ hindent
  obtain ⟨on, honmem, rfl⟩ := passes_after? hword _ _ hon
  obtain ⟨name, hnamemem, rfl⟩ := hrun isWordChar_break _ _ hname
  obtain rfl := Text.after?_eq_some_iff.1 hopen
  obtain ⟨htext, -⟩ := afterCallLine?_eq_some hend
  refine ⟨indent ++ on ++ name ++ ">(".toList ++ r₄.takeWhile (· != '\n'), by simp, ?_, ?_⟩
  · have hline : '\n' ∉ r₄.takeWhile (· != '\n') := by
      intro hmem
      simpa using List.mem_takeWhile_imp hmem
    have hlit : '\n' ∉ ">(".toList := by decide
    simp only [List.mem_append, not_or]
    exact ⟨⟨⟨⟨hindentmem, honmem⟩, hnamemem⟩, hlit⟩, hline⟩
  · conv_lhs => rw [htext]
    simp

/-- A match is not empty, and one of whole lines does not end with a line break. -/
theorem after?_eq_some (h : anchor.after? lineStart text = some rest) :
    ∃ matched, matched ≠ [] ∧ text = matched ++ rest ∧
      (anchor.WholeLines → ∀ lineStart, startsLineAfter lineStart matched = false) := by
  cases anchor with
  | eventCase =>
      simp only [after?, Option.bind_eq_bind, Option.bind_eq_some_iff] at h
      obtain ⟨behind, hword, hend⟩ := h
      obtain rfl := Text.after?_eq_some_iff.1 hword
      obtain ⟨before, -, rfl⟩ := afterChar?_eq_some hend
      refine ⟨"const factory".toList ++ before ++ [';'], by simp, by simp, ?_⟩
      rintro (h | h) <;> cases h
  | whenCase =>
      obtain ⟨rfl, head, parameters, arrow, arguments, blanks, -, -, -, -, hblanks, rfl⟩ :=
        after?_whenCase_eq_some h
      refine ⟨head ++ parameters ++ ')' :: arrow ++ arguments ++ ')' :: ',' :: blanks, by simp,
        by simp, fun _ lineStart => ?_⟩
      rw [startsLineAfter_append]
      refine startsLineAfter_of_not_mem (by simp) (fun hmem => ?_) _
      have hmem : '\n' ∈ blanks := by simpa using hmem
      exact absurd (hblanks _ hmem) (by decide)
  | stateFields =>
      simp only [after?, Option.bind_eq_bind, Option.bind_eq_some_iff] at h
      obtain ⟨r₁, hword, r₂, hname, r₃, hopen, hend⟩ := h
      obtain rfl := Text.after?_eq_some_iff.1 hword
      obtain ⟨name, -, -, rfl⟩ := afterRun?_eq_some hname
      obtain rfl := Text.after?_eq_some_iff.1 hopen
      obtain ⟨before, rfl, -⟩ := fromBlockEnd?_eq_some hend
      refine ⟨"const factory ".toList ++ name ++ "(\x7b".toList ++ before, by simp, by simp, ?_⟩
      rintro (h | h) <;> cases h
  | registration =>
      cases lineStart with
      | false => cases h
      | true =>
          obtain ⟨line, hne, hline, rfl⟩ := registrationLine?_eq_some h
          exact ⟨line, hne, rfl, fun _ => startsLineAfter_of_not_mem hne hline⟩

end Anchor

end Scaffold
