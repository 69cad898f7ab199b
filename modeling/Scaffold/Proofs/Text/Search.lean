import Mathlib.Data.List.Infix
import Scaffold.Text.Basic

/-!
# Searching texts

What the searches of `Scaffold.Text` find. A mark that a text avoids stays avoided when texts are
joined, unless it lies across the joint: `Avoids.append_of_head`, `Avoids.append_of_last` and
`Avoids.append_of_end` are the three reasons why it cannot. `splitLast?_append` finds the last
place of a mark from the text behind it alone.
-/

namespace Scaffold.Text

variable {mark a b text : Text}

/-- A property of the characters of a text is decided along the text, not over all characters. -/
instance (priority := high) {p : Char → Prop} [DecidablePred p] :
    Decidable (∀ c ∈ text, p c) := List.decidableBAll p text

theorem after?_eq_some_iff {part text rest : Text} :
    after? part text = some rest ↔ text = part ++ rest := by
  induction part generalizing text with
  | nil => simp [after?, eq_comm]
  | cons p part ih =>
      cases text with
      | nil => simp [after?]
      | cons c text =>
          by_cases hp : p = c
          · simp [after?, hp, ih]
          · simp [after?, hp, Ne.symm hp]

@[simp] theorem after?_append (part rest : Text) : after? part (part ++ rest) = some rest :=
  after?_eq_some_iff.2 rfl

theorem after?_eq_none_iff {part text : Text} : after? part text = none ↔ ¬ part <+: text := by
  rw [Option.eq_none_iff_forall_ne_some]
  constructor
  · rintro h ⟨rest, rfl⟩
    exact h rest (after?_append part rest)
  · rintro h rest hrest
    exact h ⟨rest, (after?_eq_some_iff.1 hrest).symm⟩

theorem occursIn_iff {part text : Text} : occursIn part text = true ↔ part <:+: text := by
  induction text with
  | nil => simp [occursIn]
  | cons c text ih => simp [occursIn, List.infix_cons_iff, ih]

/-- The mark occurs nowhere in the text. -/
def Avoids (mark text : Text) : Prop := ¬ mark <:+: text

instance : Decidable (Avoids mark text) := inferInstanceAs (Decidable (¬ _))

theorem occursIn_eq_false_iff : occursIn mark text = false ↔ Avoids mark text := by
  rw [← Bool.not_eq_true, occursIn_iff, Avoids]

/-- A text without one of the characters of the mark avoids the mark. -/
theorem avoids_of_not_mem {c : Char} (hmark : c ∈ mark) (h : c ∉ text) : Avoids mark text :=
  fun hin => h (hin.subset hmark)

theorem Avoids.of_part (h : Avoids mark text) (ha : a <:+: text) : Avoids mark a :=
  fun hin => h (hin.trans ha)

/-- A mark that two texts avoid can only lie across their joint, with a part on either side. -/
theorem Avoids.append_of_split (ha : Avoids mark a) (hb : Avoids mark b)
    (h : ∀ first second, mark = first ++ second → first ≠ [] → second ≠ [] →
      first <:+ a → second <+: b → False) : Avoids mark (a ++ b) := by
  intro hin
  rcases List.infix_append_iff.1 hin with hin | hin | ⟨first, second, rfl, hfirst, hsecond⟩
  · exact ha hin
  · exact hb hin
  · by_cases hf : first = []
    · subst hf
      exact hb hsecond.isInfix
    · by_cases hs : second = []
      · subst hs
        exact ha (by simpa using hfirst.isInfix)
      · exact h first second rfl hf hs hfirst hsecond

/-- The second text starts with a character that the mark does not have. -/
theorem Avoids.append_of_head (ha : Avoids mark a) (hb : Avoids mark b)
    (h : ∀ c ∈ b.head?, c ∉ mark) : Avoids mark (a ++ b) := by
  refine ha.append_of_split hb ?_
  rintro first second rfl - hs - ⟨rest, rfl⟩
  cases second with
  | nil => exact hs rfl
  | cons c second => exact h c (by simp) (by simp)

/-- The first text ends with a character that the mark does not have. -/
theorem Avoids.append_of_last (ha : Avoids mark a) (hb : Avoids mark b)
    (h : ∀ c ∈ a.getLast?, c ∉ mark) : Avoids mark (a ++ b) := by
  refine ha.append_of_split hb ?_
  rintro first second rfl hf - ⟨rest, rfl⟩ -
  obtain ⟨c, hc⟩ : ∃ c, first.getLast? = some c := by
    cases hlast : first.getLast? with
    | none => exact absurd (List.getLast?_eq_none_iff.1 hlast) hf
    | some c => exact ⟨c, rfl⟩
  exact h c (by simp [hc]) (by simp [List.mem_of_getLast? hc])

/-- The second text lacks the character that the mark ends with. -/
theorem Avoids.append_of_end {c : Char} (ha : Avoids mark a) (hc : mark.getLast? = some c)
    (h : c ∉ b) : Avoids mark (a ++ b) := by
  refine ha.append_of_split (avoids_of_not_mem (List.mem_of_getLast? hc) h) ?_
  rintro first second rfl - hs - hsecond
  have hlast : second.getLast? = some c := by
    rwa [List.getLast?_append_of_ne_nil _ hs] at hc
  exact h (hsecond.subset (List.mem_of_getLast? hlast))

/-- No end of the first text starts the mark. -/
theorem Avoids.append_of_tails (ha : Avoids mark a) (hb : Avoids mark b)
    (h : ∀ first ∈ a.tails, first ≠ [] → ¬ first <+: mark) : Avoids mark (a ++ b) :=
  ha.append_of_split hb fun first second hmark hne _ hend _ =>
    h first ((List.mem_tails _ _).2 hend) hne ⟨second, hmark.symm⟩

/-- No start of the second text ends the mark. -/
theorem Avoids.append_of_inits (ha : Avoids mark a) (hb : Avoids mark b)
    (h : ∀ second ∈ b.inits, second ≠ [] → ¬ second <:+ mark) : Avoids mark (a ++ b) :=
  ha.append_of_split hb fun first second hmark _ hne _ hstart =>
    h second ((List.mem_inits _ _).2 hstart) hne ⟨first, hmark.symm⟩

/-- A mark of which no end is a start does not start in a text without it that stands in front of
it. -/
theorem Avoids.not_prefix {left : Text} (h : Avoids mark a)
    (hmark : ∀ second ∈ mark.tails, second ≠ [] → second ≠ mark → ¬ second <+: mark)
    (hleft : left <:+ a) (hne : left ≠ []) (rest : Text) : ¬ mark <+: left ++ (mark ++ rest) := by
  intro hstart
  have hnone : ¬ mark <+: left := fun hin => h (hin.isInfix.trans hleft.isInfix)
  obtain hin | ⟨second, hsplit⟩ := List.prefix_or_prefix_of_prefix hstart
    (List.prefix_append left (mark ++ rest))
  · exact hnone hin
  have hsecond : second <+: mark ++ rest := by
    obtain ⟨tail, htail⟩ := hstart
    rw [← hsplit, List.append_assoc] at htail
    exact ⟨tail, by rw [List.append_cancel_left htail, hsplit]⟩
  have hlength : second.length ≤ mark.length := by
    rw [← hsplit, List.length_append]
    omega
  refine hmark second ((List.mem_tails _ _).2 ⟨left, hsplit⟩) ?_ ?_
    (List.prefix_of_prefix_length_le hsecond (List.prefix_append mark rest) hlength)
  · rintro rfl
    exact hnone ⟨[], by simp [← hsplit]⟩
  · rintro rfl
    exact hne (List.append_left_eq_self.1 hsplit)

/-- A mark that occurs in joined texts, one of which has none of a character of the mark next to
the joint, occurs in one of the two. -/
theorem infix_of_append_of_last (hin : mark <:+: a ++ b) (h : ∀ c ∈ a.getLast?, c ∉ mark) :
    mark <:+: a ∨ mark <:+: b := by
  by_contra hno
  rw [not_or] at hno
  exact (Avoids.append_of_last hno.1 hno.2 h) hin

theorem infix_of_append_of_head (hin : mark <:+: a ++ b) (h : ∀ c ∈ b.head?, c ∉ mark) :
    mark <:+: a ∨ mark <:+: b := by
  by_contra hno
  rw [not_or] at hno
  exact (Avoids.append_of_head hno.1 hno.2 h) hin

/-! ## The last place of a mark -/

theorem splitLast?_eq_none (h : Avoids mark text) : splitLast? mark text = none := by
  induction text with
  | nil => rfl
  | cons c text ih =>
      have hpre : ¬ mark <+: c :: text := fun hp => h hp.isInfix
      simp [splitLast?, ih (h.of_part (List.suffix_cons c text).isInfix), hpre]

theorem splitLast?_eq_none_iff (hmark : mark ≠ []) :
    splitLast? mark text = none ↔ Avoids mark text := by
  refine ⟨fun h hin => ?_, splitLast?_eq_none⟩
  induction text with
  | nil => exact hmark (List.eq_nil_of_infix_nil hin)
  | cons c text ih =>
      simp only [splitLast?] at h
      split at h
      · cases h
      · next hrest =>
        rcases List.infix_cons_iff.1 hin with hp | hin
        · simp [hp] at h
        · exact ih hrest hin

/-- The mark stands at the start of what follows, and nowhere behind. -/
theorem splitLast?_eq_some {before fromMark : Text}
    (h : splitLast? mark text = some (before, fromMark)) (hmark : mark ≠ []) :
    mark <+: fromMark ∧ Avoids mark fromMark.tail := by
  induction text generalizing before with
  | nil => simp [splitLast?] at h
  | cons c text ih =>
      simp only [splitLast?] at h
      split at h
      · next b f hrest =>
        obtain ⟨rfl, rfl⟩ := Prod.mk.injEq .. ▸ Option.some.inj h
        exact ih hrest
      · next hrest =>
        split at h
        · next hp =>
          obtain ⟨rfl, rfl⟩ := Prod.mk.injEq .. ▸ Option.some.inj h
          exact ⟨by simpa using hp, (splitLast?_eq_none_iff hmark).1 hrest⟩
        · cases h

/-- The last place of a mark is found from what follows it. -/
theorem splitLast?_append {c : Char} (hb : mark <+: c :: b) (h : Avoids mark b) :
    splitLast? mark (a ++ c :: b) = some (a, c :: b) := by
  induction a with
  | nil => simp [splitLast?, splitLast?_eq_none h, hb]
  | cons d a ih => simp [splitLast?, ih]

/-! ## Literals

A long literal is slow to decode, so what holds of it is shown of the characters it is written
with: by these lemmas, or after `String.toList_ofList` has been rewritten with. -/

theorem not_mem_literal {c : Char} {characters : List Char} (h : c ∉ characters) :
    c ∉ (String.ofList characters : Text) := by
  rwa [String.toList_ofList]

theorem Avoids.literal {marks characters : List Char}
    (h : occursIn marks characters = false) :
    Avoids (String.ofList marks : Text) (String.ofList characters : Text) := by
  rw [String.toList_ofList, String.toList_ofList]
  exact occursIn_eq_false_iff.1 h

/-- A literal that goes on behind another one. -/
theorem literal_append {characters : List Char} (h : characters = a ++ b) :
    (String.ofList characters : Text) = (String.ofList a : Text) ++ b := by
  rw [String.toList_ofList, String.toList_ofList, h]

end Scaffold.Text
