import Mathlib.Data.List.TakeWhile
import Scaffold.Patch.Presence
import Scaffold.Proofs.Text.Search

/-!
# Names as members

`hasMember_iff` says where a name stands as a member. Text that is put in at a seam leaves every
name a member that was one (`hasMember_insert`), and a text that mentions a name makes it a member
of every text around it (`Mentions.hasMember`).
-/

namespace Scaffold

variable {name a x b text : Text}

/-- The name can be told from the text around it: it is not empty and has word characters only. -/
structure IsWord (name : Text) : Prop where
  ne_nil : name ≠ []
  word : ∀ c ∈ name, isWordChar c = true

/-- The stretches of code points between blanks, the longest ones first. -/
def blankGaps : List (Nat × Nat) :=
  [(0x3001, 0x10ffff), (0xa1, 0x167f), (0x2060, 0x2fff), (0x1681, 0x1fff), (0x21, 0x84),
    (0x86, 0x9f), (0x200b, 0x2027), (0x202a, 0x202e), (0x2030, 0x205e)]

/-- No code point from the first to the last one is a blank. -/
def betweenBlanks (first last : Nat) : Bool :=
  blankGaps.any fun gap => Nat.ble gap.1 first && Nat.ble last gap.2

theorem isBlank_of_betweenBlanks {c : Char} {first last : Nat} (h : betweenBlanks first last = true)
    (hfirst : first ≤ c.toNat) (hlast : c.toNat ≤ last) : isBlank c = false := by
  simp only [betweenBlanks, blankGaps, List.any_cons, List.any_nil, Bool.or_eq_true,
    Bool.and_eq_true, Nat.ble_eq, Bool.false_eq_true, or_false] at h
  simp only [isBlank, Bool.or_eq_false_iff, Bool.and_eq_false_iff, decide_eq_false_iff_not,
    beq_eq_false_iff_ne]
  omega

theorem alphanumericRanges_betweenBlanks :
    alphanumericRanges.all (fun range => betweenBlanks range.1 range.2) = true := by
  decide +kernel

/-- Blanks are no word characters. -/
theorem isWordChar_of_isBlank {c : Char} (h : isBlank c = true) : isWordChar c = false := by
  have hu : (c == '_') = false := by
    rw [beq_eq_false_iff_ne]
    rintro rfl
    exact absurd h (by decide)
  by_cases hascii : c.toNat < 0x80
  · simp only [isBlank, Bool.or_eq_true, Bool.and_eq_true, decide_eq_true_eq, beq_iff_eq] at h
    have hle : ∀ d : Char, 0x20 < d.toNat → ¬ d ≤ c := by
      intro d hd hle
      have : d.toNat ≤ c.toNat := hle
      omega
    rw [isWordChar_ascii hascii]
    simp [isAsciiAlphanumeric, hu, hle '0' (by decide), hle 'A' (by decide), hle 'a' (by decide)]
  · have hwide : inRanges alphanumericRanges c = false := by
      rw [← Bool.not_eq_true, inRanges, List.any_eq_true]
      rintro ⟨range, hmem, hin⟩
      rw [Bool.and_eq_true, decide_eq_true_eq, decide_eq_true_eq] at hin
      have hgap := List.all_eq_true.1 alphanumericRanges_betweenBlanks range hmem
      rw [isBlank_of_betweenBlanks hgap hin.1 hin.2] at h
      cases h
    simp [isWordChar, isAlphanumeric, hu, hascii, hwide]

theorem isBlank_of_isWordChar {c : Char} (h : isWordChar c = true) : isBlank c = false := by
  by_contra hblank
  rw [Bool.not_eq_false] at hblank
  simp [isWordChar_of_isBlank hblank] at h

theorem IsWord.not_mem {c : Char} (h : IsWord name) (hc : isWordChar c = false) : c ∉ name :=
  fun hmem => by simp [h.word c hmem] at hc

/-- The text, if any, starts with no word character. -/
def StartsApart (text : Text) : Prop := ∀ c ∈ text.head?, isWordChar c = false

/-- The text, if any, ends with no word character. -/
def EndsApart (text : Text) : Prop := ∀ c ∈ text.getLast?, isWordChar c = false

theorem any_isWordChar_eq_false {c? : Option Char} :
    c?.any isWordChar = false ↔ ∀ c ∈ c?, isWordChar c = false := by
  cases c? <;> simp

/-- Where a whole word stands in front of a text. -/
theorem afterWord?_eq_some_iff {before : Option Char} {rest : Text} (hname : IsWord name) :
    Text.afterWord? name before text = some rest ↔
      text = name ++ rest ∧ (∀ c ∈ before, isWordChar c = false) ∧ StartsApart rest := by
  obtain ⟨c, name', rfl⟩ := List.exists_cons_of_ne_nil hname.ne_nil
  obtain ⟨d, hd⟩ : ∃ d, (c :: name').getLast? = some d := ⟨_, List.getLast?_eq_some_getLast (by simp)⟩
  have hc := hname.word c (by simp)
  have hdw := hname.word d (List.mem_of_getLast? hd)
  constructor
  · intro h
    simp only [Text.afterWord?, Option.bind_eq_bind, Option.bind_eq_some_iff] at h
    obtain ⟨rest', hafter, h⟩ := h
    obtain rfl := Text.after?_eq_some_iff.1 hafter
    split at h
    · next hedge =>
      obtain rfl := Option.some.inj h
      rw [Bool.and_eq_true] at hedge
      refine ⟨rfl, any_isWordChar_eq_false.1 ?_, any_isWordChar_eq_false.1 ?_⟩
      · simpa [isWordEdge, hc] using hedge.1
      · simpa [isWordEdge, hd, hdw] using hedge.2
    · cases h
  · rintro ⟨rfl, hbefore, hrest⟩
    have hbefore := any_isWordChar_eq_false.2 hbefore
    have hrest := any_isWordChar_eq_false.2 hrest
    rw [Text.afterWord?, Text.after?_append]
    simp [isWordEdge, hc, hd, hdw, hbefore, hrest]

theorem startsMember_iff {before : Option Char} (hname : IsWord name) :
    startsMember name before text = true ↔
      ∃ last, text = name ++ last ∧ (∀ c ∈ before, isWordChar c = false) ∧ StartsApart last ∧
        opensMember last = true := by
  rw [startsMember, Option.any_eq_true]
  constructor
  · rintro ⟨last, hlast, hopens⟩
    obtain ⟨rfl, hbefore, hapart⟩ := (afterWord?_eq_some_iff hname).1 hlast
    exact ⟨last, rfl, hbefore, hapart, hopens⟩
  · rintro ⟨last, rfl, hbefore, hapart, hopens⟩
    exact ⟨last, (afterWord?_eq_some_iff hname).2 ⟨rfl, hbefore, hapart⟩, hopens⟩

theorem hasMemberFrom_iff {before : Option Char} (hname : IsWord name) :
    hasMemberFrom name before text = true ↔
      ∃ first last, text = first ++ name ++ last ∧
        (∀ c ∈ first.getLast?.or before, isWordChar c = false) ∧ StartsApart last ∧
        opensMember last = true := by
  induction text generalizing before with
  | nil =>
      rw [hasMemberFrom, startsMember_iff hname]
      constructor
      · rintro ⟨last, hlast, -⟩
        exact absurd (List.append_eq_nil_iff.1 hlast.symm).1 hname.ne_nil
      · rintro ⟨first, last, hlast, -⟩
        exact absurd (List.append_eq_nil_iff.1 (List.append_eq_nil_iff.1 hlast.symm).1).2
          hname.ne_nil
  | cons c text ih =>
      rw [hasMemberFrom, Bool.or_eq_true, startsMember_iff hname, @ih (some c)]
      constructor
      · rintro (⟨last, htext, h⟩ | ⟨first, last, rfl, hfirst, h⟩)
        · exact ⟨[], last, by simpa using htext, by simpa using h⟩
        · refine ⟨c :: first, last, by simp, ?_, h⟩
          cases hl : first.getLast? with
          | none => simpa [List.getLast?_eq_none_iff.1 hl] using hfirst
          | some d => simpa [List.getLast?_cons, hl] using hfirst
      · rintro ⟨first, last, htext, hfirst, h⟩
        cases first with
        | nil => exact .inl ⟨last, by simpa using htext, by simpa using hfirst, h⟩
        | cons d first =>
            simp only [List.cons_append, List.cons.injEq] at htext
            obtain ⟨rfl, rfl⟩ := htext
            refine .inr ⟨first, last, rfl, ?_, h⟩
            cases hl : first.getLast? with
            | none => simpa [List.getLast?_eq_none_iff.1 hl] using hfirst
            | some d => simpa [List.getLast?_cons, hl] using hfirst

/-- A name is a member where it stands as a whole word that goes on as a member does. -/
theorem hasMember_iff (hname : IsWord name) :
    hasMember text name = true ↔
      ∃ first last, text = first ++ name ++ last ∧ EndsApart first ∧ StartsApart last ∧
        opensMember last = true := by
  rw [hasMember, hasMemberFrom_iff hname]
  simp [EndsApart]

/-! ## Seams -/

/-- No member that starts in the text can go on behind it: blanks at its end apart, it ends with no
word character. -/
def Closes (text : Text) : Prop :=
  ∀ c ∈ (text.reverse.dropWhile isBlank).head?, isWordChar c = false

/-- No member that starts in front of the text can go on in it. -/
def Detached (text : Text) : Prop := StartsApart text ∧ opensMember text = false

/-- The text `x` goes in between `a` and `b` without tearing a member apart. -/
structure Seam (a x b : Text) : Prop where
  apart : Closes a ∨ Detached b
  edge : StartsApart b ∨ EndsApart (a ++ x)

theorem opensMember_append_of_blank (h : ∀ c ∈ a, isBlank c = true) :
    opensMember (a ++ b) = opensMember b := by
  simp [opensMember, List.dropWhile_append_of_pos h]

theorem opensMember_append_of_not_blank (h : ∃ c ∈ a, isBlank c = false) :
    opensMember (a ++ b) = opensMember a := by
  have hne : a.dropWhile isBlank ≠ [] := by
    rw [Ne, List.dropWhile_eq_nil_iff]
    rintro hall
    obtain ⟨c, hc, hblank⟩ := h
    simp [hall c hc] at hblank
  obtain ⟨c, rest, hrest⟩ := List.exists_cons_of_ne_nil hne
  have happend : (a ++ b).dropWhile isBlank = c :: (rest ++ b) := by
    rw [List.dropWhile_append, hrest]
    simp
  simp [opensMember, hrest, happend]

/-- A text that ends with a word, blanks apart, does not close. -/
theorem not_closes_of_word {first last : Text} (hname : IsWord name)
    (hlast : ∀ c ∈ last, isBlank c = true) : ¬ Closes (first ++ name ++ last) := by
  intro h
  obtain ⟨c, hc⟩ : ∃ c, name.getLast? = some c :=
    ⟨_, List.getLast?_eq_some_getLast hname.ne_nil⟩
  obtain ⟨name', rfl⟩ := List.getLast?_eq_some_iff.1 hc
  have hword := hname.word c (by simp)
  have hdrop : (first ++ (name' ++ [c]) ++ last).reverse.dropWhile isBlank =
      c :: (first ++ name').reverse := by
    have hrev : (first ++ (name' ++ [c]) ++ last).reverse =
        last.reverse ++ c :: (first ++ name').reverse := by simp
    rw [hrev, List.dropWhile_append_of_pos (by simpa using hlast)]
    simp [isBlank_of_isWordChar hword]
  have := h c (by rw [hdrop]; rfl)
  simp [this] at hword

/-- A member stays a member when text goes in at a seam. -/
theorem hasMember_insert (hname : IsWord name) (hseam : Seam a x b)
    (h : hasMember (a ++ b) name = true) : hasMember (a ++ x ++ b) name = true := by
  rw [hasMember_iff hname] at h ⊢
  obtain ⟨first, last, htext, hfirst, hlast, hopens⟩ := h
  -- the member ends in front of the joint, blanks and the character behind it apart
  have hfront : ∀ rest, a = first ++ name ++ rest → last = rest ++ b →
      ∃ first last, a ++ x ++ b = first ++ name ++ last ∧ EndsApart first ∧ StartsApart last ∧
        opensMember last = true := by
    rintro rest rfl rfl
    by_cases hrest : ∀ c ∈ rest, isBlank c = true
    · rcases hseam.apart with hcloses | hdetached
      · exact absurd hcloses (not_closes_of_word hname hrest)
      · rw [opensMember_append_of_blank hrest, hdetached.2] at hopens
        cases hopens
    · have hrest : ∃ c ∈ rest, isBlank c = false := by simpa using hrest
      refine ⟨first, rest ++ x ++ b, by simp, hfirst, ?_, ?_⟩
      · cases rest with
        | nil => simp at hrest
        | cons c rest => simpa [StartsApart] using hlast
      · rw [opensMember_append_of_not_blank hrest] at hopens
        rwa [List.append_assoc, opensMember_append_of_not_blank hrest]
  -- the member starts behind the joint
  have hbehind : ∀ rest, first = a ++ rest → b = rest ++ name ++ last →
      ∃ first last, a ++ x ++ b = first ++ name ++ last ∧ EndsApart first ∧ StartsApart last ∧
        opensMember last = true := by
    rintro rest rfl rfl
    refine ⟨a ++ x ++ rest, last, by simp, ?_, hlast, hopens⟩
    intro c hc
    by_cases hnil : rest = []
    · subst hnil
      rcases hseam.edge with hedge | hedge
      · obtain ⟨d, name', rfl⟩ := List.exists_cons_of_ne_nil hname.ne_nil
        have := hedge d (by simp)
        simp [hname.word d (by simp)] at this
      · exact hedge c (by simpa using hc)
    · rw [List.getLast?_append_of_ne_nil _ hnil] at hc
      exact hfirst c (by rwa [List.getLast?_append_of_ne_nil _ hnil])
  rcases List.append_eq_append_iff.1 htext with ⟨rest, hname', rfl⟩ | ⟨rest, ha, hl⟩
  · rcases List.append_eq_append_iff.1 hname' with ⟨second, rfl, rfl⟩ | ⟨second, rfl, rfl⟩
    · by_cases hsecond : second = []
      · subst hsecond
        exact hbehind [] (by simp) (by simp)
      by_cases hrest : rest = []
      · subst hrest
        exact hfront [] (by simp) (by simp)
      -- the joint lies inside the name
      rcases hseam.apart with hcloses | hdetached
      · have hword : IsWord second := ⟨hsecond, fun c hc => hname.word c (by simp [hc])⟩
        have hopen : ¬ Closes (first ++ second ++ []) :=
          not_closes_of_word hword (List.forall_mem_nil _)
        exact absurd hcloses (by simpa using hopen)
      · obtain ⟨c, rest, rfl⟩ := List.exists_cons_of_ne_nil hrest
        have := hdetached.1 c (by simp)
        simp [hname.word c (by simp)] at this
    · exact hbehind second rfl rfl
  · exact hfront rest ha hl

/-! ## Mentions -/

/-- The text names a member: the name stands between a character of no word and one that opens a
member. -/
def Mentions (text name : Text) : Prop :=
  ∃ first c d last, text = first ++ c :: (name ++ d :: last) ∧ isWordChar c = false ∧
    (d = '(' ∨ d = ':' ∨ d = ',')

theorem Mentions.append_left (h : Mentions text name) (a : Text) : Mentions (a ++ text) name := by
  obtain ⟨first, c, d, last, rfl, h⟩ := h
  exact ⟨a ++ first, c, d, last, by simp, h⟩

theorem Mentions.append_right (h : Mentions text name) (b : Text) : Mentions (text ++ b) name := by
  obtain ⟨first, c, d, last, rfl, h⟩ := h
  exact ⟨first, c, d, last ++ b, by simp, h⟩

theorem Mentions.of_part (h : Mentions a name) (hin : a <:+: text) : Mentions text name := by
  obtain ⟨first, last, rfl⟩ := hin
  exact (h.append_left first).append_right last

/-- A name that a text mentions is a member of the text. -/
theorem Mentions.hasMember (h : Mentions text name) (hname : IsWord name) :
    hasMember text name = true := by
  obtain ⟨first, c, d, last, rfl, hc, hd⟩ := h
  refine (hasMember_iff hname).2 ⟨first ++ [c], d :: last, by simp, ?_, ?_, ?_⟩
  · simpa [EndsApart] using hc
  · rcases hd with rfl | rfl | rfl <;> simp [StartsApart] <;> decide
  · rcases hd with rfl | rfl | rfl <;> rfl

end Scaffold
