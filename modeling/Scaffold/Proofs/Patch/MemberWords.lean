import Scaffold.Proofs.Patch.Presence
import Scaffold.Proofs.Text.Lines

/-!
# Words that stand as members

`memberWords` lists the words of a text that go on as a member does; a name is a member where it is
one of them (`hasMember_iff_mem`). A text that is put together at the ends of words has the words of
its parts (`memberWords_append`), so that they can be read off from a template.
-/

namespace Scaffold

/-- The words of a text that go on as members, `word` being the part of a word in front of it. -/
def memberWordsFrom (word : Text) : Text → List Text
  | [] => []
  | c :: rest =>
    if isWordChar c then memberWordsFrom (word ++ [c]) rest
    else (if !word.isEmpty && opensMember (c :: rest) then [word] else []) ++
      memberWordsFrom [] rest

/-- The words of a text that go on as members. -/
def memberWords (text : Text) : List Text := memberWordsFrom [] text

variable {name a b text word : Text} {c : Char}

theorem opensMember_append_word (h : IsWord name) (b : Text) : opensMember (name ++ b) = false := by
  obtain ⟨c, rest, rfl⟩ := List.exists_cons_of_ne_nil h.ne_nil
  have hword := h.word c List.mem_cons_self
  have hne : ∀ d : Char, isWordChar d = false → (c == d) = false := by
    intro d hd
    rw [beq_eq_false_iff_ne]
    rintro rfl
    rw [hword] at hd
    cases hd
  simp [opensMember, isBlank_of_isWordChar hword, hne '(' (by decide), hne ':' (by decide),
    hne ',' (by decide)]

/-! ## Equations -/

@[simp] theorem memberWords_nil : memberWords [] = [] := rfl

theorem memberWords_cons (hc : isWordChar c = false) (text : Text) :
    memberWords (c :: text) = memberWords text := by
  rw [memberWords, memberWordsFrom, hc]
  rfl

theorem memberWordsFrom_word (hname : ∀ c ∈ name, isWordChar c = true) (word text : Text) :
    memberWordsFrom word (name ++ text) = memberWordsFrom (word ++ name) text := by
  induction name generalizing word with
  | nil => rw [List.nil_append, List.append_nil]
  | cons c name ih =>
      obtain ⟨hc, hname⟩ := List.forall_mem_cons.1 hname
      rw [List.cons_append, memberWordsFrom, if_pos hc, ih hname, List.append_assoc]
      rfl

/-- A word goes on as a member if what follows it opens one. -/
theorem memberWords_word (hname : IsWord name) (hb : StartsApart b) :
    memberWords (name ++ b) = (if opensMember b then [name] else []) ++ memberWords b := by
  rw [memberWords, memberWordsFrom_word hname.word, List.nil_append]
  cases b with
  | nil => rfl
  | cons c b =>
      have hc := hb c rfl
      rw [memberWordsFrom, hc, memberWords_cons hc, List.isEmpty_eq_false_iff.2 hname.ne_nil]
      rfl

theorem memberWordsFrom_append (hb : opensMember b = false)
    (hword : ∀ c ∈ word, isWordChar c = true) (hedge : EndsApart (word ++ a) ∨ StartsApart b) :
    memberWordsFrom word (a ++ b) = memberWordsFrom word a ++ memberWords b := by
  have hopens : ∀ front : Text, opensMember (front ++ b) = opensMember front := by
    intro front
    by_cases hblank : ∀ c ∈ front, isBlank c = true
    · have hfront := opensMember_append_of_blank (b := []) hblank
      rw [List.append_nil] at hfront
      rw [opensMember_append_of_blank hblank, hb, hfront]
      rfl
    · exact opensMember_append_of_not_blank (by simpa using hblank)
  induction a generalizing word with
  | nil =>
      rw [List.append_nil] at hedge
      rw [List.nil_append, memberWordsFrom, List.nil_append]
      rcases hedge with hend | hstart
      · have hnil : word = [] := by
          by_contra hne
          have hlast := hend _ (List.getLast?_eq_some_getLast hne)
          rw [hword _ (List.getLast_mem hne)] at hlast
          cases hlast
        rw [hnil]
        rfl
      · cases b with
        | nil => rfl
        | cons c b =>
            have hc := hstart c rfl
            rw [memberWords_cons hc, memberWordsFrom, hc, hb, Bool.and_false]
            rfl
  | cons c a ih =>
      have hfirst := hopens (c :: a)
      rw [List.cons_append] at hfirst ⊢
      rw [memberWordsFrom, memberWordsFrom, hfirst]
      split
      · next hc =>
        refine ih (List.forall_mem_append.2 ⟨hword, List.forall_mem_singleton.2 hc⟩) ?_
        rwa [List.append_assoc, List.singleton_append]
      · refine (congrArg _ (ih (List.forall_mem_nil _) ?_)).trans (List.append_assoc ..).symm
        refine hedge.imp_left fun hend d hd => hend d ?_
        have hlast : a.getLast? = some d := hd
        rw [List.append_cons, List.getLast?_append, hlast]
        rfl

/-- Where a word ends at the joint, and what follows opens no member, both parts have their own
words. -/
theorem memberWords_append (hb : opensMember b = false) (hedge : EndsApart a ∨ StartsApart b) :
    memberWords (a ++ b) = memberWords a ++ memberWords b :=
  memberWordsFrom_append hb (List.forall_mem_nil _) hedge

/-- A name that is a member is one of the words. -/
theorem mem_memberWords (hname : IsWord name) (h : hasMember text name = true) :
    name ∈ memberWords text := by
  obtain ⟨first, last, rfl, hfirst, hlast, hopens⟩ := (hasMember_iff hname).1 h
  rw [List.append_assoc, memberWords_append (opensMember_append_word hname last) (.inl hfirst),
    memberWords_word hname hlast, hopens]
  exact List.mem_append_right _ (List.mem_append_left _ List.mem_cons_self)

/-- A word that goes on as a member stands in the text. -/
theorem exists_of_mem_memberWordsFrom (hword : ∀ c ∈ word, isWordChar c = true)
    (h : name ∈ memberWordsFrom word text) :
    ∃ first last, word ++ text = first ++ name ++ last ∧ EndsApart first ∧ StartsApart last ∧
      opensMember last = true := by
  induction text generalizing word with
  | nil => cases h
  | cons c text ih =>
      rw [memberWordsFrom] at h
      split at h
      · next hc =>
        obtain ⟨first, last, htext, hedges⟩ :=
          ih (List.forall_mem_append.2 ⟨hword, List.forall_mem_singleton.2 hc⟩) h
        exact ⟨first, last, by rw [← htext, List.append_assoc]; rfl, hedges⟩
      · next hc =>
        have hc : isWordChar c = false := by simpa using hc
        rcases List.mem_append.1 h with h | h
        · split at h
          · next hopens =>
            rw [List.mem_singleton.1 h]
            refine ⟨[], c :: text, rfl, by simp [EndsApart], ?_, (Bool.and_eq_true_iff.1 hopens).2⟩
            rintro d ⟨⟩
            exact hc
          · cases h
        · obtain ⟨first, last, htext, hfirst, hedges⟩ := ih (List.forall_mem_nil _) h
          refine ⟨word ++ c :: first, last, ?_, fun d hd => ?_, hedges⟩
          · rw [List.nil_append] at htext
            simp [htext]
          · rw [List.getLast?_append_of_ne_nil _ (List.cons_ne_nil c first), List.getLast?_cons] at hd
            cases hlast : first.getLast? with
            | none =>
                rw [hlast] at hd
                obtain rfl : c = d := Option.some.inj hd
                exact hc
            | some e =>
                rw [hlast] at hd
                obtain rfl : e = d := Option.some.inj hd
                exact hfirst e hlast

theorem hasMember_iff_mem (hname : IsWord name) :
    hasMember text name = true ↔ name ∈ memberWords text := by
  refine ⟨mem_memberWords hname, fun h => ?_⟩
  obtain ⟨first, last, htext, hedges⟩ := exists_of_mem_memberWordsFrom (List.forall_mem_nil _) h
  exact (hasMember_iff hname).2 ⟨first, last, htext, hedges⟩

/-! ## Accepted words -/

/-- All words of the text that go on as members are accepted. -/
def MentionsOnly (accepts : Text → Prop) (text : Text) : Prop := ∀ word ∈ memberWords text, accepts word

/-- So it is, and no word in front of the text goes on in it as a member. -/
structure Phrase (accepts : Text → Prop) (text : Text) : Prop where
  mentions : MentionsOnly accepts text
  opens : opensMember text = false

variable {accepts : Text → Prop} {parts : List Text} {separator : Text}

/-- A name that is no member is none of the words. -/
theorem mentionsOnly_ne_iff (hname : IsWord name) :
    MentionsOnly (· ≠ name) text ↔ hasMember text name = false := by
  rw [Bool.eq_false_iff, Ne, hasMember_iff_mem hname]
  exact ⟨fun h hmem => h name hmem rfl, fun h word hword heq => h (heq ▸ hword)⟩

namespace MentionsOnly

/-- A character of no word in front of the text. -/
theorem cons (hc : isWordChar c = false) (h : MentionsOnly accepts text) :
    MentionsOnly accepts (c :: text) := by
  rwa [MentionsOnly, memberWords_cons hc]

theorem append (ha : MentionsOnly accepts a) (hb : Phrase accepts b)
    (hedge : EndsApart a ∨ StartsApart b) : MentionsOnly accepts (a ++ b) := by
  rw [MentionsOnly, memberWords_append hb.opens hedge]
  exact List.forall_mem_append.2 ⟨ha, hb.mentions⟩

end MentionsOnly

instance : Decidable (StartsApart text) := Option.decidableForallMem text.head?

instance : Decidable (EndsApart text) := Option.decidableForallMem text.getLast?

theorem StartsApart.append (h : StartsApart a) (hne : a ≠ []) (b : Text) : StartsApart (a ++ b) := by
  obtain ⟨c, rest, rfl⟩ := List.exists_cons_of_ne_nil hne
  exact h

theorem StartsApart.literal {characters : List Char} (h : StartsApart characters) :
    StartsApart (String.ofList characters : Text) := by
  rwa [String.toList_ofList]

theorem EndsApart.literal {characters : List Char} (h : EndsApart characters) :
    EndsApart (String.ofList characters : Text) := by
  rwa [String.toList_ofList]

theorem EndsApart.append (h : EndsApart b) (hne : b ≠ []) (a : Text) : EndsApart (a ++ b) := by
  intro c hc
  rw [List.getLast?_append_of_ne_nil _ hne] at hc
  exact h c hc

namespace Phrase

theorem nil : Phrase accepts [] := ⟨List.forall_mem_nil _, rfl⟩

theorem append (ha : Phrase accepts a) (hb : Phrase accepts b)
    (hedge : EndsApart a ∨ StartsApart b) : Phrase accepts (a ++ b) where
  mentions := ha.mentions.append hb hedge
  opens := by
    by_cases hblank : ∀ c ∈ a, isBlank c = true
    · rw [opensMember_append_of_blank hblank, hb.opens]
    · rw [opensMember_append_of_not_blank (by simpa using hblank), ha.opens]

/-- A name that goes on as a member. -/
theorem member (hname : IsWord name) (haccepts : accepts name) (hc : isWordChar c = false)
    (h : MentionsOnly accepts text) : Phrase accepts (name ++ c :: text) where
  mentions := by
    have hstart : StartsApart (c :: text) := by
      rintro d ⟨⟩
      exact hc
    rw [MentionsOnly, memberWords_word hname hstart, memberWords_cons hc]
    refine List.forall_mem_append.2 ⟨fun word hword => ?_, h⟩
    split at hword
    · rwa [List.mem_singleton.1 hword]
    · cases hword
  opens := opensMember_append_word hname _

/-- Parts between separators that keep words apart. -/
theorem join (hseparator : Phrase accepts separator) (hne : separator ≠ [])
    (hstart : StartsApart separator) (hend : EndsApart separator)
    (hparts : ∀ part ∈ parts, Phrase accepts part) : Phrase accepts (Text.join separator parts) := by
  induction parts with
  | nil => exact nil
  | cons part parts ih =>
      obtain ⟨hpart, hparts⟩ := List.forall_mem_cons.1 hparts
      by_cases hnil : parts = []
      · subst hnil
        exact hpart
      · rw [Text.join_cons part hnil]
        exact (hpart.append hseparator (.inr hstart)).append (ih hparts) (.inl (hend.append hne part))

theorem lines (h : ∀ line ∈ parts, Phrase accepts line) : Phrase accepts (Text.lines parts) := by
  have hstart : ∀ rest : Text, StartsApart ('\n' :: rest) := by
    rintro rest c ⟨⟩
    decide
  have hbreak : Phrase accepts ['\n'] := ⟨List.forall_mem_nil _, rfl⟩
  induction parts with
  | nil => exact nil
  | cons line parts ih =>
      obtain ⟨hline, hparts⟩ := List.forall_mem_cons.1 h
      rw [Text.lines_cons]
      exact hline.append (hbreak.append (ih hparts) (.inl (by decide))) (.inr (hstart _))

end Phrase

end Scaffold
