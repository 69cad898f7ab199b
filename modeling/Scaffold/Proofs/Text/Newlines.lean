import Scaffold.Proofs.Patch.Presence
import Scaffold.Tree.Work

/-!
# Line ends

What reading a text makes of its line ends. A text without carriage returns is read as it is
(`universalNewlines_of_not_mem`), reading is done piece by piece unless a line end is cut in two
(`universalNewlines_append`), and a text keeps its members when it is read
(`hasMember_universalNewlines`).
-/

namespace Scaffold

variable {text a b name : Text} {c : Char}

theorem universalNewlines_cons (h : c ≠ '\r') (rest : Text) :
    universalNewlines (c :: rest) = c :: universalNewlines rest := by
  rw [universalNewlines.eq_def]
  split <;> simp_all

theorem universalNewlines_return (h : ∀ d ∈ b.head?, d ≠ '\n') :
    universalNewlines ('\r' :: b) = '\n' :: universalNewlines b := by
  cases b with
  | nil => simp [universalNewlines]
  | cons d rest =>
      have hd : d ≠ '\n' := h d rfl
      simp [universalNewlines]

theorem universalNewlines_break (rest : Text) :
    universalNewlines ('\r' :: '\n' :: rest) = '\n' :: universalNewlines rest := by
  simp [universalNewlines]

theorem universalNewlines_of_not_mem (h : '\r' ∉ text) : universalNewlines text = text := by
  induction text with
  | nil => rfl
  | cons c rest ih =>
      rw [List.mem_cons, not_or] at h
      rw [universalNewlines_cons (Ne.symm h.1), ih h.2]

/-- A text that does not start with a line end cut in two is read from its first character on. -/
theorem ne_return_of_cases {rest : Text} (hlast : c = '\r' → rest ≠ [])
    (hreturn : ∀ d others, c = '\r' → rest ≠ d :: others) : c ≠ '\r' := by
  intro hc
  cases rest with
  | nil => exact hlast hc rfl
  | cons d others => exact hreturn d others hc rfl

/-- Reading is done piece by piece where the second one does not start with a line feed. -/
theorem universalNewlines_append (a : Text) (h : ∀ c ∈ b.head?, c ≠ '\n') :
    universalNewlines (a ++ b) = universalNewlines a ++ universalNewlines b := by
  induction a using universalNewlines.induct with
  | case1 => rfl
  | case2 => simpa [universalNewlines] using universalNewlines_return h
  | case3 rest ih =>
      rw [List.cons_append, List.cons_append, universalNewlines_break, universalNewlines_break, ih]
      rfl
  | case4 c rest hc ih =>
      have hhead : ∀ others : Text, ∀ d ∈ (c :: others).head?, d ≠ '\n' := by
        rintro others d ⟨⟩
        exact hc
      rw [List.cons_append, List.cons_append, universalNewlines_return (hhead _),
        universalNewlines_return (hhead _), ← List.cons_append, ih]
      rfl
  | case5 c rest hlast _ hreturn ih =>
      have hc := ne_return_of_cases hlast hreturn
      rw [List.cons_append, universalNewlines_cons hc, universalNewlines_cons hc, ih]
      rfl

theorem not_mem_universalNewlines (text : Text) : '\r' ∉ universalNewlines text := by
  induction text using universalNewlines.induct with
  | case1 => simp [universalNewlines]
  | case2 => simp [universalNewlines]
  | case3 rest ih => simpa [universalNewlines] using ih
  | case4 c rest hc ih => simpa [universalNewlines, hc] using ih
  | case5 c rest hlast _ hreturn ih =>
      have hc := ne_return_of_cases hlast hreturn
      rw [universalNewlines_cons hc, List.mem_cons, not_or]
      exact ⟨Ne.symm hc, ih⟩

/-- What is read ends as the text does, line ends apart. -/
theorem universalNewlines_concat (a : Text) (c : Char) :
    ∃ first d, universalNewlines (a ++ [c]) = first ++ [d] ∧ (d = c ∨ d = '\n') := by
  by_cases hc : c = '\n'
  · subst hc
    induction a using universalNewlines.induct with
    | case1 => exact ⟨[], '\n', rfl, .inr rfl⟩
    | case2 => exact ⟨[], '\n', rfl, .inr rfl⟩
    | case3 rest ih =>
        obtain ⟨first, d, heq, hd⟩ := ih
        exact ⟨'\n' :: first, d, by simp [universalNewlines, heq], hd⟩
    | case4 e rest he ih =>
        obtain ⟨first, d, heq, hd⟩ := ih
        refine ⟨'\n' :: first, d, ?_, hd⟩
        rw [List.cons_append, List.cons_append, universalNewlines_return, ← List.cons_append, heq]
        · rfl
        · rintro d ⟨⟩
          exact he
    | case5 e rest hlast _ hreturn ih =>
        obtain ⟨first, d, heq, hd⟩ := ih
        have he := ne_return_of_cases hlast hreturn
        exact ⟨e :: first, d, by rw [List.cons_append, universalNewlines_cons he, heq]; rfl, hd⟩
  · have hhead : ∀ d ∈ [c].head?, d ≠ '\n' := by
      rintro d ⟨⟩
      exact hc
    rw [universalNewlines_append a hhead]
    by_cases hreturn : c = '\r'
    · exact ⟨universalNewlines a, '\n', by rw [hreturn]; rfl, .inr rfl⟩
    · exact ⟨universalNewlines a, c, by rw [universalNewlines_cons hreturn]; rfl, .inl rfl⟩

/-- What has no carriage returns in front of a text is read as it is. -/
theorem universalNewlines_append_of_not_mem (h : '\r' ∉ a) (b : Text) :
    universalNewlines (a ++ b) = a ++ universalNewlines b := by
  induction a with
  | nil => rfl
  | cons c a ih =>
      rw [List.mem_cons, not_or] at h
      rw [List.cons_append, universalNewlines_cons (Ne.symm h.1), ih h.2]
      rfl

/-- A word is read as it is wherever it stands. -/
theorem universalNewlines_word (hname : IsWord name) (a b : Text) :
    universalNewlines (a ++ (name ++ b)) =
      universalNewlines a ++ (name ++ universalNewlines b) := by
  rw [universalNewlines_append, universalNewlines_append_of_not_mem (hname.not_mem (by decide))]
  obtain ⟨c, name, rfl⟩ := List.exists_cons_of_ne_nil hname.ne_nil
  rintro d ⟨⟩ rfl
  exact absurd (hname.word '\n' List.mem_cons_self) (by decide)

theorem endsApart_universalNewlines (h : EndsApart a) : EndsApart (universalNewlines a) := by
  rcases List.eq_nil_or_concat a with rfl | ⟨a, c, rfl⟩
  · exact h
  · rw [List.concat_eq_append] at h ⊢
    obtain ⟨first, d, heq, hd⟩ := universalNewlines_concat a c
    intro e he
    rw [heq] at he
    obtain rfl : d = e := by simpa using he
    rcases hd with rfl | rfl
    · exact h d (by simp)
    · decide

/-- Reading a text keeps whether it starts with a word, and whether it opens a member. -/
theorem opens_universalNewlines (text : Text) :
    (StartsApart text → StartsApart (universalNewlines text)) ∧
      opensMember (universalNewlines text) = opensMember text := by
  have hbreak : ∀ text : Text, StartsApart ('\n' :: text) := by
    rintro text c ⟨⟩
    decide
  have hblank : ∀ (c : Char) (text : Text), isBlank c = true →
      opensMember (c :: text) = opensMember text :=
    fun c text hc => opensMember_append_of_blank (a := [c]) (by simpa using hc)
  induction text using universalNewlines.induct with
  | case1 => exact ⟨id, rfl⟩
  | case2 => exact ⟨fun _ => hbreak [], rfl⟩
  | case3 rest ih =>
      rw [universalNewlines_break, hblank _ _ (by decide), hblank '\r' _ (by decide),
        hblank '\n' _ (by decide)]
      exact ⟨fun _ => hbreak _, ih.2⟩
  | case4 c rest hc ih =>
      rw [universalNewlines_return (by rintro d ⟨⟩; exact hc), hblank _ _ (by decide),
        hblank '\r' _ (by decide)]
      exact ⟨fun _ => hbreak _, ih.2⟩
  | case5 c rest hlast _ hreturn ih =>
      rw [universalNewlines_cons (ne_return_of_cases hlast hreturn)]
      refine ⟨fun h => h, ?_⟩
      by_cases hc : isBlank c = true
      · rw [hblank _ _ hc, hblank _ _ hc, ih.2]
      · simp [opensMember, List.dropWhile_cons_of_neg hc]

/-- A member is still one when the text is read. -/
theorem hasMember_universalNewlines (hname : IsWord name) (h : hasMember text name = true) :
    hasMember (universalNewlines text) name = true := by
  rw [hasMember_iff hname] at h ⊢
  obtain ⟨first, last, rfl, hfirst, hlast, hopens⟩ := h
  obtain ⟨hstarts, hsame⟩ := opens_universalNewlines last
  refine ⟨universalNewlines first, universalNewlines last, ?_, endsApart_universalNewlines hfirst,
    hstarts hlast, hsame.trans hopens⟩
  rw [List.append_assoc, universalNewlines_word hname, List.append_assoc]

/-! ## Marks -/

/-- A mark does not start with a character that it does not have. -/
theorem not_prefix_of_not_mem {mark rest : Text} (h : c ∉ mark) (hne : mark ≠ []) :
    ¬ mark <+: c :: rest := by
  rintro ⟨behind, hbehind⟩
  cases mark with
  | nil => exact hne rfl
  | cons d mark =>
      obtain rfl : d = c := (List.cons_eq_cons.1 hbehind).1
      exact h List.mem_cons_self

theorem prefix_universalNewlines_iff {mark : Text} (hbreak : '\n' ∉ mark) (hreturn : '\r' ∉ mark) :
    mark <+: universalNewlines text ↔ mark <+: text := by
  induction text using universalNewlines.induct generalizing mark with
  | case5 c rest hlast _ hcut ih =>
      rw [universalNewlines_cons (ne_return_of_cases hlast hcut)]
      cases mark with
      | nil => simp
      | cons d mark =>
          rw [List.mem_cons, not_or] at hbreak hreturn
          rw [List.cons_prefix_cons, List.cons_prefix_cons, ih hbreak.2 hreturn.2]
  | case1 => exact Iff.rfl
  | _ =>
      -- a line end is part of the mark neither before nor after it is read
      by_cases hne : mark = []
      · simp [hne]
      · simp [universalNewlines, not_prefix_of_not_mem hbreak hne, not_prefix_of_not_mem hreturn hne, *]

/-- A mark within one line stands in a text that is read where it stands in the text. -/
theorem infix_universalNewlines_iff {mark : Text} (hbreak : '\n' ∉ mark) (hreturn : '\r' ∉ mark) :
    mark <:+: universalNewlines text ↔ mark <:+: text := by
  by_cases hne : mark = []
  · simp [hne]
  have hends : ∀ {rest : Text}, ¬ mark <+: '\n' :: rest ∧ ¬ mark <+: '\r' :: rest :=
    ⟨not_prefix_of_not_mem hbreak hne, not_prefix_of_not_mem hreturn hne⟩
  induction text using universalNewlines.induct with
  | case1 => exact Iff.rfl
  | case2 => simp [universalNewlines, List.infix_cons_iff, hends]
  | case3 rest ih =>
      rw [universalNewlines_break]
      simp only [List.infix_cons_iff, hends, false_or, ih]
  | case4 c rest hc ih =>
      rw [universalNewlines_return (by rintro d ⟨⟩; exact hc), List.infix_cons_iff]
      exact (or_congr (iff_of_false hends.1 hends.2) ih).trans List.infix_cons_iff.symm
  | case5 c rest hlast _ hcut ih =>
      have hcons := universalNewlines_cons (ne_return_of_cases hlast hcut) rest
      have hprefix : mark <+: universalNewlines (c :: rest) ↔ mark <+: c :: rest :=
        prefix_universalNewlines_iff hbreak hreturn
      rw [hcons] at hprefix ⊢
      rw [List.infix_cons_iff, List.infix_cons_iff]
      exact or_congr hprefix ih

end Scaffold
