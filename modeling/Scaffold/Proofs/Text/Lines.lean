import Scaffold.Proofs.Text.Search

/-!
# Pieces and rows of pieces

How the pieces between the places of a mark change when texts are put together
(`splitOn_append_mark`), and how rows of parts are rendered one after the other (`join_append`).
-/

namespace Scaffold.Text

variable {mark : Char} {a b text : Text} {separator : Text} {parts others : List Text}

theorem splitOn_ne_nil (mark : Char) (text : Text) : splitOn mark text ≠ [] := by
  cases text with
  | nil => simp [splitOn]
  | cons c rest =>
      rw [splitOn]
      split
      · simp
      · split <;> simp

theorem splitOn_of_not_mem (h : mark ∉ text) : splitOn mark text = [text] := by
  induction text with
  | nil => rfl
  | cons c rest ih =>
      simp only [List.mem_cons, not_or] at h
      simp [splitOn, Ne.symm h.1, ih h.2]

/-- No piece has the mark. -/
theorem not_mem_of_mem_splitOn {piece : Text} (h : piece ∈ splitOn mark text) : mark ∉ piece := by
  induction text generalizing piece with
  | nil =>
      rw [List.mem_singleton.1 h]
      exact List.not_mem_nil
  | cons c rest ih =>
      rw [splitOn] at h
      split at h
      · rcases List.mem_cons.1 h with rfl | h
        · exact List.not_mem_nil
        · exact ih h
      · next hc =>
        split at h
        · rw [List.mem_singleton.1 h, List.mem_singleton]
          exact Ne.symm hc
        · next first others hsplit =>
          rcases List.mem_cons.1 h with rfl | h
          · have hfirst : mark ∉ first := ih (by rw [hsplit]; exact List.mem_cons_self)
            exact List.not_mem_cons_of_ne_of_not_mem (Ne.symm hc) hfirst
          · exact ih (by rw [hsplit]; exact List.mem_cons_of_mem _ h)

/-- A mark between two texts separates their pieces. -/
theorem splitOn_append_mark (mark : Char) (a b : Text) :
    splitOn mark (a ++ mark :: b) = splitOn mark a ++ splitOn mark b := by
  induction a with
  | nil => simp [splitOn]
  | cons c a ih =>
      by_cases hc : c = mark
      · simp [splitOn, hc, ih]
      · cases hsplit : splitOn mark a with
        | nil => exact absurd hsplit (splitOn_ne_nil mark a)
        | cons piece pieces => simp [splitOn, hc, ih, hsplit]

/-- Texts that stand side by side share the piece at their joint. -/
theorem splitOn_append (mark : Char) (a b : Text) :
    ∃ first last pieces pieces', splitOn mark a = pieces ++ [last] ∧
      splitOn mark b = first :: pieces' ∧
      splitOn mark (a ++ b) = pieces ++ (last ++ first) :: pieces' := by
  obtain ⟨first, pieces', hb⟩ := List.exists_cons_of_ne_nil (splitOn_ne_nil mark b)
  induction a with
  | nil => exact ⟨first, [], [], pieces', rfl, hb, by simpa using hb⟩
  | cons c a ih =>
      obtain ⟨first', last, pieces, pieces'', ha, hb', hab⟩ := ih
      obtain ⟨rfl, rfl⟩ := List.cons.inj (hb.symm.trans hb')
      by_cases hc : c = mark
      · exact ⟨first, last, [] :: pieces, pieces', by simp [splitOn, hc, ha], hb,
          by simp [splitOn, hc, hab]⟩
      · cases pieces with
        | nil =>
            exact ⟨first, c :: last, [], pieces', by simp [splitOn, hc, ha], hb,
              by simp [splitOn, hc, hab]⟩
        | cons piece pieces =>
            exact ⟨first, last, (c :: piece) :: pieces, pieces', by simp [splitOn, hc, ha], hb,
              by simp [splitOn, hc, hab]⟩

/-- Each piece stands in the text, the first one at its start. -/
theorem splitOn_pieces {first : Text} {pieces : List Text} (h : splitOn mark text = first :: pieces) :
    first <+: text ∧ ∀ piece ∈ pieces, piece <:+: text := by
  induction text generalizing first pieces with
  | nil =>
      obtain ⟨rfl, rfl⟩ := List.cons.inj h
      exact ⟨List.nil_prefix .., List.forall_mem_nil _⟩
  | cons c text ih =>
      obtain ⟨next, others, hsplit⟩ := List.exists_cons_of_ne_nil (splitOn_ne_nil mark text)
      obtain ⟨hnext, hothers⟩ := ih hsplit
      have hbehind : text <:+: c :: text := (List.suffix_cons c text).isInfix
      rw [splitOn, hsplit] at h
      split at h
      · obtain ⟨rfl, rfl⟩ := List.cons.inj h
        exact ⟨List.nil_prefix .., List.forall_mem_cons.2 ⟨hnext.isInfix.trans hbehind,
          fun piece hpiece => (hothers piece hpiece).trans hbehind⟩⟩
      · obtain ⟨rfl, rfl⟩ := List.cons.inj h
        exact ⟨(List.prefix_cons_inj c).2 hnext,
          fun piece hpiece => (hothers piece hpiece).trans hbehind⟩

theorem infix_of_mem_splitOn {piece : Text} (h : piece ∈ splitOn mark text) : piece <:+: text := by
  obtain ⟨first, pieces, hsplit⟩ := List.exists_cons_of_ne_nil (splitOn_ne_nil mark text)
  obtain ⟨hfirst, hpieces⟩ := splitOn_pieces hsplit
  rw [hsplit] at h
  rcases List.mem_cons.1 h with rfl | h
  · exact hfirst.isInfix
  · exact hpieces piece h

/-! ## Rows of parts -/

@[simp] theorem join_nil (separator : Text) : join separator [] = [] := rfl

@[simp] theorem join_singleton (separator part : Text) : join separator [part] = part := rfl

theorem join_cons (part : Text) (h : parts ≠ []) :
    join separator (part :: parts) = part ++ separator ++ join separator parts := by
  obtain ⟨next, rest, rfl⟩ := List.exists_cons_of_ne_nil h
  rfl

/-- Two rows one after the other. -/
theorem join_append (hparts : parts ≠ []) (hothers : others ≠ []) :
    join separator (parts ++ others) =
      join separator parts ++ separator ++ join separator others := by
  induction parts with
  | nil => exact absurd rfl hparts
  | cons part parts ih =>
      by_cases hnil : parts = []
      · subst hnil
        simpa using join_cons part hothers
      · rw [List.cons_append, join_cons part (by simp [hnil]), ih hnil, join_cons part hnil]
        simp only [List.append_assoc]

/-- Each part of a row stands in it. -/
theorem infix_join {part : Text} (h : part ∈ parts) : part <:+: join separator parts := by
  induction parts with
  | nil => simp at h
  | cons first parts ih =>
      by_cases hnil : parts = []
      · subst hnil
        simp [List.mem_singleton.1 h]
      · rw [join_cons first hnil]
        rcases List.mem_cons.1 h with rfl | h
        · exact ⟨[], separator ++ join separator parts, by simp⟩
        · exact (ih h).trans ⟨first ++ separator, [], by simp⟩

theorem mem_join {c : Char} (h : c ∈ join separator parts) :
    c ∈ separator ∨ ∃ part ∈ parts, c ∈ part := by
  induction parts with
  | nil => simp at h
  | cons first parts ih =>
      by_cases hnil : parts = []
      · subst hnil
        exact .inr ⟨first, by simp, by simpa using h⟩
      · rw [join_cons first hnil, List.mem_append, List.mem_append] at h
        rcases h with (h | h) | h
        · exact .inr ⟨first, by simp, h⟩
        · exact .inl h
        · rcases ih h with h | ⟨part, hpart, h⟩
          · exact .inl h
          · exact .inr ⟨part, by simp [hpart], h⟩

/-- A row is cut into its parts again. -/
theorem splitOn_join (hparts : parts ≠ []) (h : ∀ part ∈ parts, mark ∉ part) :
    splitOn mark (join [mark] parts) = parts := by
  induction parts with
  | nil => exact absurd rfl hparts
  | cons first parts ih =>
      have hfirst := splitOn_of_not_mem (h first List.mem_cons_self)
      by_cases hnil : parts = []
      · subst hnil
        exact hfirst
      · have hrest := ih hnil fun part hpart => h part (List.mem_cons_of_mem _ hpart)
        calc splitOn mark (join [mark] (first :: parts))
            = splitOn mark (first ++ mark :: join [mark] parts) := by
              rw [join_cons first hnil, List.append_assoc, List.singleton_append]
          _ = first :: parts := by rw [splitOn_append_mark, hfirst, hrest, List.singleton_append]

@[simp] theorem lines_nil : lines [] = [] := rfl

@[simp] theorem lines_cons (line : Text) (rest : List Text) :
    lines (line :: rest) = line ++ '\n' :: lines rest := by
  simp [lines]

theorem lines_append (first second : List Text) :
    lines (first ++ second) = lines first ++ lines second := by
  simp [lines]

theorem infix_lines {part : Text} (h : part ∈ parts) : part <:+: lines parts := by
  have hin : part ++ ['\n'] <:+: lines parts := by
    obtain ⟨front, last, rfl⟩ := List.append_of_mem h
    exact ⟨lines front, lines last, by simp [lines]⟩
  exact List.IsInfix.trans ⟨[], ['\n'], rfl⟩ hin

/-- A mark within one line stands in lines only if it stands in one of them. -/
theorem Avoids.lines {part : Text} (hmark : part ≠ []) (hbreak : '\n' ∉ part)
    (h : ∀ line ∈ parts, Avoids part line) : Avoids part (lines parts) := by
  induction parts with
  | nil => exact fun hin => hmark (List.eq_nil_of_infix_nil hin)
  | cons line parts ih =>
      have hrest := ih fun other hother => h other (List.mem_cons_of_mem _ hother)
      have hline : Avoids part (line ++ ['\n']) := by
        refine (h line List.mem_cons_self).append_of_head ?_ (by simpa using hbreak)
        intro hin
        obtain hnil | hone := (List.infix_singleton_iff part '\n').1 hin
        · exact hmark hnil
        · exact hbreak (by simp [hone])
      rw [lines_cons, List.append_cons]
      exact hline.append_of_last hrest (by simpa using hbreak)

theorem getLast?_lines (h : parts ≠ []) : (lines parts).getLast? = some '\n' := by
  obtain ⟨front, last, rfl⟩ := List.eq_nil_or_concat' parts |>.resolve_left h
  rw [lines_append, lines_cons, lines_nil, ← List.append_assoc]
  exact List.getLast?_concat ..

/-- The lines with breaks between them, and a last break. -/
theorem lines_eq_join (h : parts ≠ []) : lines parts = join "\n" parts ++ ['\n'] := by
  induction parts with
  | nil => exact absurd rfl h
  | cons part parts ih =>
      by_cases hnil : parts = []
      · subst hnil
        simp
      · rw [lines_cons, join_cons part hnil, ih hnil]
        simp

end Scaffold.Text
