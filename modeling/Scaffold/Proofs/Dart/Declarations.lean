import Scaffold.Dart.Bloc
import Scaffold.Proofs.Patch.Presence
import Scaffold.Proofs.Text.Lines

/-!
# Declared names

Which names the lines of a generated file declare as methods, events, fields or branches. The names
are read off line by line (`declared_break`). What ends the head of a declaration, a brace or a
semicolon, cuts a text in two whose names can be counted apart (`declared_closing`), and a declared
name is a member of the text (`hasMember_of_declared`).
-/

namespace Scaffold

/-- What a line of a generated file can declare. -/
inductive MemberKind
  | method
  | event
  | field
  | branch
  deriving DecidableEq

/-- The word at the end of a text. -/
def lastWord (text : Text) : Text := (text.reverse.takeWhile isWordChar).reverse

/-- Braces and semicolons end the head of a declaration. -/
def endsHead (c : Char) : Bool := c == '\x7b' || c == '\x7d' || c == ';'

namespace MemberKind

/-- What a line that declares such a member starts with. -/
def lead : MemberKind → Text
  | method => "  Future<"
  | event => "  const factory "
  | field => "    @Default("
  | branch => "        "

/-- What follows the name of such a member. -/
def mark : MemberKind → Text
  | method => "("
  | event => "("
  | field => ","
  | branch => ": ("

/-- The head of the declaration goes up to such a character. -/
def stops (kind : MemberKind) (c : Char) : Bool := kind.mark.head? == some c || endsHead c

/-- The name that a line declares, if any. -/
def declared? (kind : MemberKind) (line : Text) : Option Text := do
  let rest ← Text.after? kind.lead line
  let head := rest.takeWhile fun c => !kind.stops c
  let _ ← Text.after? kind.mark (rest.drop head.length)
  return lastWord head

/-- The names that the lines of a text declare. -/
def declared (kind : MemberKind) (text : Text) : List Text :=
  (text.splitOn '\n').filterMap kind.declared?

variable {kind : MemberKind} {a b line rest text name separator : Text} {c : Char}

/-! ## Lines -/

/-- A line that does not start as a declaration does. -/
theorem declared?_of_no_lead (h : ¬ kind.lead <+: line) : kind.declared? line = none := by
  unfold declared?
  rw [Text.after?_eq_none_iff.2 h]
  rfl

theorem declared?_of_not_mem (hlead : c ∈ kind.lead) (h : c ∉ line) :
    kind.declared? line = none :=
  declared?_of_no_lead fun hpre => h (hpre.subset hlead)

theorem declared?_literal {characters : List Char} (h : kind.declared? characters = none) :
    kind.declared? (String.ofList characters : Text) = none := by
  rwa [String.toList_ofList]

theorem declared?_literal_append {characters : List Char}
    (h : kind.declared? (characters ++ rest) = none) :
    kind.declared? ((String.ofList characters : Text) ++ rest) = none := by
  rwa [String.toList_ofList]

@[simp] theorem declared?_nil (kind : MemberKind) : kind.declared? [] = none := by
  cases kind <;> rfl

@[simp] theorem declared_nil (kind : MemberKind) : kind.declared [] = [] := by
  simp [declared, Text.splitOn]

/-- The names on either side of a line break. -/
theorem declared_break (kind : MemberKind) (a b : Text) :
    kind.declared (a ++ '\n' :: b) = kind.declared a ++ kind.declared b := by
  unfold declared
  rw [Text.splitOn_append_mark, List.filterMap_append]

@[simp] theorem declared_break_cons (kind : MemberKind) (b : Text) :
    kind.declared ('\n' :: b) = kind.declared b := by
  simpa using declared_break kind [] b

theorem declared_append_of_break (h : a.getLast? = some '\n') (b : Text) :
    kind.declared (a ++ b) = kind.declared a ++ kind.declared b := by
  obtain ⟨front, rfl⟩ := List.getLast?_eq_some_iff.1 h
  rw [List.append_assoc, List.singleton_append, declared_break, declared_break, declared_nil,
    List.append_nil]

theorem declared_line (h : '\n' ∉ line) : kind.declared line = (kind.declared? line).toList := by
  unfold declared
  rw [Text.splitOn_of_not_mem h]
  cases hline : kind.declared? line <;> simp [hline]

theorem declared_skip (h : '\n' ∉ line) (hline : kind.declared? line = none) (rest : Text) :
    kind.declared (line ++ '\n' :: rest) = kind.declared rest := by
  rw [declared_break, declared_line h, hline]
  rfl

theorem declared_take (h : '\n' ∉ line) (hline : kind.declared? line = some name) (rest : Text) :
    kind.declared (line ++ '\n' :: rest) = name :: kind.declared rest := by
  rw [declared_break, declared_line h, hline]
  rfl

theorem declared_lines (kind : MemberKind) (lines : List Text) :
    kind.declared (Text.lines lines) = lines.flatMap kind.declared := by
  induction lines with
  | nil => simp
  | cons line lines ih => rw [Text.lines_cons, declared_break, ih, List.flatMap_cons]

/-- Lines that declare nothing. -/
theorem declared_lines_append {lines : List Text}
    (h : ∀ line ∈ lines, '\n' ∉ line ∧ kind.declared? line = none) (rest : Text) :
    kind.declared (Text.lines lines ++ rest) = kind.declared rest := by
  induction lines with
  | nil => rfl
  | cons line lines ih =>
      obtain ⟨hbreak, hline⟩ := h line List.mem_cons_self
      rw [Text.lines_cons, List.append_assoc, List.cons_append, declared_skip hbreak hline,
        ih fun other hother => h other (List.mem_cons_of_mem _ hother)]

theorem declared_join (h : separator = "\n" ∨ separator = "\n\n") (parts : List Text) :
    kind.declared (Text.join separator parts) = parts.flatMap kind.declared := by
  have hsplit : ∀ a b : Text, kind.declared (a ++ separator ++ b) =
      kind.declared a ++ kind.declared b := by
    intro a b
    rw [List.append_assoc]
    rcases h with rfl | rfl
    · exact declared_break kind a b
    · have htwo := declared_break kind a ('\n' :: b)
      rwa [declared_break_cons] at htwo
  induction parts with
  | nil => simp
  | cons part parts ih =>
      by_cases hnil : parts = []
      · subst hnil
        simp
      · rw [Text.join_cons part hnil, hsplit, ih, List.flatMap_cons]

/-- A text none of whose lines starts with two blanks. -/
structure Flush (text : Text) : Prop where
  head : ¬ "  " <+: text
  behind : Text.Avoids "\n  " text

namespace Flush

theorem not_lead (h : Flush line) (kind : MemberKind) : ¬ kind.lead <+: line := by
  have hlead : "  ".toList <+: kind.lead := by
    cases kind <;> exact ⟨_, rfl⟩
  exact fun hpre => h.head (hlead.trans hpre)

/-- Lines that do not start with two blanks declare nothing. -/
theorem declares (h : Flush text) (kind : MemberKind) : kind.declared text = [] := by
  induction hlength : text.length using Nat.strong_induction_on generalizing text with
  | _ length ih =>
    by_cases hbreak : '\n' ∈ text
    · obtain ⟨line, rest, rfl, hline⟩ := List.eq_append_cons_of_mem hbreak
      have hrest : Flush rest := by
        refine ⟨fun hpre => h.behind ?_, h.behind.of_part ⟨line ++ ['\n'], [], by simp⟩⟩
        obtain ⟨more, rfl⟩ := hpre
        exact ⟨line, more, by simp⟩
      have hfirst : ¬ kind.lead <+: line := fun hpre =>
        h.not_lead kind (hpre.trans (List.prefix_append ..))
      rw [declared_skip hline (declared?_of_no_lead hfirst)]
      refine ih rest.length ?_ hrest rfl
      rw [← hlength, List.length_append, List.length_cons]
      omega
    · rw [declared_line hbreak, declared?_of_no_lead (h.not_lead kind)]
      rfl

/-- Blanks come one at a time behind the first line. -/
theorem of_append (hhead : ¬ "  " <+: a ++ b) (ha : '\n' ∉ a) (hb : Text.Avoids "  " b) :
    Flush (a ++ b) := by
  refine ⟨hhead, fun hin => ?_⟩
  obtain ⟨first, last, htext⟩ := hin
  have hbreak : ("\n  " : Text) = '\n' :: "  " := rfl
  rw [hbreak, List.append_assoc, List.cons_append, eq_comm, List.append_eq_append_iff] at htext
  rcases htext with ⟨mid, -, hmid⟩ | ⟨mid, hmid, hrest⟩
  · exact hb ⟨mid ++ ['\n'], last, by rw [hmid]; simp⟩
  · cases mid with
    | nil => exact hb ⟨['\n'], last, by rw [← List.nil_append b, ← hrest]; simp⟩
    | cons c mid =>
        rw [List.cons_append] at hrest
        obtain ⟨rfl, -⟩ := List.cons.inj hrest
        exact ha (by rw [hmid]; simp)

/-- A line that does not start with two blanks. -/
theorem of_line (hhead : ¬ "  " <+: text) (h : '\n' ∉ text) : Flush text :=
  ⟨hhead, Text.avoids_of_not_mem (by decide : '\n' ∈ ("\n  " : Text)) h⟩

end Flush

/-! ## Heads -/

theorem lastWord_append (hc : isWordChar c = false) (hname : ∀ d ∈ name, isWordChar d = true) :
    lastWord (a ++ c :: name) = name := by
  unfold lastWord
  have hreverse : (a ++ c :: name).reverse = name.reverse ++ c :: a.reverse := by simp
  rw [hreverse, List.takeWhile_append_of_pos (by simpa using hname)]
  simp [hc]

theorem lastWord_of_word (hname : ∀ d ∈ name, isWordChar d = true) : lastWord name = name := by
  unfold lastWord
  rw [List.takeWhile_eq_self_iff.2 (by simpa using hname), List.reverse_reverse]

/-- A line with a whole head declares the name at the end of the head. -/
theorem declared?_eq {head : Text} (hhead : ∀ c ∈ head, kind.stops c = false) (rest : Text) :
    kind.declared? (kind.lead ++ (head ++ (kind.mark ++ rest))) = some (lastWord head) := by
  obtain ⟨d, more, hmark⟩ : ∃ d more, kind.mark = d :: more := by
    cases kind <;> exact ⟨_, _, rfl⟩
  have hstop : kind.stops d = true := by simp [stops, hmark]
  have htake : (head ++ (kind.mark ++ rest)).takeWhile (fun c => !kind.stops c) = head := by
    rw [List.takeWhile_append_of_pos (by simpa using hhead), hmark]
    simp [hstop]
  unfold declared?
  rw [Text.after?_append, Option.bind_eq_bind, Option.bind_some, htake]
  simp

/-- A line whose head is not followed by the mark declares nothing. -/
theorem declared?_of_not_mark {head : Text} (hhead : ∀ c ∈ head, kind.stops c = false)
    (hc : kind.stops c = true) (hmark : ¬ kind.mark <+: c :: rest) :
    kind.declared? (kind.lead ++ (head ++ c :: rest)) = none := by
  have htake : (head ++ c :: rest).takeWhile (fun c => !kind.stops c) = head := by
    rw [List.takeWhile_append_of_pos (by simpa using hhead)]
    simp [hc]
  unfold declared?
  rw [Text.after?_append, Option.bind_eq_bind, Option.bind_some, htake]
  simp only [List.drop_left]
  rw [Text.after?_eq_none_iff.2 hmark]
  rfl

/-- What ends a head is not part of a lead or a mark. -/
theorem not_mem_of_endsHead (hc : endsHead c = true) (kind : MemberKind) :
    c ∉ kind.lead ∧ c ∉ kind.mark := by
  have hall : ∀ kind : MemberKind, ∀ d ∈ kind.lead ++ kind.mark, endsHead d = false := by
    intro kind
    cases kind <;> decide
  refine ⟨fun hmem => ?_, fun hmem => ?_⟩
  · rw [hall kind c (List.mem_append_left _ hmem)] at hc
    cases hc
  · rw [hall kind c (List.mem_append_right _ hmem)] at hc
    cases hc

theorem prefix_append_cons_iff {part : Text} (h : c ∉ part) :
    part <+: a ++ c :: rest ↔ part <+: a := by
  refine ⟨fun hpre => ?_, fun hpre => hpre.trans (List.prefix_append ..)⟩
  obtain ⟨more, hmore⟩ := hpre
  rcases List.append_eq_append_iff.1 hmore with ⟨mid, rfl, -⟩ | ⟨mid, rfl, hmid⟩
  · exact List.prefix_append ..
  · cases mid with
    | nil => simp
    | cons d mid =>
        rw [List.cons_append] at hmid
        obtain ⟨rfl, -⟩ := List.cons.inj hmid
        exact absurd (by simp) h

/-- What follows the end of a head in its line does not matter. -/
theorem declared?_closing (hc : endsHead c = true) (line rest : Text) :
    kind.declared? (line ++ c :: rest) = kind.declared? line := by
  obtain ⟨hlead, hmark⟩ := not_mem_of_endsHead hc kind
  have hstop : kind.stops c = true := by simp [stops, hc]
  by_cases hpre : kind.lead <+: line
  · obtain ⟨more, rfl⟩ := hpre
    unfold declared?
    rw [List.append_assoc, Text.after?_append, Text.after?_append]
    simp only [Option.bind_eq_bind, Option.bind_some]
    have htake : (more ++ c :: rest).takeWhile (fun c => !kind.stops c) =
        more.takeWhile fun c => !kind.stops c := by
      rw [List.takeWhile_append]
      split
      · next hall =>
        rw [(List.takeWhile_prefix _).eq_of_length hall]
        simp [hstop]
      · rfl
    have hle : (more.takeWhile fun c => !kind.stops c).length ≤ more.length :=
      (List.takeWhile_prefix _).length_le
    rw [htake, List.drop_append_of_le_length hle]
    generalize more.drop _ = behind
    by_cases hbehind : kind.mark <+: behind
    · obtain ⟨last, rfl⟩ := hbehind
      rw [List.append_assoc, Text.after?_append, Text.after?_append]
      rfl
    · rw [Text.after?_eq_none_iff.2 hbehind,
        Text.after?_eq_none_iff.2 (mt (prefix_append_cons_iff hmark).1 hbehind)]
  · rw [declared?_of_no_lead hpre,
      declared?_of_no_lead (mt (prefix_append_cons_iff hlead).1 hpre)]

/-- The end of a head cuts a text in two: what follows it counts from the next line on. -/
theorem declared_closing (hc : endsHead c = true) (a b : Text) :
    kind.declared (a ++ c :: b) =
      kind.declared a ++ kind.declared (b.dropWhile (· != '\n')) := by
  have hbreak : c ≠ '\n' := by
    rintro rfl
    exact absurd hc (by decide)
  obtain ⟨first, last, pieces, pieces', ha, hb, hab⟩ := Text.splitOn_append '\n' a (c :: b)
  have hline := List.takeWhile_append_dropWhile (p := fun d => d != '\n') (l := b)
  have hnotin : '\n' ∉ b.takeWhile (· != '\n') := fun hmem => by
    simpa using List.mem_takeWhile_imp hmem
  generalize b.takeWhile (· != '\n') = line at hline hnotin
  have hcline : '\n' ∉ c :: line := by simp [hbreak.symm, hnotin]
  have hrest : ∀ rest : Text, b = line ++ rest → (rest = [] ∨ ∃ more, rest = '\n' :: more) →
      kind.declared (a ++ c :: b) = kind.declared a ++ kind.declared rest := by
    rintro rest rfl (rfl | ⟨more, rfl⟩)
    · rw [List.append_nil] at hb hab ⊢
      rw [Text.splitOn_of_not_mem hcline] at hb
      obtain ⟨rfl, rfl⟩ := List.cons.inj hb
      unfold declared
      rw [hab, ha, List.filterMap_append, List.filterMap_append, List.filterMap_cons,
        List.filterMap_cons, declared?_closing hc]
      simp [Text.splitOn]
    · have hsplit : (c :: (line ++ '\n' :: more) : Text) = (c :: line) ++ '\n' :: more := rfl
      rw [hsplit, Text.splitOn_append_mark, Text.splitOn_of_not_mem hcline] at hb
      obtain ⟨rfl, rfl⟩ := List.cons.inj hb
      rw [declared_break_cons]
      unfold declared
      rw [hab, ha, List.filterMap_append, List.filterMap_append, List.filterMap_cons,
        List.filterMap_cons, declared?_closing hc]
      cases kind.declared? last <;> simp
  refine hrest _ hline.symm ?_
  cases hdrop : b.dropWhile (· != '\n') with
  | nil => exact .inl rfl
  | cons d more =>
      have hd := List.head_dropWhile_not (fun d => d != '\n') (l := b) (by simp [hdrop])
      simp only [hdrop, List.head_cons, bne_eq_false_iff_eq] at hd
      exact .inr ⟨more, by rw [hd]⟩

/-! ## Members -/

/-- The last word of a text, and what is in front of it. -/
theorem exists_lastWord (text : Text) : ∃ front, text = front ++ lastWord text ∧ EndsApart front := by
  refine ⟨(text.reverse.dropWhile isWordChar).reverse, ?_, fun c hc => ?_⟩
  · rw [lastWord, ← List.reverse_append, List.takeWhile_append_dropWhile, List.reverse_reverse]
  · rw [List.getLast?_reverse] at hc
    obtain ⟨rest, hrest⟩ := List.head?_eq_some_iff.1 hc
    have hhead := List.head_dropWhile_not isWordChar (l := text.reverse) (by simp [hrest])
    simpa [hrest] using hhead

/-- A declared name is a member of the text. -/
theorem hasMember_of_declared (hname : IsWord name) (h : name ∈ kind.declared text) :
    hasMember text name = true := by
  obtain ⟨line, hline, hdeclared⟩ := List.mem_filterMap.1 h
  obtain ⟨before, behind, rfl⟩ := Text.infix_of_mem_splitOn hline
  unfold declared? at hdeclared
  simp only [Option.bind_eq_bind, Option.bind_eq_some_iff] at hdeclared
  obtain ⟨rest, hlead, last, hmark, hlast⟩ := hdeclared
  rw [Text.after?_eq_some_iff] at hlead hmark
  generalize hhead : rest.takeWhile (fun c => !kind.stops c) = head at hmark hlast
  obtain rfl : lastWord head = name := Option.some.inj hlast
  have hrest : rest = head ++ (kind.mark ++ last) := by
    rw [← hmark, ← hhead]
    exact (List.prefix_iff_eq_append.1 (List.takeWhile_prefix _)).symm
  obtain ⟨front, hfront, hapart⟩ := exists_lastWord head
  have hleadApart : EndsApart kind.lead := by
    cases kind <;>
    · rintro c ⟨⟩
      decide
  refine (hasMember_iff hname).2
    ⟨before ++ kind.lead ++ front, kind.mark ++ last ++ behind, ?_, ?_, ?_, ?_⟩
  · rw [hlead, hrest]
    generalize lastWord head = name at hfront
    rw [hfront]
    simp only [List.append_assoc]
  · intro c hc
    by_cases hnil : front = []
    · rw [hnil, List.append_nil, List.getLast?_append_of_ne_nil] at hc
      · exact hleadApart c hc
      · cases kind <;> decide
    · rw [List.getLast?_append_of_ne_nil _ hnil] at hc
      exact hapart c hc
  · cases kind <;> rintro c ⟨⟩ <;> decide
  · cases kind <;> rfl

end MemberKind

end Scaffold
