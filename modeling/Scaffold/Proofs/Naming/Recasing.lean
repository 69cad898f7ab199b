import Scaffold.Proofs.Naming.Words

/-!
# Recasing

What the conversions of letter case do to the characters of a name. No conversion makes a separator
(`isSeparator_of_mem_pascal`, `isSeparator_of_mem_camel`), so a name that has none is one word
(`pascal_of_solid`). No text in Pascal case starts with a small ASCII letter
(`not_small_of_head?_pascal`); where none does, a name is found again in its small letters
(`snake_inj`).
-/

namespace Scaffold

variable {a b text : Text} {c d : Char}

/-- Small ASCII letters. -/
def isSmall (c : Char) : Bool := 'a' ≤ c && c ≤ 'z'

/-- ASCII capitals. -/
def isCapital (c : Char) : Bool := 'A' ≤ c && c ≤ 'Z'

theorem isSmall_iff : isSmall c = true ↔ 0x61 ≤ c.toNat ∧ c.toNat ≤ 0x7a := by
  rw [isSmall, Bool.and_eq_true, decide_eq_true_eq, decide_eq_true_eq]
  exact Iff.rfl

theorem isCapital_iff : isCapital c = true ↔ 0x41 ≤ c.toNat ∧ c.toNat ≤ 0x5a := by
  rw [isCapital, Bool.and_eq_true, decide_eq_true_eq, decide_eq_true_eq]
  exact Iff.rfl

/-! ## Single characters -/

theorem upperChar_of_small (h : isSmall c = true) : upperChar c = [Char.ofNat (c.toNat - 32)] := by
  have hrange := isSmall_iff.1 h
  rw [upperChar, if_pos (by omega)]
  exact if_pos h

theorem upperChar_of_ascii (hascii : c.toNat < 0x80) (h : isSmall c = false) : upperChar c = [c] := by
  rw [upperChar, if_pos hascii]
  exact if_neg (Bool.eq_false_iff.1 h)

theorem lowerChar_of_capital (h : isCapital c = true) :
    lowerChar c = [Char.ofNat (c.toNat + 32)] := by
  have hrange := isCapital_iff.1 h
  rw [lowerChar, if_pos (by omega)]
  exact if_pos h

theorem lowerChar_of_ascii (hascii : c.toNat < 0x80) (h : isCapital c = false) :
    lowerChar c = [c] := by
  rw [lowerChar, if_pos hascii]
  exact if_neg (Bool.eq_false_iff.1 h)

theorem toNat_upper (h : isSmall c = true) : (Char.ofNat (c.toNat - 32)).toNat = c.toNat - 32 := by
  have hrange := isSmall_iff.1 h
  exact toNat_ofNat (.inl (by omega))

theorem toNat_lower (h : isCapital c = true) :
    (Char.ofNat (c.toNat + 32)).toNat = c.toNat + 32 := by
  have hrange := isCapital_iff.1 h
  exact toNat_ofNat (.inl (by omega))

/-- The upper-case form of an ASCII character is one ASCII character, no small letter. -/
theorem exists_upperChar_ascii (hascii : c.toNat < 0x80) :
    ∃ d, upperChar c = [d] ∧ d.toNat < 0x80 ∧ isSmall d = false := by
  cases hsmall : isSmall c with
  | true =>
      have hrange := isSmall_iff.1 hsmall
      have hnat := toNat_upper hsmall
      refine ⟨_, upperChar_of_small hsmall, by omega, Bool.eq_false_iff.2 fun h => ?_⟩
      have hrange' := isSmall_iff.1 h
      omega
  | false => exact ⟨c, upperChar_of_ascii hascii hsmall, hascii, hsmall⟩

/-- The lower-case form of an ASCII character is one ASCII character, no capital. -/
theorem exists_lowerChar_ascii (hascii : c.toNat < 0x80) :
    ∃ d, lowerChar c = [d] ∧ d.toNat < 0x80 ∧ isCapital d = false := by
  cases hcapital : isCapital c with
  | true =>
      have hrange := isCapital_iff.1 hcapital
      have hnat := toNat_lower hcapital
      refine ⟨_, lowerChar_of_capital hcapital, by omega, Bool.eq_false_iff.2 fun h => ?_⟩
      have hrange' := isCapital_iff.1 h
      omega
  | false => exact ⟨c, lowerChar_of_ascii hascii hcapital, hascii, hcapital⟩

/-- ASCII characters that are no capitals differ in upper case. -/
theorem upperChar_inj (hc : c.toNat < 0x80) (hd : d.toNat < 0x80) (hc' : isCapital c = false)
    (hd' : isCapital d = false) (h : upperChar c = upperChar d) : c = d := by
  have hcapital : ∀ {e : Char}, isSmall e = true → isCapital (Char.ofNat (e.toNat - 32)) = true := by
    intro e he
    have hrange := isSmall_iff.1 he
    rw [isCapital_iff, toNat_upper he]
    omega
  cases hcs : isSmall c with
  | true =>
      cases hds : isSmall d with
      | true =>
          rw [upperChar_of_small hcs, upperChar_of_small hds] at h
          have hnat := congrArg Char.toNat (List.cons.inj h).1
          rw [toNat_upper hcs, toNat_upper hds] at hnat
          have hc := isSmall_iff.1 hcs
          have hd := isSmall_iff.1 hds
          exact Char.toNat_inj.1 (by omega)
      | false =>
          rw [upperChar_of_small hcs, upperChar_of_ascii hd hds] at h
          rw [← (List.cons.inj h).1, hcapital hcs] at hd'
          cases hd'
  | false =>
      cases hds : isSmall d with
      | true =>
          rw [upperChar_of_ascii hc hcs, upperChar_of_small hds] at h
          rw [(List.cons.inj h).1, hcapital hds] at hc'
          cases hc'
      | false =>
          rw [upperChar_of_ascii hc hcs, upperChar_of_ascii hd hds] at h
          exact (List.cons.inj h).1

/-- The upper-case form of a character is the character itself, that of a small ASCII letter, or
stands in the tables. -/
theorem upperChar_cases (c : Char) :
    upperChar c = [c] ∧ isSmall c = false ∨
      isSmall c = true ∧ upperChar c = [Char.ofNat (c.toNat - 32)] ∨
      (∃ entry ∈ upperExpansions, upperChar c = entry.2.map Char.ofNat) ∨
      ∃ run ∈ upperRuns, ∃ k ≤ run.last - run.first, k % run.step = 0 ∧
        upperChar c = [Char.ofNat (run.target + k)] := by
  cases hsmall : isSmall c with
  | true => exact .inr (.inl ⟨rfl, upperChar_of_small hsmall⟩)
  | false =>
      by_cases hascii : c.toNat < 0x80
      · exact .inl ⟨upperChar_of_ascii hascii hsmall, rfl⟩
      · rw [upperChar, if_neg hascii]
        cases hlookup : upperExpansions.lookup c.toNat with
        | some codes =>
            obtain ⟨first, last, heq, -⟩ := List.lookup_eq_some_iff.1 hlookup
            exact .inr (.inr (.inl ⟨(c.toNat, codes), by simp [heq], rfl⟩))
        | none =>
            cases himage : upperRuns.findSome? (·.image? c.toNat) with
            | none => exact .inl ⟨rfl, rfl⟩
            | some n =>
                obtain ⟨run, hrun, hn⟩ := List.exists_of_findSome?_eq_some himage
                rw [CaseRun.image?] at hn
                split at hn
                · next hin =>
                  simp only [Bool.and_eq_true, decide_eq_true_eq, beq_iff_eq] at hin
                  obtain rfl := Option.some.inj hn
                  exact .inr (.inr (.inr ⟨run, hrun, c.toNat - run.first, by omega, hin.2, rfl⟩))
                · cases hn

/-- The lower-case form of a character is the character itself, that of an ASCII capital, of the
capital with a dot, or stands in the table. -/
theorem lowerChar_cases (c : Char) :
    lowerChar c = [c] ∧ isCapital c = false ∨
      isCapital c = true ∧ lowerChar c = [Char.ofNat (c.toNat + 32)] ∨
      lowerChar c = [Char.ofNat 0x69, Char.ofNat 0x307] ∨
      ∃ run ∈ lowerRuns, ∃ k ≤ run.last - run.first,
        lowerChar c = [Char.ofNat (run.target + k)] := by
  cases hcapital : isCapital c with
  | true => exact .inr (.inl ⟨rfl, lowerChar_of_capital hcapital⟩)
  | false =>
      by_cases hascii : c.toNat < 0x80
      · exact .inl ⟨lowerChar_of_ascii hascii hcapital, rfl⟩
      · rw [lowerChar, if_neg hascii]
        split
        · exact .inr (.inr (.inl rfl))
        · cases himage : lowerRuns.findSome? (·.image? c.toNat) with
          | none => exact .inl ⟨rfl, rfl⟩
          | some n =>
              obtain ⟨run, hrun, hn⟩ := List.exists_of_findSome?_eq_some himage
              rw [CaseRun.image?] at hn
              split at hn
              · next hin =>
                simp only [Bool.and_eq_true, decide_eq_true_eq] at hin
                obtain rfl := Option.some.inj hn
                exact .inr (.inr (.inr ⟨run, hrun, c.toNat - run.first, by omega, rfl⟩))
              · cases hn

theorem upperExpansions_solid :
    ∀ entry ∈ upperExpansions, entry.2 ≠ [] ∧
      ∀ n ∈ entry.2, isSeparator (Char.ofNat n) = false ∧ isSmall (Char.ofNat n) = false := by
  decide +kernel

/-- A letter, or a character behind the ASCII letters that lies between blanks, is no separator. -/
theorem isSeparator_of_between {first last : Nat} (h : betweenBlanks first last = true)
    (hfirst : first ≤ c.toNat) (hlast : c.toNat ≤ last)
    (hc : 0x41 ≤ c.toNat ∧ c.toNat ≤ 0x5a ∨ 0x61 ≤ c.toNat) : isSeparator c = false := by
  have hdash : c ≠ '-' := fun heq => by subst heq; revert hc; decide
  have hline : c ≠ '_' := fun heq => by subst heq; revert hc; decide
  simp [isSeparator, hdash, hline, isBlank_of_betweenBlanks h hfirst hlast]

theorem isSeparator_of_letter (h : 0x41 ≤ c.toNat ∧ c.toNat ≤ 0x5a ∨ 0x61 ≤ c.toNat ∧ c.toNat ≤ 0x7a) :
    isSeparator c = false :=
  isSeparator_of_between (show betweenBlanks 0x41 0x7a = true by decide) (by omega) (by omega)
    (by omega)

/-- The targets of a run have no blanks among them. -/
def CaseRun.solid (run : CaseRun) : Bool :=
  betweenBlanks run.target (run.target + (run.last - run.first))

theorem upperRuns_all_solid : upperRuns.all (·.solid) = true := by decide +kernel

theorem lowerRuns_all_solid : lowerRuns.all (·.solid) = true := by decide +kernel

theorem upperRuns_solid {run : CaseRun} (hrun : run ∈ upperRuns) {k : Nat}
    (hk : k ≤ run.last - run.first) :
    isSeparator (Char.ofNat (run.target + k)) = false ∧
      isSmall (Char.ofNat (run.target + k)) = false := by
  have hrange := upperRuns_range run hrun
  have hnat : (Char.ofNat (run.target + k)).toNat = run.target + k :=
    toNat_ofNat (by rw [Nat.isValidChar]; omega)
  refine ⟨isSeparator_of_between (List.all_eq_true.1 upperRuns_all_solid run hrun) (by omega)
    (by omega) (by omega), Bool.eq_false_iff.2 fun hsmall => ?_⟩
  have hsmall := isSmall_iff.1 hsmall
  omega

theorem lowerRuns_solid {run : CaseRun} (hrun : run ∈ lowerRuns) {k : Nat}
    (hk : k ≤ run.last - run.first) : isSeparator (Char.ofNat (run.target + k)) = false := by
  have hrange := lowerRuns_range run hrun
  have hnat : (Char.ofNat (run.target + k)).toNat = run.target + k :=
    toNat_ofNat (by rw [Nat.isValidChar]; omega)
  exact isSeparator_of_between (List.all_eq_true.1 lowerRuns_all_solid run hrun) (by omega)
    (by omega) (by omega)

/-- The upper-case form of what is no separator has none. -/
theorem isSeparator_of_mem_upperChar (hc : isSeparator c = false) (h : d ∈ upperChar c) :
    isSeparator d = false := by
  rcases upperChar_cases c with ⟨heq, -⟩ | ⟨hsmall, heq⟩ | ⟨entry, hentry, heq⟩ |
    ⟨run, hrun, k, hk, -, heq⟩
  · rw [heq] at h
    rwa [List.mem_singleton.1 h]
  · rw [heq] at h
    have hnat := toNat_upper hsmall
    have hrange := isSmall_iff.1 hsmall
    rw [← List.mem_singleton.1 h] at hnat
    exact isSeparator_of_letter (by omega)
  · rw [heq] at h
    obtain ⟨n, hn, rfl⟩ := List.mem_map.1 h
    exact ((upperExpansions_solid entry hentry).2 n hn).1
  · rw [heq] at h
    rw [List.mem_singleton.1 h]
    exact (upperRuns_solid hrun hk).1

/-- The lower-case form of what is no separator has none. -/
theorem isSeparator_of_mem_lowerChar (hc : isSeparator c = false) (h : d ∈ lowerChar c) :
    isSeparator d = false := by
  rcases lowerChar_cases c with ⟨heq, -⟩ | ⟨hcapital, heq⟩ | heq | ⟨run, hrun, k, hk, heq⟩
  · rw [heq] at h
    rwa [List.mem_singleton.1 h]
  · rw [heq] at h
    have hnat := toNat_lower hcapital
    have hrange := isCapital_iff.1 hcapital
    rw [← List.mem_singleton.1 h] at hnat
    exact isSeparator_of_letter (by omega)
  · rw [heq] at h
    revert d
    decide
  · rw [heq] at h
    rw [List.mem_singleton.1 h]
    exact lowerRuns_solid hrun hk

/-- The upper-case form of a character is not empty and does not start with a small ASCII
letter. -/
theorem upperChar_eq_cons (c : Char) : ∃ d rest, upperChar c = d :: rest ∧ isSmall d = false := by
  rcases upperChar_cases c with ⟨heq, hsmall⟩ | ⟨hsmall, heq⟩ | ⟨entry, hentry, heq⟩ |
    ⟨run, hrun, k, hk, -, heq⟩
  · exact ⟨c, [], heq, hsmall⟩
  · have hnat := toNat_upper hsmall
    have hrange := isSmall_iff.1 hsmall
    refine ⟨_, [], heq, Bool.eq_false_iff.2 fun hsmall' => ?_⟩
    have hrange' := isSmall_iff.1 hsmall'
    omega
  · obtain ⟨hne, hsolid⟩ := upperExpansions_solid entry hentry
    obtain ⟨n, rest, hcodes⟩ := List.exists_cons_of_ne_nil hne
    refine ⟨Char.ofNat n, rest.map Char.ofNat, by rw [heq, hcodes, List.map_cons], ?_⟩
    exact (hsolid n (by simp [hcodes])).2
  · exact ⟨_, [], heq, (upperRuns_solid hrun hk).2⟩

/-! ## Words -/

/-- A text without separators. -/
def Solid (text : Text) : Prop := ∀ c ∈ text, isSeparator c = false

instance : Decidable (Solid text) := inferInstanceAs (Decidable (∀ c ∈ text, _))

theorem Solid.append (ha : Solid a) (hb : Solid b) : Solid (a ++ b) := fun c hc =>
  (List.mem_append.1 hc).elim (ha c) (hb c)

theorem Solid.noUnderscore (h : Solid text) : '_' ∉ text := fun hmem =>
  absurd (h '_' hmem) (by decide)

namespace Text

theorem ne_nil_of_mem_words {word : Text} (h : word ∈ text.words) : word ≠ [] := by
  fun_induction words text generalizing word with
  | case1 => simp at h
  | case2 c hsep => simp at h
  | case3 c hsep => simp [List.mem_singleton.1 h]
  | case4 c next rest hsep ih => exact ih h
  | case5 c next rest hsep hnext ih =>
      rcases List.mem_cons.1 h with rfl | h
      · simp
      · exact ih h
  | case6 c next rest hsep hnext hnil ih => simp [List.mem_singleton.1 h]
  | case7 c next rest hsep hnext first others hcons ih =>
      rcases List.mem_cons.1 h with rfl | h
      · simp
      · exact ih (hcons ▸ List.mem_cons_of_mem _ h)

/-- A text without separators is one word. -/
theorem words_of_solid (h : Solid text) (hne : text ≠ []) : text.words = [text] := by
  fun_induction words text with
  | case1 => exact absurd rfl hne
  | case2 c hsep => simp [h c (by simp)] at hsep
  | case3 c hsep => rfl
  | case4 c next rest hsep ih => simp [h c (by simp)] at hsep
  | case5 c next rest hsep hnext ih => simp [h next (by simp)] at hnext
  | case6 c next rest hsep hnext hnil ih =>
      have hone := ih (fun d hd => h d (List.mem_cons_of_mem _ hd)) (by simp)
      simp [hone] at hnil
  | case7 c next rest hsep hnext first others hcons ih =>
      have hone := ih (fun d hd => h d (List.mem_cons_of_mem _ hd)) (by simp)
      rw [hcons] at hone
      obtain ⟨rfl, rfl⟩ := List.cons.inj hone
      rfl

/-- A name without separators only gets its first character in upper case. -/
theorem pascal_of_solid (h : Solid text) : text.pascal = text.capitalize := by
  cases text with
  | nil => rfl
  | cons c rest => rw [pascal, words_of_solid h (by simp), List.flatMap_singleton]

/-- A name in Pascal case has no separators. -/
theorem solid_pascal (text : Text) : Solid text.pascal := by
  intro d hd
  obtain ⟨c, -, hsep, rfl | hupper⟩ := mem_pascal hd
  · exact hsep
  · exact isSeparator_of_mem_upperChar hsep hupper

/-- A name in camel case has no separators. -/
theorem solid_camel (text : Text) : Solid text.camel := by
  intro d hd
  have hpascal := solid_pascal text
  rw [camel] at hd
  split at hd
  · cases hd
  · next c rest heq =>
    rw [heq] at hpascal
    rcases List.mem_append.1 hd with hd | hd
    · exact isSeparator_of_mem_lowerChar (hpascal c List.mem_cons_self) hd
    · exact hpascal d (List.mem_cons_of_mem _ hd)

/-- A name in Pascal case does not start with a small ASCII letter. -/
theorem not_small_of_head?_pascal (h : c ∈ text.pascal.head?) : isSmall c = false := by
  rw [pascal] at h
  cases hwords : text.words with
  | nil => simp [hwords] at h
  | cons word others =>
      obtain ⟨first, rest, hword⟩ :=
        List.exists_cons_of_ne_nil (ne_nil_of_mem_words (hwords ▸ List.mem_cons_self))
      obtain ⟨d, more, hupper, hsmall⟩ := upperChar_eq_cons first
      have hhead : d = c := by
        simpa [hwords, hword, capitalize, hupper] using h
      rwa [← hhead]

/-! ## Small letters -/

theorem snakeChar_of_capital (h : isCapital c = true) :
    snakeChar c = ['_', Char.ofNat (c.toNat + 32)] := by
  rw [← lowerChar_of_capital h]
  exact if_pos h

theorem snakeChar_of_not_capital (h : isCapital c = false) : snakeChar c = [c] :=
  if_neg (Bool.eq_false_iff.1 h)

/-- Without underscores, characters in small letters are told apart. -/
theorem flatMap_snakeChar_inj (ha : '_' ∉ a) (hb : '_' ∉ b)
    (h : a.flatMap snakeChar = b.flatMap snakeChar) : a = b := by
  induction a generalizing b with
  | nil =>
      cases b with
      | nil => rfl
      | cons d b => cases hd : isCapital d <;>
          simp [snakeChar_of_capital, snakeChar_of_not_capital, hd] at h
  | cons c a ih =>
      rw [List.mem_cons, not_or] at ha
      cases b with
      | nil => cases hc : isCapital c <;>
          simp [snakeChar_of_capital, snakeChar_of_not_capital, hc] at h
      | cons d b =>
          rw [List.mem_cons, not_or] at hb
          rw [List.flatMap_cons, List.flatMap_cons] at h
          -- a capital shows as an underscore, which neither text has
          cases hc : isCapital c with
          | true =>
              cases hd : isCapital d with
              | true =>
                  rw [snakeChar_of_capital hc, snakeChar_of_capital hd] at h
                  simp only [List.cons_append, List.nil_append, List.cons.injEq, true_and] at h
                  have hnat := congrArg Char.toNat h.1
                  rw [toNat_lower hc, toNat_lower hd] at hnat
                  rw [Char.toNat_inj.1 (Nat.add_right_cancel hnat), ih ha.2 hb.2 h.2]
              | false =>
                  rw [snakeChar_of_capital hc, snakeChar_of_not_capital hd] at h
                  exact absurd (List.cons.inj h).1 hb.1
          | false =>
              cases hd : isCapital d with
              | true =>
                  rw [snakeChar_of_not_capital hc, snakeChar_of_capital hd] at h
                  exact absurd (List.cons.inj h).1.symm ha.1
              | false =>
                  rw [snakeChar_of_not_capital hc, snakeChar_of_not_capital hd] at h
                  obtain ⟨rfl, hrest⟩ := List.cons.inj h
                  rw [ih ha.2 hb.2 hrest]

/-- The name in small letters, by its first character. -/
theorem snake_cons (hline : c ≠ '_') (rest : Text) :
    snake (c :: rest) =
      (if isCapital c then [Char.ofNat (c.toNat + 32)] else [c]) ++ rest.flatMap snakeChar := by
  rw [snake, List.flatMap_cons]
  cases hc : isCapital c with
  | true =>
      have hsmall : Char.ofNat (c.toNat + 32) ≠ '_' := by
        intro heq
        have hnat := toNat_lower hc
        have hrange := isCapital_iff.1 hc
        rw [heq] at hnat
        have hcode : '_'.toNat = 0x5f := rfl
        omega
      simp [snakeChar_of_capital hc, hsmall]
  | false => simp [snakeChar_of_not_capital hc, hline]

/-- A name with neither underscores nor a small ASCII letter at its start is found again in its
small letters. -/
theorem snake_inj (ha : '_' ∉ a) (hb : '_' ∉ b) (ha' : ∀ c ∈ a.head?, isSmall c = false)
    (hb' : ∀ c ∈ b.head?, isSmall c = false) (h : a.snake = b.snake) : a = b := by
  refine flatMap_snakeChar_inj ha hb ?_
  -- only the underscore of a capital at the start is lost, and a small letter there is from one
  have hsmall : ∀ {c : Char}, isCapital c = true → isSmall (Char.ofNat (c.toNat + 32)) = true := by
    intro c hc
    have hrange := isCapital_iff.1 hc
    rw [isSmall_iff, toNat_lower hc]
    omega
  cases a with
  | nil =>
      cases b with
      | nil => rfl
      | cons d b =>
          rw [List.mem_cons, not_or] at hb
          rw [snake_cons (Ne.symm hb.1)] at h
          cases hd : isCapital d <;> simp [hd, snake] at h
  | cons c a =>
      rw [List.mem_cons, not_or] at ha
      cases b with
      | nil =>
          rw [snake_cons (Ne.symm ha.1)] at h
          cases hc : isCapital c <;> simp [hc, snake] at h
      | cons d b =>
          rw [List.mem_cons, not_or] at hb
          rw [snake_cons (Ne.symm ha.1), snake_cons (Ne.symm hb.1)] at h
          have hc' := ha' c rfl
          have hd' := hb' d rfl
          cases hc : isCapital c with
          | true =>
              cases hd : isCapital d with
              | true =>
                  rw [hc, hd, if_pos rfl, if_pos rfl, List.singleton_append,
                    List.singleton_append] at h
                  rw [List.flatMap_cons, List.flatMap_cons, snakeChar_of_capital hc,
                    snakeChar_of_capital hd]
                  exact congrArg ('_' :: ·) h
              | false =>
                  rw [hc, hd, if_pos rfl, if_neg Bool.false_ne_true] at h
                  rw [← (List.cons.inj h).1, hsmall hc] at hd'
                  cases hd'
          | false =>
              cases hd : isCapital d with
              | true =>
                  rw [hc, hd, if_pos rfl, if_neg Bool.false_ne_true] at h
                  rw [(List.cons.inj h).1, hsmall hd] at hc'
                  cases hc'
              | false =>
                  rw [hc, hd, if_neg Bool.false_ne_true, if_neg Bool.false_ne_true] at h
                  rw [List.flatMap_cons, List.flatMap_cons, snakeChar_of_not_capital hc,
                    snakeChar_of_not_capital hd]
                  exact h

end Text

end Scaffold
