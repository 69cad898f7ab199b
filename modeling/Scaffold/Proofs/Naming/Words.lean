import Scaffold.Naming.Derived
import Scaffold.Proofs.Patch.Presence

/-!
# Characters of names

Which characters names can have after their letter case has changed. No conversion brings in an
ASCII character that is neither a letter nor an underscore (`Wordy.pascal`, `Wordy.camel`,
`Wordy.snake`), and ASCII words stay ASCII words.
-/

namespace Scaffold

/-- All ASCII characters of the text are word characters. -/
def Wordy (text : Text) : Prop := ∀ c ∈ text, c.toNat < 0x80 → isWordChar c = true

/-- All characters of the text are ASCII letters, digits and underscores. -/
def AsciiWordy (text : Text) : Prop := ∀ c ∈ text, c = '_' ∨ isAsciiAlphanumeric c = true

variable {a b text : Text} {c d : Char}

theorem toNat_lt_of_isAsciiAlphanumeric (h : isAsciiAlphanumeric c = true) : c.toNat < 0x80 := by
  simp only [isAsciiAlphanumeric, Bool.or_eq_true, Bool.and_eq_true, decide_eq_true_eq] at h
  have hle : ∀ d : Char, c ≤ d → c.toNat ≤ d.toNat := fun _ h => h
  rcases h with (⟨-, h⟩ | ⟨-, h⟩) | ⟨-, h⟩
  · exact Nat.lt_of_le_of_lt (hle _ h) (by decide)
  · exact Nat.lt_of_le_of_lt (hle _ h) (by decide)
  · exact Nat.lt_of_le_of_lt (hle _ h) (by decide)

theorem isWordChar_of_ascii (h : c = '_' ∨ isAsciiAlphanumeric c = true) : isWordChar c = true := by
  rcases h with rfl | h
  · decide
  · simp [isWordChar_ascii (toNat_lt_of_isAsciiAlphanumeric h), h]

theorem AsciiWordy.wordy (h : AsciiWordy text) : Wordy text :=
  fun c hc _ => isWordChar_of_ascii (h c hc)

theorem AsciiWordy.isWord (h : AsciiWordy text) (hne : text ≠ []) : IsWord text :=
  ⟨hne, fun c hc => isWordChar_of_ascii (h c hc)⟩

theorem IsWord.wordy (h : IsWord text) : Wordy text := fun c hc _ => h.word c hc

theorem Wordy.append (ha : Wordy a) (hb : Wordy b) : Wordy (a ++ b) := fun c hc =>
  (List.mem_append.1 hc).elim (ha c) (hb c)

theorem AsciiWordy.append (ha : AsciiWordy a) (hb : AsciiWordy b) : AsciiWordy (a ++ b) :=
  fun c hc => (List.mem_append.1 hc).elim (ha c) (hb c)

instance : Decidable (Wordy text) := inferInstanceAs (Decidable (∀ c ∈ text, _))

instance : Decidable (AsciiWordy text) := inferInstanceAs (Decidable (∀ c ∈ text, _))

/-- A text of this kind has no ASCII character that is not a word character. -/
theorem Wordy.not_mem (h : Wordy text) (hc : c.toNat < 0x80) (hword : isWordChar c = false) :
    c ∉ text :=
  fun hmem => by simp [h c hmem hc] at hword

theorem Wordy.noSlash (h : Wordy text) : '/' ∉ text := h.not_mem (by decide) (by decide)

theorem IsWord.noSlash (h : IsWord text) : '/' ∉ text := h.wordy.noSlash

/-! ## Letter case -/

theorem upperExpansions_range :
    ∀ entry ∈ upperExpansions, ∀ n ∈ entry.2,
      (Nat.isValidChar n ∧ (0x41 ≤ n ∧ n ≤ 0x5a ∨ 0x80 ≤ n)) := by
  decide +kernel

theorem upperRuns_range :
    ∀ run ∈ upperRuns,
      run.first = run.last ∧ 0x41 ≤ run.target ∧ run.target ≤ 0x5a ∨
      0x80 ≤ run.target ∧ run.target + (run.last - run.first) < 0xd800 ∨
      0xe000 ≤ run.target ∧ run.target + (run.last - run.first) < 0x110000 := by
  decide +kernel

theorem toNat_ofNat {n : Nat} (h : n.isValidChar) : (Char.ofNat n).toNat = n := by
  unfold Char.ofNat
  rw [dif_pos h]
  rfl

/-- A character in upper case is the character itself, an ASCII capital, or beyond ASCII. -/
theorem mem_upperChar (h : d ∈ upperChar c) :
    d = c ∨ 0x41 ≤ d.toNat ∧ d.toNat ≤ 0x5a ∨ 0x80 ≤ d.toNat := by
  rw [upperChar] at h
  split at h
  · split at h
    · next hlower =>
      rw [List.mem_singleton.1 h]
      rw [Bool.and_eq_true, decide_eq_true_eq, decide_eq_true_eq] at hlower
      have hlow : 0x61 ≤ c.toNat := hlower.1
      have hhigh : c.toNat ≤ 0x7a := hlower.2
      have hvalid : (c.toNat - 32).isValidChar := .inl (by omega)
      rw [toNat_ofNat hvalid]
      omega
    · exact .inl (List.mem_singleton.1 h)
  · split at h
    · next codes hlookup =>
      obtain ⟨n, hn, rfl⟩ := List.mem_map.1 h
      obtain ⟨first, last, heq, -⟩ := List.lookup_eq_some_iff.1 hlookup
      obtain ⟨hvalid, hrange⟩ := upperExpansions_range (c.toNat, codes) (by simp [heq]) n hn
      rw [toNat_ofNat hvalid]
      omega
    · rw [List.mem_singleton.1 h]
      cases himage : upperRuns.findSome? (·.image? c.toNat) with
      | none => exact .inl rfl
      | some n =>
          obtain ⟨run, hrun, hn⟩ := List.exists_of_findSome?_eq_some himage
          rw [CaseRun.image?] at hn
          split at hn
          · next hin =>
            simp only [Bool.and_eq_true, decide_eq_true_eq] at hin
            obtain rfl := Option.some.inj hn
            have hrange := upperRuns_range run hrun
            have hvalid : (run.target + (c.toNat - run.first)).isValidChar := by
              rw [Nat.isValidChar]
              omega
            simp only [Option.map_some, Option.getD_some, toNat_ofNat hvalid]
            omega
          · cases hn

theorem mem_upperChar_of_ascii (hc : isAsciiAlphanumeric c = true) (h : d ∈ upperChar c) :
    isAsciiAlphanumeric d = true := by
  rw [upperChar, if_pos (toNat_lt_of_isAsciiAlphanumeric hc)] at h
  split at h
  · next hlower =>
    rw [Bool.and_eq_true, decide_eq_true_eq, decide_eq_true_eq] at hlower
    have hlow : 0x61 ≤ c.toNat := hlower.1
    have hhigh : c.toNat ≤ 0x7a := hlower.2
    have hvalid : (c.toNat - 32).isValidChar := .inl (by omega)
    have hnat := toNat_ofNat hvalid
    rw [← List.mem_singleton.1 h] at hnat
    have hA : 'A' ≤ d := show 0x41 ≤ d.toNat by omega
    have hZ : d ≤ 'Z' := show d.toNat ≤ 0x5a by omega
    simp [isAsciiAlphanumeric, hA, hZ]
  · rw [List.mem_singleton.1 h, hc]

/-- The character in lower case of an ASCII character is one again, a letter of a letter. -/
theorem mem_lowerChar_of_ascii (hc : c.toNat < 0x80) (h : d ∈ lowerChar c) :
    d = c ∨ isAsciiAlphanumeric d = true := by
  rw [lowerChar, if_pos hc] at h
  split at h
  · next hupper =>
    rw [Bool.and_eq_true, decide_eq_true_eq, decide_eq_true_eq] at hupper
    have hlow : 0x41 ≤ c.toNat := hupper.1
    have hhigh : c.toNat ≤ 0x5a := hupper.2
    have hvalid : (c.toNat + 32).isValidChar := .inl (by omega)
    have hnat := toNat_ofNat hvalid
    rw [← List.mem_singleton.1 h] at hnat
    have ha : 'a' ≤ d := show 0x61 ≤ d.toNat by omega
    have hz : d ≤ 'z' := show d.toNat ≤ 0x7a by omega
    exact .inr (by simp [isAsciiAlphanumeric, ha, hz])
  · exact .inl (List.mem_singleton.1 h)

theorem lowerRuns_range :
    ∀ run ∈ lowerRuns,
      run.first = run.last ∧ 0x61 ≤ run.target ∧ run.target ≤ 0x7a ∨
      0x80 ≤ run.target ∧ run.target + (run.last - run.first) < 0xd800 ∨
      0xe000 ≤ run.target ∧ run.target + (run.last - run.first) < 0x110000 := by
  decide +kernel

/-- A character in lower case is the character itself, a small ASCII letter or digit, or beyond
ASCII. -/
theorem mem_lowerChar (h : d ∈ lowerChar c) :
    d = c ∨ isAsciiAlphanumeric d = true ∨ 0x80 ≤ d.toNat := by
  have hsmall : ∀ e : Char, 0x61 ≤ e.toNat → e.toNat ≤ 0x7a → isAsciiAlphanumeric e = true := by
    intro e hlow hhigh
    have ha : 'a' ≤ e := hlow
    have hz : e ≤ 'z' := hhigh
    simp [isAsciiAlphanumeric, ha, hz]
  by_cases hascii : c.toNat < 0x80
  · rcases mem_lowerChar_of_ascii hascii h with heq | halnum
    · exact .inl heq
    · exact .inr (.inl halnum)
  · rw [lowerChar, if_neg hascii] at h
    split at h
    · simp only [List.mem_cons, List.not_mem_nil, or_false] at h
      rcases h with rfl | rfl
      · exact .inr (.inl (by decide))
      · exact .inr (.inr (by decide))
    · rw [List.mem_singleton.1 h]
      cases himage : lowerRuns.findSome? (·.image? c.toNat) with
      | none => exact .inl rfl
      | some n =>
          obtain ⟨run, hrun, hn⟩ := List.exists_of_findSome?_eq_some himage
          rw [CaseRun.image?] at hn
          split at hn
          · next hin =>
            simp only [Bool.and_eq_true, decide_eq_true_eq] at hin
            obtain rfl := Option.some.inj hn
            have hrange := lowerRuns_range run hrun
            have hvalid : (run.target + (c.toNat - run.first)).isValidChar := by
              rw [Nat.isValidChar]
              omega
            simp only [Option.map_some, Option.getD_some]
            rcases hrange with ⟨hone, hlow, hhigh⟩ | hrange
            · refine .inr (.inl (hsmall _ ?_ ?_)) <;> (rw [toNat_ofNat hvalid]; omega)
            · refine .inr (.inr ?_)
              rw [toNat_ofNat hvalid]
              omega
          · cases hn

namespace Text

theorem mem_of_mem_words {word : Text} (hword : word ∈ text.words) (hc : c ∈ word) :
    c ∈ text ∧ isSeparator c = false := by
  fun_induction words text generalizing word with
  | case1 => simp at hword
  | case2 c' hsep => simp at hword
  | case3 c' hsep =>
      obtain rfl := List.mem_singleton.1 hword
      obtain rfl := List.mem_singleton.1 hc
      exact ⟨by simp, by simpa using hsep⟩
  | case4 c' next rest hsep ih =>
      obtain ⟨hmem, hnot⟩ := ih hword hc
      exact ⟨List.mem_cons_of_mem _ hmem, hnot⟩
  | case5 c' next rest hsep hnext ih =>
      rcases List.mem_cons.1 hword with rfl | hword
      · obtain rfl := List.mem_singleton.1 hc
        exact ⟨by simp, by simpa using hsep⟩
      · obtain ⟨hmem, hnot⟩ := ih hword hc
        exact ⟨List.mem_cons_of_mem _ hmem, hnot⟩
  | case6 c' next rest hsep hnext hnil ih =>
      obtain rfl := List.mem_singleton.1 hword
      obtain rfl := List.mem_singleton.1 hc
      exact ⟨by simp, by simpa using hsep⟩
  | case7 c' next rest hsep hnext word' others hcons ih =>
      rw [hcons] at ih
      rcases List.mem_cons.1 hword with rfl | hword
      · rcases List.mem_cons.1 hc with rfl | hc
        · exact ⟨by simp, by simpa using hsep⟩
        · obtain ⟨hmem, hnot⟩ := ih (List.mem_cons_self ..) hc
          exact ⟨List.mem_cons_of_mem _ hmem, hnot⟩
      · obtain ⟨hmem, hnot⟩ := ih (List.mem_cons_of_mem _ hword) hc
        exact ⟨List.mem_cons_of_mem _ hmem, hnot⟩

theorem mem_capitalize {word : Text} (h : d ∈ capitalize word) :
    d ∈ word ∨ ∃ c ∈ word, d ∈ upperChar c := by
  cases word with
  | nil => simp [capitalize] at h
  | cons c rest =>
      rcases List.mem_append.1 h with h | h
      · exact .inr ⟨c, by simp, h⟩
      · exact .inl (by simp [h])

/-- A character of a text in Pascal case is one of the text, or the capital of one. -/
theorem mem_pascal (h : d ∈ text.pascal) :
    ∃ c ∈ text, isSeparator c = false ∧ (d = c ∨ d ∈ upperChar c) := by
  obtain ⟨word, hword, h⟩ := List.mem_flatMap.1 h
  rcases mem_capitalize h with h | ⟨c, hc, h⟩
  · obtain ⟨hmem, hnot⟩ := mem_of_mem_words hword h
    exact ⟨d, hmem, hnot, .inl rfl⟩
  · obtain ⟨hmem, hnot⟩ := mem_of_mem_words hword hc
    exact ⟨c, hmem, hnot, .inr h⟩

end Text

theorem isWordChar_of_capital (hlow : 0x41 ≤ d.toNat) (hhigh : d.toNat ≤ 0x5a) :
    isWordChar d = true := by
  have hA : 'A' ≤ d := hlow
  have hZ : d ≤ 'Z' := hhigh
  exact isWordChar_of_ascii (.inr (by simp [isAsciiAlphanumeric, hA, hZ]))

/-- An ASCII character of a text in Pascal case that is no word character is one of the text. -/
theorem Text.mem_of_mem_pascal (hascii : d.toNat < 0x80) (hword : isWordChar d = false)
    (h : d ∈ text.pascal) : d ∈ text := by
  obtain ⟨c, hc, -, rfl | hd⟩ := Text.mem_pascal h
  · exact hc
  · rcases mem_upperChar hd with rfl | ⟨hlow, hhigh⟩ | hbeyond
    · exact hc
    · rw [isWordChar_of_capital hlow hhigh] at hword
      cases hword
    · omega

/-- An ASCII character of a text in camel case that is no word character is one of the text. -/
theorem Text.mem_of_mem_camel (hascii : d.toNat < 0x80) (hword : isWordChar d = false)
    (h : d ∈ text.camel) : d ∈ text := by
  refine mem_of_mem_pascal hascii hword ?_
  rw [camel] at h
  split at h
  · cases h
  · next c rest hpascal =>
    rw [hpascal]
    rcases List.mem_append.1 h with h | h
    · rcases mem_lowerChar h with rfl | halnum | hbeyond
      · exact List.mem_cons_self
      · rw [isWordChar_of_ascii (.inr halnum)] at hword
        cases hword
      · omega
    · exact List.mem_cons_of_mem _ h

theorem Wordy.pascal (h : Wordy text) : Wordy text.pascal := by
  intro d hd hascii
  by_contra hword
  have hword := Bool.eq_false_iff.2 hword
  exact h.not_mem hascii hword (Text.mem_of_mem_pascal hascii hword hd)

/-- The words of an ASCII word run together have no underscores. -/
theorem AsciiWordy.mem_pascal (h : AsciiWordy text) (hd : d ∈ text.pascal) :
    isAsciiAlphanumeric d = true := by
  obtain ⟨c, hc, hsep, hd⟩ := Text.mem_pascal hd
  have halnum : isAsciiAlphanumeric c = true := by
    rcases h c hc with rfl | halnum
    · exact absurd hsep (by decide)
    · exact halnum
  rcases hd with rfl | hd
  · exact halnum
  · exact mem_upperChar_of_ascii halnum hd

theorem AsciiWordy.pascal (h : AsciiWordy text) : AsciiWordy text.pascal :=
  fun _ hd => .inr (h.mem_pascal hd)

theorem AsciiWordy.camel (h : AsciiWordy text) : AsciiWordy text.camel := by
  intro d hd
  rw [Text.camel] at hd
  split at hd
  · simp at hd
  · next c rest hpascal =>
    have hmem : ∀ e ∈ c :: rest, isAsciiAlphanumeric e = true := fun e he =>
      h.mem_pascal (hpascal ▸ he)
    have hc := hmem c (by simp)
    rcases List.mem_append.1 hd with hd | hd
    · rcases mem_lowerChar_of_ascii (toNat_lt_of_isAsciiAlphanumeric hc) hd with rfl | hd
      · exact .inr hc
      · exact .inr hd
    · exact .inr (hmem d (by simp [hd]))

/-- A character of a text in small letters that is no word character is one of the text. -/
theorem Text.mem_of_mem_snake (hword : isWordChar d = false) (h : d ∈ text.snake) : d ∈ text := by
  obtain ⟨c, hc, hd⟩ := List.mem_flatMap.1 (List.dropWhile_subset _ h)
  rw [Text.snakeChar] at hd
  split at hd
  · next hupper =>
    rw [Bool.and_eq_true, decide_eq_true_eq, decide_eq_true_eq] at hupper
    have hc' : c.toNat < 0x80 := Nat.lt_of_le_of_lt (show c.toNat ≤ 0x5a from hupper.2) (by decide)
    rcases List.mem_cons.1 hd with rfl | hd
    · exact absurd hword (by decide)
    · rcases mem_lowerChar_of_ascii hc' hd with rfl | hd
      · exact hc
      · rw [isWordChar_of_ascii (.inr hd)] at hword
        cases hword
  · rwa [List.mem_singleton.1 hd]

theorem Wordy.snake (h : Wordy text) : Wordy text.snake := by
  intro d hd hascii
  by_contra hword
  have hword := Bool.eq_false_iff.2 hword
  exact h.not_mem hascii hword (Text.mem_of_mem_snake hword hd)

namespace Endpoint

variable {endpoint : Endpoint}

theorem wordy_baseName (h : Wordy endpoint.methodName) : Wordy endpoint.baseName := h.pascal

theorem wordy_requestModel (h : Wordy endpoint.methodName) : Wordy endpoint.requestModel :=
  (wordy_baseName h).append (by decide)

theorem wordy_responseModel (h : Wordy endpoint.methodName) : Wordy endpoint.responseModel :=
  (wordy_baseName h).append (by decide)

theorem eq_of_mem_requiredModels {model : Text} (h : model ∈ endpoint.requiredModels) :
    model = endpoint.requestModel ∨ model = endpoint.responseModel := by
  rw [requiredModels, List.mem_append] at h
  rcases h with h | h
  · split at h
    · exact .inl (List.mem_singleton.1 h)
    · cases h
  · split at h
    · exact .inr (List.mem_singleton.1 h)
    · cases h

end Endpoint

end Scaffold
