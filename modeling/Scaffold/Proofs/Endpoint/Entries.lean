import Mathlib.Data.List.TakeWhile
import Scaffold.Proofs.Endpoint.Selection

/-!
# Entries of a selection

Numbers may be written with a sign, leading zeros and blanks around them, and blank entries are
skipped: a row of entries is read as the selection of just the numbers in it, and never as the word
`all` (`Selection.parse_row`).
-/

namespace Scaffold

open Text

/-! ## Blanks around -/

section Blanks

variable {a b text : Text} {c : Char}

/-- All characters of the text are blanks. -/
def IsBlankText (text : Text) : Prop := ∀ c ∈ text, isBlank c = true

theorem trim_append_left (h : IsBlankText a) : trim (a ++ text) = trim text := by
  rw [trim, List.dropWhile_append_of_pos h, trim]

theorem dropWhile_of_blank (h : IsBlankText a) : a.dropWhile isBlank = [] :=
  List.dropWhile_eq_nil_iff.2 h

theorem trim_append_right (h : IsBlankText b) : trim (text ++ b) = trim text := by
  rw [trim, trim, List.dropWhile_append]
  split
  · next hempty =>
    rw [List.isEmpty_iff.1 hempty, dropWhile_of_blank h]
  · rw [List.reverse_append, List.dropWhile_append_of_pos fun c hc => h c (List.mem_reverse.1 hc)]

theorem trim_of_blank (h : IsBlankText text) : trim text = [] := by
  rw [trim, dropWhile_of_blank h]
  rfl

/-- A text is what is left of it between blanks. -/
theorem exists_trim (text : Text) :
    ∃ a b, IsBlankText a ∧ IsBlankText b ∧ text = a ++ (trim text ++ b) := by
  refine ⟨text.takeWhile isBlank,
    ((text.dropWhile isBlank).reverse.takeWhile isBlank).reverse,
    fun c hc => List.mem_takeWhile_imp hc,
    fun c hc => List.mem_takeWhile_imp (List.mem_reverse.1 hc), ?_⟩
  rw [trim, ← List.reverse_append, List.takeWhile_append_dropWhile, List.reverse_reverse,
    List.takeWhile_append_dropWhile]

theorem IsBlankText.not_mem (h : IsBlankText text) (hc : isBlank c = false) :
    c ∉ text := fun hmem => by simp [h c hmem] at hc

theorem mem_trim (hc : isBlank c = false) (h : c ∈ text) : c ∈ trim text := by
  obtain ⟨a, b, ha, hb, htext⟩ := exists_trim text
  rw [htext, List.mem_append, List.mem_append] at h
  exact (h.resolve_left (ha.not_mem hc)).resolve_right (hb.not_mem hc)

/-- Blanks around the whole list do not count. -/
theorem listEntries_trim (text : Text) : listEntries (trim text) = listEntries text := by
  obtain ⟨a, b, ha, hb, htext⟩ := exists_trim text
  have hsplit : ∀ {blanks : Text}, IsBlankText blanks → splitOn ',' blanks = [blanks] :=
    fun h => splitOn_of_not_mem (h.not_mem (by decide))
  have hleft : (splitOn ',' (a ++ (trim text ++ b))).map trim =
      (splitOn ',' (trim text ++ b)).map trim := by
    obtain ⟨first, last, pieces, pieces', hpieces, hfirst, hjoint⟩ :=
      splitOn_append ',' a (trim text ++ b)
    rw [hsplit ha] at hpieces
    obtain ⟨rfl, hlast⟩ := List.append_inj' ((List.nil_append [a]).trans hpieces) rfl
    obtain rfl := (List.cons.inj hlast).1
    rw [hjoint, hfirst]
    simp [trim_append_left ha]
  have hright : (splitOn ',' (trim text ++ b)).map trim = (splitOn ',' (trim text)).map trim := by
    obtain ⟨first, last, pieces, pieces', hpieces, hfirst, hjoint⟩ := splitOn_append ',' (trim text) b
    rw [hsplit hb] at hfirst
    obtain ⟨rfl, rfl⟩ := List.cons.inj hfirst
    rw [hjoint, hpieces]
    simp [trim_append_right hb]
  rw [listEntries, listEntries, ← hright, ← hleft, ← htext]

end Blanks

/-! ## Numerals -/

/-- What may stand in front of the digits of an integer. -/
inductive Sign
  | none
  | plus
  | minus
  deriving DecidableEq

namespace Sign

def mark : Sign → Text
  | none => []
  | plus => "+"
  | minus => "-"

end Sign

/-- An integer as it may be written: decimal digits, a sign in front of them and blanks around. -/
structure Numeral where
  before : Text
  sign : Sign
  digits : Text
  after : Text
  before_blank : IsBlankText before
  after_blank : IsBlankText after
  digits_ne_nil : digits ≠ []
  decimal : ∀ c ∈ digits, c.isDigit = true
  short : digits.length ≤ digitLimit

namespace Numeral

variable {c : Char}

def text (numeral : Numeral) : Text :=
  numeral.before ++ (numeral.sign.mark ++ numeral.digits) ++ numeral.after

/-- The integer that is written. -/
def value (numeral : Numeral) : Int :=
  signedNumber (numeral.sign = .minus) (Nat.ofDigitChars 10 numeral.digits 0)

theorem mem_signed {numeral : Numeral} (h : c ∈ numeral.sign.mark ++ numeral.digits) :
    c = '+' ∨ c = '-' ∨ c.isDigit = true := by
  rcases List.mem_append.1 h with h | h
  · cases hsign : numeral.sign with
    | none => simp [hsign, Sign.mark] at h
    | plus => exact .inl (by simpa [hsign, Sign.mark] using h)
    | minus => exact .inr (.inl (by simpa [hsign, Sign.mark] using h))
  · exact .inr (.inr (numeral.decimal c h))

theorem not_blank_of_mem_signed {numeral : Numeral} (h : c ∈ numeral.sign.mark ++ numeral.digits) :
    isBlank c = false := by
  rcases mem_signed h with rfl | rfl | hdigit
  · decide
  · decide
  · exact not_blank_of_isDigit hdigit

theorem trim_text (numeral : Numeral) :
    trim numeral.text = numeral.sign.mark ++ numeral.digits := by
  rw [text, trim_append_right numeral.after_blank, trim_append_left numeral.before_blank,
    trim_of_no_blank fun c hc => not_blank_of_mem_signed hc]

theorem signed?_signed (numeral : Numeral) : signed? (numeral.sign.mark ++ numeral.digits) =
    some (decide (numeral.sign = .minus), numeral.digits) := by
  have hmark : (numeral.sign.mark ++ numeral.digits).any isInformationMark = false := by
    rw [List.any_eq_false]
    intro c hc
    rcases mem_signed hc with rfl | rfl | hdigit
    · decide
    · decide
    · have := isDigit_bounds hdigit
      simp [isInformationMark]
      omega
  rw [signed?, hmark, if_neg Bool.false_ne_true,
    trim_of_no_blank fun c hc => not_blank_of_mem_signed hc]
  cases numeral.sign with
  | plus => rfl
  | minus => rfl
  | none =>
      obtain ⟨c, rest, hdigits⟩ := List.exists_cons_of_ne_nil numeral.digits_ne_nil
      have hc : c.isDigit = true := numeral.decimal c (hdigits ▸ List.mem_cons_self)
      rw [hdigits, Sign.mark, List.nil_append]
      split
      · next h => exact absurd (List.cons.inj h).1 (by rintro rfl; exact absurd hc (by decide))
      · next h => exact absurd (List.cons.inj h).1 (by rintro rfl; exact absurd hc (by decide))
      · rfl

/-- A numeral is read as its value. -/
theorem toInt?_signed (numeral : Numeral) :
    toInt? (numeral.sign.mark ++ numeral.digits) = some numeral.value := by
  have hdigits : toNat? numeral.digits = some (Nat.ofDigitChars 10 numeral.digits 0) := by
    rw [toNat?, digitRun?_of_digits numeral.digits_ne_nil numeral.decimal]
    simp only [Option.filter_some, List.length_map, numeral.short, decide_true, if_true,
      Option.map_some, numberOf_digits]
  rw [toInt?, signed?_signed]
  show (toNat? numeral.digits).bind
    (fun size => some (signedNumber (decide (numeral.sign = .minus)) size)) = some numeral.value
  rw [hdigits]
  rfl

end Numeral

/-! ## Rows of entries -/

/-- What may stand between commas. -/
inductive ListEntry
  | blank (text : Text) (h : IsBlankText text)
  | number (numeral : Numeral)

namespace ListEntry

def text : ListEntry → Text
  | blank text _ => text
  | number numeral => numeral.text

def value? : ListEntry → Option Int
  | blank _ _ => none
  | number numeral => some numeral.value

theorem comma_not_mem (entry : ListEntry) : ',' ∉ entry.text := by
  cases entry with
  | blank text h => exact h.not_mem (by decide)
  | number numeral =>
      intro hmem
      have hcomma : isBlank ',' = false := by decide
      rcases List.mem_append.1 hmem with hmem | hmem
      · rcases List.mem_append.1 hmem with hmem | hmem
        · exact numeral.before_blank.not_mem hcomma hmem
        · exact absurd (Numeral.mem_signed hmem) (by decide)
      · exact numeral.after_blank.not_mem hcomma hmem

theorem exists_digit {entry : ListEntry} (h : entry.value?.isSome = true) :
    ∃ c ∈ entry.text, c.isDigit = true := by
  cases entry with
  | blank text h => cases h
  | number numeral =>
      obtain ⟨c, hc⟩ := List.exists_mem_of_ne_nil _ numeral.digits_ne_nil
      exact ⟨c, List.mem_append_left _ (List.mem_append_right _ (List.mem_append_right _ hc)),
        numeral.decimal c hc⟩

end ListEntry

variable {entries : List ListEntry}

/-- The text of entries one after the other. -/
def ListEntry.row (entries : List ListEntry) : Text := join "," (entries.map ListEntry.text)

/-- The entries that are not blank are read as their numbers. -/
theorem mapM_entries (entries : List ListEntry) :
    ((entries.map fun entry => trim entry.text).filter fun entry => !entry.isEmpty).mapM toInt? =
      some (entries.filterMap ListEntry.value?) := by
  induction entries with
  | nil => rfl
  | cons entry entries ih =>
      cases entry with
      | blank text h =>
          have hempty : trim (ListEntry.blank text h).text = [] := trim_of_blank h
          rw [List.map_cons, hempty, List.filter_cons_of_neg (by simp), ih]
          rfl
      | number numeral =>
          have htrim : trim (ListEntry.number numeral).text = numeral.sign.mark ++ numeral.digits :=
            numeral.trim_text
          rw [List.map_cons, htrim, List.filter_cons_of_pos (by simp [numeral.digits_ne_nil]),
            List.mapM_cons, numeral.toInt?_signed, ih]
          rfl

theorem listEntries_row (hne : entries ≠ []) : listEntries (ListEntry.row entries) =
    (entries.map fun entry => trim entry.text).filter fun entry => !entry.isEmpty := by
  have hsplit : (ListEntry.row entries).splitOn ',' = entries.map ListEntry.text :=
    splitOn_join (by simpa using hne) (List.forall_mem_map.2 fun entry _ => entry.comma_not_mem)
  rw [listEntries, hsplit, List.map_map]
  rfl

/-- Digits stay as they are in lower case. -/
theorem mem_lower_of_isDigit {c : Char} {text : Text} (hc : c.isDigit = true) (h : c ∈ text) :
    c ∈ text.lower := by
  have hafter : ∀ before : Text, c ∈ lowerAfter before text := by
    induction text with
    | nil => cases h
    | cons d rest ih =>
        intro before
        rcases List.mem_cons.1 h with rfl | h
        · have hbounds := isDigit_bounds hc
          rw [lowerAfter_cons (by omega)]
          exact List.mem_cons_self
        · exact List.mem_append_right _ (ih h _)
  exact hafter []

/-- A row of entries selects the endpoints with the numbers in it. -/
theorem Selection.parse_row (hne : entries.filterMap ListEntry.value? ≠ []) :
    Selection.parse (ListEntry.row entries) =
      .ok (.these ((entries.filterMap ListEntry.value?).map .int)) := by
  obtain ⟨entry, hentry, hnumber⟩ : ∃ entry ∈ entries, entry.value?.isSome = true := by
    obtain ⟨n, hn⟩ := List.exists_mem_of_ne_nil _ hne
    obtain ⟨entry, hentry, hvalue⟩ := List.mem_filterMap.1 hn
    exact ⟨entry, hentry, by rw [hvalue]; rfl⟩
  have hlist : listEntries (ListEntry.row entries).trim =
      (entries.map fun entry => trim entry.text).filter fun entry => !entry.isEmpty := by
    rw [listEntries_trim, listEntries_row (List.ne_nil_of_mem hentry)]
  have hall : (ListEntry.row entries).trim.lower ≠ ("all" : Text) := by
    intro hall
    obtain ⟨c, hc, hdigit⟩ := ListEntry.exists_digit hnumber
    have hmem : c ∈ ListEntry.row entries :=
      (infix_join (List.mem_map_of_mem hentry)).subset hc
    have hlower := mem_lower_of_isDigit hdigit (mem_trim (not_blank_of_isDigit hdigit) hmem)
    rw [hall] at hlower
    have hletters : ∀ c ∈ ("all" : Text), c.isDigit = false := by decide
    simp [hletters c hlower] at hdigit
  rw [Selection.parse]
  simp only [hall, if_false, hlist, mapM_entries]

example : Selection.parse " 2,+1, ,02," = .ok (.these [.int 2, .int 1, .int 2]) := rfl

end Scaffold
