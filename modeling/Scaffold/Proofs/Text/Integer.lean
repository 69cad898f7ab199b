import Scaffold.Text.Integer

/-!
# Integers read back

An integer is read back from its decimal digits, unless it has too many of them (`toInt?_ofInt`).
-/

namespace Scaffold.Text

variable {c : Char} {n : Nat} {text : Text}

/-- Whether an integer is written with few enough digits to be read. -/
def IsShort (n : Int) : Prop := (ofNat n.natAbs).length ≤ digitLimit

instance (n : Int) : Decidable (IsShort n) := inferInstanceAs (Decidable (_ ≤ _))

/-- A natural number is written with decimal digits only. -/
theorem isDigit_of_mem_ofNat (h : c ∈ ofNat n) : c.isDigit = true :=
  Nat.isDigit_of_mem_toDigits (by decide) (by decide) h

/-- A natural number has a digit, zero too. -/
theorem ofNat_ne_nil (n : Nat) : ofNat n ≠ [] := Nat.toDigits_ne_nil

/-- The ten digits are ten characters in a row. -/
theorem isDigit_bounds (h : c.isDigit = true) : 48 ≤ c.toNat ∧ c.toNat ≤ 57 := by
  simpa [Char.isDigit, UInt32.le_iff_toNat_le] using h

/-- An integer is written with digits and a sign. -/
theorem mem_ofInt {n : Int} (h : c ∈ ofInt n) : c = '-' ∨ c.isDigit = true := by
  cases n with
  | ofNat n => exact .inr (isDigit_of_mem_ofNat h)
  | negSucc n => exact (List.mem_cons.1 h).imp id isDigit_of_mem_ofNat

/-- An integer is not written as nothing. -/
theorem ofInt_ne_nil (n : Int) : ofInt n ≠ [] := by
  cases n with
  | ofNat n => exact ofNat_ne_nil n
  | negSucc n => exact List.cons_ne_nil _ _

/-- No digit is a blank. -/
theorem not_blank_of_isDigit (h : c.isDigit = true) : isBlank c = false := by
  have hbounds := isDigit_bounds h
  simp only [isBlank, Bool.or_eq_false_iff, Bool.and_eq_false_iff, decide_eq_false_iff_not,
    beq_eq_false_iff_ne]
  omega

/-- Without blanks there is nothing to trim. -/
theorem trim_of_no_blank (h : ∀ c ∈ text, isBlank c = false) : trim text = text := by
  have hdrop : ∀ {text : Text}, (∀ c ∈ text, isBlank c = false) → text.dropWhile isBlank = text := by
    intro text h
    cases text with
    | nil => rfl
    | cons c rest => exact List.dropWhile_cons_of_neg (by simp [h c List.mem_cons_self])
  rw [trim, hdrop h, hdrop fun c hc => h c (List.mem_reverse.1 hc), List.reverse_reverse]

/-- An integer is written without blanks. -/
theorem not_blank_of_mem_ofInt {n : Int} (h : c ∈ ofInt n) : isBlank c = false := by
  rcases mem_ofInt h with rfl | hdigit
  · rfl
  · exact not_blank_of_isDigit hdigit

/-- The value of a decimal digit is its distance from zero, although digits of other scripts are
read as well. -/
theorem digitValue?_of_isDigit (h : c.isDigit = true) : digitValue? c = some (c.toNat - 48) := by
  obtain ⟨hleast, hmost⟩ := isDigit_bounds h
  have hfirst : (digitZeros.find? fun first => first ≤ c.toNat && c.toNat < first + 10) = some 48 :=
    List.find?_cons_of_pos (by simp; omega)
  rw [digitValue?, hfirst]
  rfl

/-- A text of digits is read digit by digit. The underscore that may join digits is none of them. -/
theorem digitRun?_of_digits (hne : text ≠ []) (h : ∀ c ∈ text, c.isDigit = true) :
    digitRun? text = some (text.map fun c => c.toNat - 48) := by
  induction text with
  | nil => exact absurd rfl hne
  | cons c rest ih =>
      have hc := digitValue?_of_isDigit (h c List.mem_cons_self)
      cases rest with
      | nil => simp [digitRun?, hc]
      | cons next rest =>
          have hnext : next ≠ '_' := by
            rintro rfl
            exact absurd (h '_' (by simp)) (by decide)
          -- the reader looks for an underscore first
          have hrest := ih (List.cons_ne_nil _ _) fun d hd => h d (List.mem_cons_of_mem _ hd)
          rw [digitRun?, hc, hrest]
          · rfl
          · exact hnext

/-- The number that digits make up is the one that the library reads from them. -/
theorem numberOf_digits (text : Text) :
    numberOf (text.map fun c => c.toNat - 48) = Nat.ofDigitChars 10 text 0 := by
  rw [numberOf, List.foldl_map, Nat.ofDigitChars_eq_foldl]
  congr 1
  funext value c
  rw [Nat.mul_comm]
  rfl

/-- A natural number is read back from its digits if it has few enough of them. -/
theorem toNat?_ofNat (h : (ofNat n).length ≤ digitLimit) : toNat? (ofNat n) = some n := by
  rw [toNat?, digitRun?_of_digits (ofNat_ne_nil n) fun c hc => isDigit_of_mem_ofNat hc]
  simp only [Option.filter_some, List.length_map, h, decide_true, if_true, Option.map_some,
    numberOf_digits]
  exact congrArg some Nat.ofDigitChars_ten_toDigits

/-- The sign and the digits of an integer are read back apart from each other. -/
theorem signed?_ofInt (n : Int) :
    signed? (ofInt n) = some (decide (n < 0), ofNat n.natAbs) := by
  have hmark : (ofInt n).any isInformationMark = false := by
    rw [List.any_eq_false]
    intro c hc
    rcases mem_ofInt hc with rfl | hdigit
    · decide
    · have := isDigit_bounds hdigit
      simp [isInformationMark]
      omega
  rw [signed?, hmark, if_neg Bool.false_ne_true,
    trim_of_no_blank fun c hc => not_blank_of_mem_ofInt hc]
  cases n with
  | negSucc n =>
      rw [decide_eq_true (Int.negSucc_lt_zero n)]
      rfl
  | ofNat n =>
      -- the first character is a digit, so neither sign is read
      obtain ⟨c, rest, hdigits⟩ := List.exists_cons_of_ne_nil (ofNat_ne_nil n)
      have hc : c.isDigit = true := isDigit_of_mem_ofNat (hdigits ▸ List.mem_cons_self)
      have hminus : c ≠ '-' := by rintro rfl; exact absurd hc (by decide)
      have hplus : c ≠ '+' := by rintro rfl; exact absurd hc (by decide)
      rw [show ofInt (.ofNat n) = c :: rest from hdigits,
        show ofNat (Int.ofNat n).natAbs = c :: rest from hdigits]
      split
      · next h => exact absurd (List.cons.inj h).1 hminus
      · next h => exact absurd (List.cons.inj h).1 hplus
      · rfl

/-- An integer is read back from its digits. -/
theorem toInt?_ofInt {n : Int} (h : IsShort n) : toInt? (ofInt n) = some n := by
  rw [toInt?, signed?_ofInt]
  show (toNat? (ofNat n.natAbs)).bind (fun size => some (signedNumber (decide (n < 0)) size)) = some n
  rw [toNat?_ofNat h, Option.bind_some, signedNumber]
  by_cases hneg : n < 0
  · simp only [hneg, decide_true, if_true, Option.some.injEq]
    omega
  · simp only [hneg, decide_false, Bool.false_eq_true, if_false, Option.some.injEq]
    omega

end Scaffold.Text
