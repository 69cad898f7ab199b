import Scaffold.Endpoint.Selection
import Scaffold.Proofs.Text.Integer
import Scaffold.Proofs.Text.Lines

/-!
# Selections read back

Numbers that are joined by commas stand for the selection of these numbers
(`Selection.parse_numbers`).
-/

namespace Scaffold

open Text

variable {indices : List Int} {c : Char} {text : Text}

/-- The text that selects endpoints by their numbers. -/
def Selection.numbers (indices : List Int) : Text := join "," (indices.map ofInt)

/-- What is no letter stays as it is in lower case. -/
theorem lowerAfter_cons (hc : c.toNat < 0x41) (before rest : Text) :
    lowerAfter before (c :: rest) = c :: lowerAfter (c :: before) rest := by
  have hsigma : (c.toNat == 0x3a3) = false := by
    rw [beq_eq_false_iff_ne]
    omega
  have hascii : c.toNat < 0x80 := by omega
  have hcapital : ('A' ≤ c && c ≤ 'Z') = false := by
    simp only [Bool.and_eq_false_iff, decide_eq_false_iff_not]
    left
    rw [Char.le_def, UInt32.le_iff_toNat_le]
    show ¬ 0x41 ≤ c.toNat
    omega
  rw [lowerAfter, hsigma, lowerChar, if_pos hascii, hcapital]
  rfl

/-- A text without capitals and letters outside of ASCII is in lower case. -/
theorem lower_of_plain (h : ∀ c ∈ text, c.toNat < 0x41) : text.lower = text := by
  have hafter : ∀ before : Text, lowerAfter before text = text := by
    induction text with
    | nil => exact fun _ => rfl
    | cons c rest ih =>
        intro before
        rw [lowerAfter_cons (h c List.mem_cons_self),
          ih (fun d hd => h d (List.mem_cons_of_mem _ hd)) (c :: before)]
  exact hafter []

/-- The characters of a row of numbers. -/
theorem mem_numbers (h : c ∈ Selection.numbers indices) : c = ',' ∨ c = '-' ∨ c.isDigit = true := by
  rcases mem_join h with hseparator | ⟨part, hpart, hc⟩
  · exact .inl (by simpa using hseparator)
  · obtain ⟨n, -, rfl⟩ := List.mem_map.1 hpart
    exact .inr (mem_ofInt hc)

theorem toNat_lt_of_mem_numbers (h : c ∈ Selection.numbers indices) : c.toNat < 0x41 := by
  rcases mem_numbers h with rfl | rfl | hdigit
  · decide
  · decide
  · have := isDigit_bounds hdigit
    omega

theorem not_blank_of_mem_numbers (h : c ∈ Selection.numbers indices) : isBlank c = false := by
  rcases mem_numbers h with rfl | rfl | hdigit
  · rfl
  · rfl
  · exact not_blank_of_isDigit hdigit

theorem listEntries_numbers (hne : indices ≠ []) :
    listEntries (Selection.numbers indices) = indices.map ofInt := by
  have hcomma : ∀ part ∈ indices.map ofInt, ',' ∉ part := by
    intro part hpart hmem
    obtain ⟨n, -, rfl⟩ := List.mem_map.1 hpart
    rcases mem_ofInt hmem with h | h
    · cases h
    · exact absurd h (by decide)
  have hsplit : (Selection.numbers indices).splitOn ',' = indices.map ofInt :=
    splitOn_join (by simpa using hne) hcomma
  rw [listEntries, hsplit, List.map_map, List.filter_eq_self.2]
  · refine List.map_congr_left fun n _ => ?_
    exact trim_of_no_blank fun c hc => not_blank_of_mem_ofInt hc
  · intro entry hentry
    obtain ⟨n, -, rfl⟩ := List.mem_map.1 hentry
    show (!(trim (ofInt n)).isEmpty) = true
    rw [trim_of_no_blank fun c hc => not_blank_of_mem_ofInt hc]
    simpa using ofInt_ne_nil n

theorem mapM_toInt? (h : ∀ n ∈ indices, IsShort n) :
    (indices.map ofInt).mapM toInt? = some indices := by
  induction indices with
  | nil => rfl
  | cons n rest ih =>
      rw [List.map_cons, List.mapM_cons, toInt?_ofInt (h n List.mem_cons_self),
        ih fun m hm => h m (List.mem_cons_of_mem _ hm)]
      rfl

/-- A row of numbers selects the endpoints with these numbers. -/
theorem Selection.parse_numbers (hne : indices ≠ []) (h : ∀ n ∈ indices, IsShort n) :
    Selection.parse (Selection.numbers indices) = .ok (.these (indices.map .int)) := by
  have hall : (Selection.numbers indices).lower ≠ ("all" : Text) := by
    rw [lower_of_plain fun c hc => toNat_lt_of_mem_numbers hc]
    intro heq
    have hmem : 'a' ∈ Selection.numbers indices := by
      rw [heq]
      exact List.mem_cons_self
    exact absurd (toNat_lt_of_mem_numbers hmem) (by decide)
  rw [Selection.parse, trim_of_no_blank fun c hc => not_blank_of_mem_numbers hc]
  simp only [hall, if_false, listEntries_numbers hne, mapM_toInt? h]

end Scaffold
