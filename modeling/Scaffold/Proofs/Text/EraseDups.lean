import Mathlib.Data.List.Induction
import Mathlib.Data.List.Nodup

/-!
# Lists without repetitions

What `List.eraseDups` keeps, from the last item on: an item that is new at the end stays there, and
any other one is left out.
-/

namespace Scaffold

variable {α : Type} [BEq α] [LawfulBEq α] {x : α} {xs : List α}

theorem eraseDups_concat_of_mem (h : x ∈ xs) : (xs ++ [x]).eraseDups = xs.eraseDups := by
  rw [List.eraseDups_append]
  simp [List.removeAll, h]

theorem eraseDups_concat_of_not_mem (h : x ∉ xs) :
    (xs ++ [x]).eraseDups = xs.eraseDups ++ [x] := by
  rw [List.eraseDups_append]
  simp [List.removeAll, h, List.eraseDups_cons]

theorem nodup_eraseDups (xs : List α) : xs.eraseDups.Nodup := by
  induction xs using List.reverseRecOn with
  | nil => exact List.nodup_nil
  | append_singleton xs x ih =>
      by_cases h : x ∈ xs
      · rwa [eraseDups_concat_of_mem h]
      · rw [eraseDups_concat_of_not_mem h]
        exact ih.append (List.nodup_singleton x) (by simpa [List.mem_eraseDups] using h)

theorem eraseDups_of_nodup (h : xs.Nodup) : xs.eraseDups = xs := by
  induction xs using List.reverseRecOn with
  | nil => rfl
  | append_singleton xs x ih =>
      have hnew : x ∉ xs := fun hmem => (List.nodup_append.1 h).2.2 x hmem x (by simp) rfl
      rw [eraseDups_concat_of_not_mem hnew, ih (List.nodup_append.1 h).1]

/-- The items that are kept stand in the order of their first places. -/
theorem pairwise_idxOf_eraseDups (xs : List α) :
    xs.eraseDups.Pairwise fun x y => xs.idxOf x < xs.idxOf y := by
  induction xs using List.reverseRecOn with
  | nil => exact List.Pairwise.nil
  | append_singleton xs x ih =>
      have hsame : xs.eraseDups.Pairwise fun y z => (xs ++ [x]).idxOf y < (xs ++ [x]).idxOf z := by
        refine ih.imp_of_mem fun hy hz hlt => ?_
        rw [List.mem_eraseDups] at hy hz
        rwa [List.idxOf_append_of_mem hy, List.idxOf_append_of_mem hz]
      by_cases hx : x ∈ xs
      · rwa [eraseDups_concat_of_mem hx]
      · rw [eraseDups_concat_of_not_mem hx, List.pairwise_append]
        refine ⟨hsame, List.pairwise_singleton _ x, fun y hy z hz => ?_⟩
        obtain rfl := List.mem_singleton.1 hz
        rw [List.mem_eraseDups] at hy
        rw [List.idxOf_append_of_mem hy, List.idxOf_append_of_notMem hx]
        exact Nat.lt_of_lt_of_le (List.idxOf_lt_length_of_mem hy) (Nat.le_add_right ..)

theorem filter_eraseDups (keep : α → Bool) (xs : List α) :
    xs.eraseDups.filter keep = (xs.filter keep).eraseDups := by
  induction xs using List.reverseRecOn with
  | nil => rfl
  | append_singleton xs x ih =>
      rw [List.filter_append]
      cases hkeep : keep x with
      | false =>
          have hone : [x].filter keep = [] := by simp [hkeep]
          rw [hone, List.append_nil, ← ih]
          by_cases h : x ∈ xs
          · rw [eraseDups_concat_of_mem h]
          · rw [eraseDups_concat_of_not_mem h, List.filter_append, hone, List.append_nil]
      | true =>
          have hone : [x].filter keep = [x] := by simp [hkeep]
          rw [hone]
          by_cases h : x ∈ xs
          · rw [eraseDups_concat_of_mem h, ih,
              eraseDups_concat_of_mem (List.mem_filter.2 ⟨h, hkeep⟩)]
          · rw [eraseDups_concat_of_not_mem h, List.filter_append, hone, ih,
              eraseDups_concat_of_not_mem fun hmem => h (List.mem_of_mem_filter hmem)]

/-- Renaming the items keeps which of them are repetitions if it tells them apart. -/
theorem eraseDups_map {β : Type} [BEq β] [LawfulBEq β] {f : α → β}
    (h : ∀ x ∈ xs, ∀ y ∈ xs, f x = f y → x = y) : (xs.map f).eraseDups = xs.eraseDups.map f := by
  induction xs using List.reverseRecOn with
  | nil => rfl
  | append_singleton xs x ih =>
      have ih := ih fun y hy z hz => h y (List.mem_append_left _ hy) z (List.mem_append_left _ hz)
      rw [List.map_append, List.map_singleton]
      by_cases hx : x ∈ xs
      · rw [eraseDups_concat_of_mem hx, eraseDups_concat_of_mem (List.mem_map_of_mem hx), ih]
      · have hfx : f x ∉ xs.map f := by
          intro hmem
          obtain ⟨y, hy, heq⟩ := List.mem_map.1 hmem
          exact hx (h y (List.mem_append_left _ hy) x (by simp) heq ▸ hy)
        rw [eraseDups_concat_of_not_mem hx, eraseDups_concat_of_not_mem hfx, ih, List.map_append,
          List.map_singleton]

end Scaffold
