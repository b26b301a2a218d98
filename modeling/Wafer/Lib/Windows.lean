import Mathlib.Algebra.BigOperators.Group.List.Basic
import Mathlib.Algebra.Order.Ring.Int
import Mathlib.Data.List.Induction
import Mathlib.Data.Nat.Notation
import Mathlib.Tactic.Linarith
import Mathlib.Tactic.Ring

/-!
# Counting by window

How many samples of a list lie in a half-open window. Windows side by side count
what their union counts, and a filter keeps the count of a window exactly if it
keeps the samples in it. A row of counters, one of which goes up with each
sample, ends with the counts.

## Main definitions

- `countIn` — the samples in a window
- `tally` — the row of counters
-/

namespace Wafer.Lib

section Windows

variable {α β : Type*} [LinearOrder β] (f : α → β) (lo hi : β) (xs : List α)

/-- How many samples lie in `[lo, hi)`. -/
def countIn : ℕ := xs.countP fun x => lo ≤ f x ∧ f x < hi

variable {f lo hi xs} {mid : β}

theorem countIn_eq_zero (h : hi ≤ lo) : countIn f lo hi xs = 0 := by
  rw [countIn, List.countP_eq_zero]
  intro x _
  simp only [decide_eq_true_eq, not_and, not_lt]
  exact h.trans

/-- Two windows side by side. -/
theorem countIn_append (hlo : lo ≤ mid) (hhi : mid ≤ hi) :
    countIn f lo hi xs = countIn f lo mid xs + countIn f mid hi xs := by
  induction xs with
  | nil => rfl
  | cons x xs ih =>
    simp only [countIn, List.countP_cons, decide_eq_true_eq] at ih ⊢
    have hsplit : (if lo ≤ f x ∧ f x < hi then 1 else 0) =
        (if lo ≤ f x ∧ f x < mid then 1 else 0) + if mid ≤ f x ∧ f x < hi then 1 else 0 := by
      rcases lt_or_ge (f x) mid with hx | hx
      · have hhi' := hx.trans_le hhi
        simp [hx, hhi', hx.not_ge]
      · have hlo' := hlo.trans hx
        simp [hx, hlo', hx.not_gt]
    rw [ih, hsplit]
    omega

/-- A filter keeps the count of a window exactly if it keeps the samples in it. -/
theorem countIn_filter_eq_iff {keep : α → Bool} :
    countIn f lo hi (xs.filter keep) = countIn f lo hi xs ↔
      ∀ x ∈ xs, lo ≤ f x → f x < hi → keep x = true := by
  have hsplit : countIn f lo hi xs =
      countIn f lo hi (xs.filter keep) + countIn f lo hi (xs.filter fun x => !keep x) := by
    have h := List.countP_eq_countP_filter_add xs (fun x => decide (lo ≤ f x ∧ f x < hi)) keep
    simpa only [countIn] using h
  rw [hsplit, left_eq_add, countIn, List.countP_eq_zero]
  constructor
  · intro h x hx hlo hhi
    by_contra hdrop
    have hmem : x ∈ xs.filter fun x => !keep x := by
      rw [List.mem_filter]
      exact ⟨hx, by simpa using hdrop⟩
    exact h x hmem (by simpa using ⟨hlo, hhi⟩)
  · intro h x hx hin
    rw [List.mem_filter] at hx
    simp only [decide_eq_true_eq] at hin
    have hkept := h x hx.1 hin.1 hin.2
    simp [hkept] at hx

/-- The marked samples of a window and the others. -/
theorem countIn_filter_add (mark : α → Bool) :
    countIn f lo hi (xs.filter fun x => !mark x) + countIn f lo hi (xs.filter mark) =
      countIn f lo hi xs := by
  have h := List.countP_eq_countP_filter_add xs (fun x => decide (lo ≤ f x ∧ f x < hi)) mark
  simp only [countIn]
  omega

end Windows

/-- A window cut into `m` windows of one width. -/
theorem countIn_tiles {α : Type*} {f : α → ℤ} {xs : List α} {width : ℤ} (hwidth : 0 ≤ width)
    (lo : ℤ) (m : ℕ) : countIn f lo (lo + m * width) xs =
      ((List.range m).map fun j : ℕ =>
        countIn f (lo + j * width) (lo + (j + 1) * width) xs).sum := by
  induction m with
  | zero => exact countIn_eq_zero (by simp)
  | succ m ih =>
    have hlo : lo ≤ lo + m * width := by
      have := mul_nonneg (Int.natCast_nonneg m) hwidth
      linarith
    have hhi : lo + m * width ≤ lo + (m + 1 : ℕ) * width := by
      push_cast
      linarith
    rw [List.range_succ, List.map_append, List.sum_append, ← ih, countIn_append hlo hhi]
    simp

section Tally

variable {α : Type*} (index : α → ℕ) (counted : α → Bool)

/-- One counter an index; a counted sample adds to the counter of its index. -/
def tally (n : ℕ) (xs : List α) : List ℕ :=
  xs.foldl (fun counts x => if counted x then counts.modify (index x) (· + 1) else counts)
    (List.replicate n 0)

variable {index counted}

theorem tally_concat (n : ℕ) (xs : List α) (x : α) : tally index counted n (xs ++ [x]) =
    if counted x then (tally index counted n xs).modify (index x) (· + 1)
    else tally index counted n xs := by
  simp only [tally, List.foldl_append, List.foldl_cons, List.foldl_nil]

theorem tally_eq (n : ℕ) (xs : List α) : tally index counted n xs =
    (List.range n).map fun k => xs.countP fun x => counted x ∧ index x = k := by
  induction xs using List.reverseRecOn with
  | nil => simp [tally, List.map_const']
  | append_singleton xs x ih =>
    rw [tally_concat, ih]
    apply List.ext_getElem
    · split <;> simp
    · intro k hk _
      split
      · next hcounted =>
        simp only [List.getElem_modify, List.getElem_map, List.getElem_range, List.countP_append]
        by_cases hindex : index x = k
        · simp [hindex, hcounted]
        · simp [hindex]
      · next hcounted => simp [List.countP_append, hcounted]

theorem length_tally (n : ℕ) (xs : List α) : (tally index counted n xs).length = n := by
  rw [tally_eq, List.length_map, List.length_range]

end Tally

end Wafer.Lib
