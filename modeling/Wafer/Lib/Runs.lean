import Mathlib.Data.Set.Card
import Mathlib.Order.Interval.Set.Nat

/-!
# Maximal runs of a set of naturals

A scan walks over the naturals from the bottom, keeps the run it is in and
lists a run when it leaves it. Listed runs are exactly the maximal ones, they
ascend, and their lengths add up to the number of members.

## Main definitions

- `MaximalRun` — a stretch of members that neither end extends
- `ListsRuns` — a list of exactly the maximal runs, in order
- `Scanned` — what a scan has listed below a point
-/

namespace Wafer.Lib

/-- A stretch of members of `S` that neither end extends. -/
structure MaximalRun (S : Set ℕ) (a b : ℕ) : Prop where
  le : a ≤ b
  mem : ∀ n, a ≤ n → n ≤ b → n ∈ S
  low : ∀ n, n + 1 = a → n ∉ S
  high : b + 1 ∉ S

/-- Length of a run with both ends in it. -/
def runLength (run : ℕ × ℕ) : ℕ := run.2 + 1 - run.1

/-- The list of exactly the maximal runs, with a gap between each two. -/
structure ListsRuns (S : Set ℕ) (runs : List (ℕ × ℕ)) : Prop where
  mem : ∀ a b, (a, b) ∈ runs ↔ MaximalRun S a b
  ascending : runs.Pairwise fun r r' => r.2 + 1 < r'.1
  length : (runs.map runLength).sum = S.ncard

/-- The run a scan is in at `k` reaches down to its first member. -/
def InRun (S : Set ℕ) (k : ℕ) : Option ℕ → Prop
  | some first => first < k ∧ (∀ n, first ≤ n → n < k → n ∈ S) ∧ ∀ n, n + 1 = first → n ∉ S
  | none => ∀ n, n + 1 = k → n ∉ S

/-- What a scan of the numbers below `k` has listed, and the run it is in. -/
structure Scanned (S : Set ℕ) (k : ℕ) (runs : List (ℕ × ℕ)) (first : Option ℕ) : Prop where
  listed : ∀ r ∈ runs, MaximalRun S r.1 r.2 ∧ r.2 + 1 < k
  complete : ∀ a b, MaximalRun S a b → b + 1 < k → (a, b) ∈ runs
  ascending : runs.Pairwise fun r r' => r.2 + 1 < r'.1
  inRun : InRun S k first
  length : (runs.map runLength).sum + first.elim 0 (k - ·) = (S ∩ Set.Iio k).ncard

variable {S : Set ℕ} {k first : ℕ} {runs : List (ℕ × ℕ)} {run : Option ℕ}

theorem ncard_below_succ (hk : k ∈ S) :
    (S ∩ Set.Iio (k + 1)).ncard = (S ∩ Set.Iio k).ncard + 1 := by
  have hinsert : S ∩ Set.Iio (k + 1) = insert k (S ∩ Set.Iio k) := by
    ext n
    simp only [Set.mem_inter_iff, Set.mem_Iio, Set.mem_insert_iff]
    constructor
    · intro h
      by_cases hn : n = k
      · exact .inl hn
      · exact .inr ⟨h.1, by omega⟩
    · rintro (rfl | h)
      · exact ⟨hk, by omega⟩
      · exact ⟨h.1, by omega⟩
  rw [hinsert]
  apply Set.ncard_insert_of_notMem
  · intro h
    exact absurd h.2 (Nat.lt_irrefl k)
  · exact (Set.finite_Iio k).inter_of_right S

theorem below_succ_of_notMem (hk : k ∉ S) : S ∩ Set.Iio (k + 1) = S ∩ Set.Iio k := by
  ext n
  simp only [Set.mem_inter_iff, Set.mem_Iio]
  constructor
  · intro h
    have hn : n ≠ k := fun hn => hk (hn ▸ h.1)
    exact ⟨h.1, by omega⟩
  · intro h
    exact ⟨h.1, by omega⟩

/-- A run that is closed at `k` is the one the scan is in. -/
theorem InRun.eq_of_maximal {a b : ℕ} (h : InRun S k (some first)) (hrun : MaximalRun S a b)
    (hb : b + 1 = k) : a = first := by
  obtain ⟨hlt, hmem, hlow⟩ := h
  have hle := hrun.le
  by_cases hless : a < first
  · exact absurd (hrun.mem (first - 1) (by omega) (by omega)) (hlow _ (by omega))
  · by_cases hmore : first < a
    · exact absurd (hmem (a - 1) (by omega) (by omega)) (hrun.low _ (by omega))
    · omega

namespace Scanned

/-- A scan starts below every member. -/
theorem start (h : ∀ n ∈ S, k ≤ n) : Scanned S k [] none := by
  have hbelow : ∀ n < k, n ∉ S := by
    intro n hn hmem
    exact absurd (h n hmem) (by omega)
  refine ⟨by simp, ?_, .nil, ?_, ?_⟩
  · intro a b hrun hb
    exact absurd (hrun.mem b hrun.le (Nat.le_refl b)) (hbelow b (by omega))
  · intro n hn
    exact hbelow n (by omega)
  · have hempty : S ∩ Set.Iio k = ∅ := by
      ext n
      simp only [Set.mem_inter_iff, Set.mem_Iio, Set.mem_empty_iff_false, iff_false, not_and]
      intro hmem hn
      exact hbelow n hn hmem
    rw [hempty, Set.ncard_empty]
    rfl

/-- A member of the set begins a run or belongs to the one the scan is in. -/
theorem hit (h : Scanned S k runs run) (hk : k ∈ S) : Scanned S (k + 1) runs (run.or (some k)) := by
  have hcomplete : ∀ a b, MaximalRun S a b → b + 1 < k + 1 → (a, b) ∈ runs := by
    intro a b hrun hb
    have hne : b + 1 ≠ k := fun he => hrun.high (he ▸ hk)
    exact h.complete a b hrun (by omega)
  have hlisted : ∀ r ∈ runs, MaximalRun S r.1 r.2 ∧ r.2 + 1 < k + 1 := by
    intro r hr
    exact ⟨(h.listed r hr).1, Nat.lt_succ_of_lt (h.listed r hr).2⟩
  have hlength := h.length
  cases run with
  | none =>
    refine ⟨hlisted, hcomplete, h.ascending, ⟨Nat.lt_succ_self k, ?_, h.inRun⟩, ?_⟩
    · intro n hge hlt
      rwa [show n = k by omega]
    · simp only [Option.none_or, Option.elim_some, Option.elim_none] at hlength ⊢
      rw [ncard_below_succ hk]
      omega
  | some first =>
    obtain ⟨hlt, hmem, hlow⟩ := h.inRun
    refine ⟨hlisted, hcomplete, h.ascending, ⟨by omega, ?_, hlow⟩, ?_⟩
    · intro n hge hn
      by_cases he : n = k
      · rwa [he]
      · exact hmem n hge (by omega)
    · simp only [Option.some_or, Option.elim_some] at hlength ⊢
      rw [ncard_below_succ hk]
      omega

theorem pass (h : Scanned S k runs none) (hk : k ∉ S) : Scanned S (k + 1) runs none := by
  refine ⟨?_, ?_, h.ascending, ?_, ?_⟩
  · intro r hr
    exact ⟨(h.listed r hr).1, Nat.lt_succ_of_lt (h.listed r hr).2⟩
  · intro a b hrun hb
    have hne : b + 1 ≠ k := by
      intro he
      exact h.inRun b he (hrun.mem b hrun.le (Nat.le_refl b))
    exact h.complete a b hrun (by omega)
  · intro n hn
    rwa [show n = k by omega]
  · rw [below_succ_of_notMem hk]
    exact h.length

/-- The first number behind a run closes it. -/
theorem close (h : Scanned S k runs (some first)) (hk : k ∉ S) :
    Scanned S (k + 1) (runs ++ [(first, k - 1)]) none := by
  obtain ⟨hlt, hmem, hlow⟩ := h.inRun
  have hrun : MaximalRun S first (k - 1) := by
    refine ⟨by omega, ?_, hlow, ?_⟩
    · intro n hge hle
      exact hmem n hge (by omega)
    · rwa [show k - 1 + 1 = k by omega]
  refine ⟨?_, ?_, ?_, ?_, ?_⟩
  · intro r hr
    rw [List.mem_append, List.mem_singleton] at hr
    obtain hr | rfl := hr
    · exact ⟨(h.listed r hr).1, Nat.lt_succ_of_lt (h.listed r hr).2⟩
    · exact ⟨hrun, by simp only; omega⟩
  · intro a b hab hb
    rw [List.mem_append, List.mem_singleton]
    by_cases he : b + 1 = k
    · right
      rw [h.inRun.eq_of_maximal hab he, show b = k - 1 by omega]
    · left
      exact h.complete a b hab (by omega)
  · rw [List.pairwise_append]
    refine ⟨h.ascending, List.pairwise_singleton _ _, ?_⟩
    intro r hr r' hr'
    obtain rfl := List.mem_singleton.mp hr'
    -- what lies behind a listed run is no member, and everything from `first` on is
    obtain ⟨hmax, hend⟩ := h.listed r hr
    by_contra hge
    exact hmax.high (hmem _ (by simpa using hge) hend)
  · intro n hn
    rwa [show n = k by omega]
  · have hlength := h.length
    simp only [Option.elim_some] at hlength
    rw [below_succ_of_notMem hk, ← hlength]
    simp only [List.map_append, List.sum_append, List.map_cons, List.map_nil, List.sum_cons,
      List.sum_nil, runLength, Option.elim_none]
    omega

/-- A scan past the last member has listed the maximal runs. -/
theorem finish (h : Scanned S k runs none) (hlast : ∀ n ∈ S, n < k) : ListsRuns S runs := by
  refine ⟨?_, h.ascending, ?_⟩
  · intro a b
    constructor
    · intro hmem
      exact (h.listed _ hmem).1
    · intro hrun
      have hb := hrun.mem b hrun.le (Nat.le_refl b)
      have hne : b + 1 ≠ k := fun he => h.inRun b he hb
      have hlt := hlast b hb
      exact h.complete a b hrun (by omega)
  · have hinter : S ∩ Set.Iio k = S := Set.inter_eq_left.mpr hlast
    have hlength := h.length
    rwa [hinter] at hlength

end Scanned

end Wafer.Lib
