import Mathlib.Algebra.BigOperators.Group.List.Basic
import Mathlib.Algebra.Group.Prod
import Mathlib.Data.Nat.Notation

/-!
# Sums by bucket

Samples fall into numbered buckets and weigh something in a commutative monoid.
A recorder that only keeps the sum of the bucket it is in, and closes buckets
from the lowest on, ends with the sum of each bucket as long as no sample falls
into a bucket it has closed.

## Main definitions

- `bucketSum` — what the samples of one bucket weigh
- `Bucketed` — the closed buckets and the open one have their sums
-/

namespace Wafer.Lib

variable {α M : Type*} [AddCommMonoid M] (bucket : α → ℕ) (weight : α → M)

/-- What the samples of bucket `k` weigh. -/
def bucketSum (xs : List α) (k : ℕ) : M := ((xs.filter (bucket · = k)).map weight).sum

/-- Every bucket below `current` is closed with its sum, `current` is summed up in `acc`, and no
sample lies beyond; together they weigh what the samples weigh. -/
structure Bucketed (xs : List α) (current : ℕ) (closed : List M) (acc : M) : Prop where
  sums : closed = (List.range current).map (bucketSum bucket weight xs)
  open_ : acc = bucketSum bucket weight xs current
  below : ∀ x ∈ xs, bucket x ≤ current
  total : closed.sum + acc = (xs.map weight).sum

variable {bucket weight} {xs : List α} {x : α} {k current : ℕ} {closed : List M} {acc : M}

theorem bucketSum_snoc_self (h : bucket x = k) :
    bucketSum bucket weight (xs ++ [x]) k = bucketSum bucket weight xs k + weight x := by
  simp [bucketSum, h]

theorem bucketSum_snoc_of_ne (h : bucket x ≠ k) :
    bucketSum bucket weight (xs ++ [x]) k = bucketSum bucket weight xs k := by
  simp [bucketSum, h]

theorem bucketSum_eq_zero (h : ∀ x ∈ xs, bucket x ≠ k) : bucketSum bucket weight xs k = 0 := by
  have hnone : xs.filter (bucket · = k) = [] := by
    rw [List.filter_eq_nil_iff]
    intro x hx
    simpa using h x hx
  rw [bucketSum, hnone]
  rfl

namespace Bucketed

theorem start : Bucketed bucket weight [] 0 [] 0 :=
  ⟨rfl, rfl, fun _ hx => (nomatch hx), add_zero 0⟩

/-- A sample of the open bucket. -/
theorem add (h : Bucketed bucket weight xs current closed acc) (hx : bucket x = current) :
    Bucketed bucket weight (xs ++ [x]) current closed (acc + weight x) := by
  refine ⟨?_, ?_, ?_, ?_⟩
  · rw [h.sums]
    apply List.map_congr_left
    intro k hk
    have hne : bucket x ≠ k := by
      have := List.mem_range.mp hk
      omega
    exact (bucketSum_snoc_of_ne hne).symm
  · rw [bucketSum_snoc_self hx, h.open_]
  · intro y hy
    rw [List.mem_append, List.mem_singleton] at hy
    obtain hy | rfl := hy
    · exact h.below y hy
    · exact Nat.le_of_eq hx
  · rw [List.map_append, List.sum_append, ← h.total, ← add_assoc]
    simp

/-- The open bucket is closed, and the next one has no samples yet. -/
theorem close (h : Bucketed bucket weight xs current closed acc) :
    Bucketed bucket weight xs (current + 1) (closed ++ [acc]) 0 := by
  refine ⟨?_, ?_, ?_, ?_⟩
  · rw [List.range_succ, List.map_append, ← h.sums, h.open_]
    rfl
  · refine (bucketSum_eq_zero ?_).symm
    intro x hx
    have := h.below x hx
    omega
  · intro x hx
    exact Nat.le_succ_of_le (h.below x hx)
  · rw [← h.total, List.sum_append]
    simp

/-- The weight of a closed bucket. -/
theorem closed_eq {m : M} (h : Bucketed bucket weight xs current closed acc)
    (hk : closed[k]? = some m) : m = bucketSum bucket weight xs k := by
  rw [h.sums, List.getElem?_map, Option.map_eq_some_iff] at hk
  obtain ⟨j, hj, rfl⟩ := hk
  obtain ⟨hlt, hget⟩ := List.getElem?_eq_some_iff.mp hj
  rw [List.getElem_range] at hget
  rw [hget]

theorem length (h : Bucketed bucket weight xs current closed acc) : closed.length = current := by
  rw [h.sums, List.length_map, List.length_range]

end Bucketed

end Wafer.Lib
