import Mathlib.Data.List.Basic

/-!
# Tilings by windows

Windows of a fixed width laid end to end; only the last one may be narrower. A
tiling grows at its end while it is full, and is closed by a last window.

## Main definitions

- `FullTiles` — full windows from one point to another
- `Tiles` — the same, with a last window of at most the width
-/

namespace Wafer.Lib

/-- Full windows from `lo` to `hi`. -/
inductive FullTiles (width : ℕ) : ℕ → List (ℕ × ℕ) → ℕ → Prop
  | nil (lo : ℕ) : FullTiles width lo [] lo
  | cons {lo hi : ℕ} {ws : List (ℕ × ℕ)} (rest : FullTiles width (lo + width) ws hi) :
    FullTiles width lo ((lo, lo + width) :: ws) hi

/-- Windows from `lo` to `hi`, full but for the last, which is not empty. -/
inductive Tiles (width : ℕ) : ℕ → List (ℕ × ℕ) → ℕ → Prop
  | nil (lo : ℕ) : Tiles width lo [] lo
  | last {lo hi : ℕ} (pos : lo < hi) (le : hi ≤ lo + width) : Tiles width lo [(lo, hi)] hi
  | cons {lo hi : ℕ} {ws : List (ℕ × ℕ)} (rest : Tiles width (lo + width) ws hi) :
    Tiles width lo ((lo, lo + width) :: ws) hi

variable {width lo mid hi : ℕ} {ws : List (ℕ × ℕ)}

theorem FullTiles.snoc (h : FullTiles width lo ws mid) :
    FullTiles width lo (ws ++ [(mid, mid + width)]) (mid + width) := by
  induction h with
  | nil lo => exact .cons (.nil _)
  | cons rest ih => exact .cons ih

theorem FullTiles.tiles (h : FullTiles width lo ws hi) : Tiles width lo ws hi := by
  induction h with
  | nil lo => exact .nil lo
  | cons rest ih => exact .cons ih

/-- A full tiling closed by one more window. -/
theorem FullTiles.close (h : FullTiles width lo ws mid) (pos : mid < hi) (le : hi ≤ mid + width) :
    Tiles width lo (ws ++ [(mid, hi)]) hi := by
  induction h with
  | nil lo => exact .last pos le
  | cons rest ih => exact .cons (ih pos le)

/-- The first window begins at the start, is not empty, and is full unless it is the last. -/
theorem Tiles.head (hw : 0 < width) {w : ℕ × ℕ} (h : Tiles width lo (w :: ws) hi) :
    w.1 = lo ∧ lo < w.2 ∧ w.2 ≤ lo + width ∧ (ws = [] ∨ w.2 = lo + width) ∧
      Tiles width w.2 ws hi := by
  cases h with
  | last pos le => exact ⟨rfl, pos, le, .inl rfl, .nil _⟩
  | cons rest => exact ⟨rfl, Nat.lt_add_of_pos_right hw, Nat.le_refl _, .inr rfl, rest⟩

end Wafer.Lib
