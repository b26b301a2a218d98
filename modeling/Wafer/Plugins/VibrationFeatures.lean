import Mathlib.Algebra.BigOperators.Intervals
import Mathlib.Data.Rat.Floor
import Mathlib.Tactic.Linarith
import Mathlib.Tactic.NormNum

/-!
# The vibration features plugin

The band energies of the transform guest: the squares of a spectrum's
magnitudes, summed over the bins of a band. Frequencies and magnitudes are
exact. The guest has 32-bit addresses, so a spectrum is no longer than that.

## Main definitions

- `VibrationFeatures.computeBandEnergy`, `bandEnergies`
- `Spectrum.bandBins` — the bins a band takes
- `BandEdges` — the edges of bands one behind the other

## Main results

- `Spectrum.mem_bandBins` — which bins these are
- `BandEdges.partition_iff` — when such bands share out the spectrum
-/

namespace Wafer.VibrationFeatures

/-- Largest `usize` of the guest. -/
def usizeMax : ℕ := 2 ^ 32 - 1

/-- The cast of a whole number to `usize`. -/
def asUsize (n : ℤ) : ℕ := min n.toNat usizeMax

def computeBandEnergy (magnitudes : List ℚ) (lowHz highHz sampleRate : ℚ) (fftSize : ℕ) : ℚ :=
  let freqResolution := sampleRate / fftSize
  let lowBin := asUsize ⌈lowHz / freqResolution⌉
  let highBin := asUsize ⌊highHz / freqResolution⌋
  let highBin := min highBin magnitudes.length
  if highBin ≤ lowBin then 0
  else (((magnitudes.drop lowBin).take (highBin - lowBin)).map fun m => m * m).sum

structure VibConfig where
  sampleRate : ℚ
  fftSize : ℕ
  bands : List (ℚ × ℚ)

/-- `validate` of a configuration that is read. -/
def validate (c : VibConfig) : Option String :=
  if c.fftSize = 0 ∨ Nat.land c.fftSize (c.fftSize - 1) ≠ 0 then some "fft_size must be a power of 2"
  else if c.sampleRate ≤ 0 then some "sample_rate must be positive"
  else none

/-- The energies a message is answered with. -/
def bandEnergies (cfg : VibConfig) (magnitudes : List ℚ) : List ℚ :=
  cfg.bands.map fun band =>
    computeBandEnergy magnitudes band.1 band.2 cfg.sampleRate cfg.fftSize

/-- Magnitudes, with the rate and size they were computed at. -/
structure Spectrum where
  magnitudes : List ℚ
  sampleRate : ℚ
  fftSize : ℕ
  length_le : magnitudes.length ≤ usizeMax
  sampleRate_pos : 0 < sampleRate
  fftSize_pos : 0 < fftSize

namespace Spectrum

variable (s : Spectrum) (lowHz highHz : ℚ)

/-- The place of a frequency on the scale of the bins. -/
def place (hz : ℚ) : ℚ := hz / (s.sampleRate / s.fftSize)

def energy : ℚ := computeBandEnergy s.magnitudes lowHz highHz s.sampleRate s.fftSize

/-- The bins whose magnitudes a band adds up. -/
def bandBins : Finset ℕ :=
  Finset.Ico (asUsize ⌈s.place lowHz⌉) (min (asUsize ⌊s.place highHz⌋) s.magnitudes.length)

variable {s lowHz highHz} {k : ℕ}

theorem sum_map_eq (f : ℚ → ℚ) (values : List ℚ) :
    (values.map f).sum = ∑ k ∈ Finset.range values.length, f (values.getD k 0) := by
  induction values with
  | nil => rfl
  | cons value values ih =>
    rw [List.map_cons, List.sum_cons, List.length_cons, Finset.sum_range_succ', ih, add_comm]
    rfl

/-- The energy of a band is that of its bins. -/
theorem energy_eq : s.energy lowHz highHz =
    ∑ k ∈ s.bandBins lowHz highHz, s.magnitudes.getD k 0 * s.magnitudes.getD k 0 := by
  rw [energy, computeBandEnergy, bandBins, place, place]
  generalize asUsize ⌈lowHz / (s.sampleRate / s.fftSize)⌉ = low
  have hclip := min_le_right (asUsize ⌊highHz / (s.sampleRate / s.fftSize)⌋) s.magnitudes.length
  generalize min (asUsize ⌊highHz / (s.sampleRate / s.fftSize)⌋) s.magnitudes.length = high at *
  split
  · next h => rw [Finset.Ico_eq_empty_of_le h, Finset.sum_empty]
  · rw [sum_map_eq, Finset.sum_Ico_eq_sum_range]
    have hlength : ((s.magnitudes.drop low).take (high - low)).length = high - low := by
      rw [List.length_take, List.length_drop]
      omega
    rw [hlength]
    refine Finset.sum_congr rfl fun k hk => ?_
    have hget : ((s.magnitudes.drop low).take (high - low)).getD k 0 =
        s.magnitudes.getD (low + k) 0 := by
      rw [List.getD_eq_getElem?_getD, List.getD_eq_getElem?_getD, List.getElem?_take,
        if_pos (Finset.mem_range.mp hk), List.getElem?_drop]
    rw [hget]

theorem place_mono (s : Spectrum) {a b : ℚ} (h : a ≤ b) : s.place a ≤ s.place b := by
  have hsize : (0 : ℚ) < s.fftSize := Nat.cast_pos.mpr s.fftSize_pos
  exact div_le_div_of_nonneg_right h (div_pos s.sampleRate_pos hsize).le

/-- A band takes the bins that lie in it with the step up to the next one. -/
theorem mem_bandBins : k ∈ s.bandBins lowHz highHz ↔
    s.place lowHz ≤ k ∧ (k : ℚ) + 1 ≤ s.place highHz ∧ k < s.magnitudes.length := by
  have hlength := s.length_le
  rw [bandBins, Finset.mem_Ico, lt_min_iff]
  have hlow : k < s.magnitudes.length → (asUsize ⌈s.place lowHz⌉ ≤ k ↔ s.place lowHz ≤ k) := by
    intro hk
    have hceil : ⌈s.place lowHz⌉ ≤ (k : ℤ) ↔ s.place lowHz ≤ k := by
      rw [Int.ceil_le]
      norm_cast
    rw [← hceil, asUsize]
    omega
  have hhigh : k < s.magnitudes.length →
      (k < asUsize ⌊s.place highHz⌋ ↔ (k : ℚ) + 1 ≤ s.place highHz) := by
    intro hk
    have hfloor : (k : ℤ) + 1 ≤ ⌊s.place highHz⌋ ↔ (k : ℚ) + 1 ≤ s.place highHz := by
      rw [Int.le_floor]
      norm_cast
    rw [← hfloor, asUsize]
    omega
  constructor
  · rintro ⟨hlo, hhi, hk⟩
    exact ⟨(hlow hk).mp hlo, (hhigh hk).mp hhi, hk⟩
  · rintro ⟨hlo, hhi, hk⟩
    exact ⟨(hlow hk).mpr hlo, (hhigh hk).mpr hhi, hk⟩

end Spectrum

/-- Edges of bands one behind the other. -/
structure BandEdges where
  bands : ℕ
  edge : ℕ → ℚ
  edge_nonneg : 0 ≤ edge 0
  edge_le : ∀ i < bands, edge i ≤ edge (i + 1)

namespace BandEdges

variable (e : BandEdges) (s : Spectrum)

/-- The bins of band `i`. -/
def bins (i : ℕ) : Finset ℕ := s.bandBins (e.edge i) (e.edge (i + 1))

/-- The bins between the first edge and the last. -/
def whole : Finset ℕ := s.bandBins (e.edge 0) (e.edge e.bands)

/-- The bins with an inner edge between themselves and the next one. -/
def leftOut : Finset ℕ :=
  (e.whole s).filter fun k => ∃ i < e.bands,
    0 < i ∧ (k : ℚ) < s.place (e.edge i) ∧ s.place (e.edge i) < k + 1

/-- The bands add up to the whole, and every bin of the whole is in one of them. -/
def Partitions : Prop :=
  ∑ i ∈ Finset.range e.bands, s.energy (e.edge i) (e.edge (i + 1)) =
      s.energy (e.edge 0) (e.edge e.bands) ∧
    ∀ k ∈ e.whole s, ∃! i, i < e.bands ∧ k ∈ e.bins s i

variable {e s} {i j k : ℕ}

theorem edge_mono (hij : i ≤ j) (hj : j ≤ e.bands) : e.edge i ≤ e.edge j := by
  induction j, hij using Nat.le_induction with
  | base => exact le_rfl
  | succ j _ ih => exact (ih (by omega)).trans (e.edge_le j (by omega))

theorem place_edge_mono (hij : i ≤ j) (hj : j ≤ e.bands) :
    s.place (e.edge i) ≤ s.place (e.edge j) :=
  s.place_mono (edge_mono hij hj)

theorem bins_subset (hi : i < e.bands) : e.bins s i ⊆ e.whole s := by
  intro k hk
  obtain ⟨hlo, hhi, hlength⟩ := Spectrum.mem_bandBins.mp hk
  exact Spectrum.mem_bandBins.mpr ⟨(place_edge_mono (Nat.zero_le i) hi.le).trans hlo,
    hhi.trans (place_edge_mono hi le_rfl), hlength⟩

/-- No bin is in two bands. -/
theorem bins_unique (hi : i < e.bands) (hj : j < e.bands) (hki : k ∈ e.bins s i)
    (hkj : k ∈ e.bins s j) : i = j := by
  have hapart : ∀ {i j}, i < j → j < e.bands → k ∈ e.bins s i → k ∉ e.bins s j := by
    intro i j hij hj hki hkj
    have hhi := (Spectrum.mem_bandBins.mp hki).2.1
    have hlo := (Spectrum.mem_bandBins.mp hkj).1
    have hedge : s.place (e.edge (i + 1)) ≤ s.place (e.edge j) := place_edge_mono hij hj.le
    linarith
  rcases lt_trichotomy i j with hlt | heq | hgt
  · exact absurd hkj (hapart hlt hj hki)
  · exact heq
  · exact absurd hki (hapart hgt hi hkj)

theorem not_leftOut (hi : i < e.bands) (hk : k ∈ e.bins s i) : k ∉ e.leftOut s := by
  intro hleft
  obtain ⟨-, j, hbands, -, hlt, hgt⟩ := Finset.mem_filter.mp hleft
  obtain ⟨hlo, hhi, -⟩ := Spectrum.mem_bandBins.mp hk
  rcases Nat.lt_or_ge i j with hij | hji
  · have hedge : s.place (e.edge (i + 1)) ≤ s.place (e.edge j) := place_edge_mono hij hbands.le
    linarith
  · have hedge : s.place (e.edge j) ≤ s.place (e.edge i) := place_edge_mono hji hi.le
    linarith

/-- A bin of the whole is in the band that ends with the first edge behind it, unless that edge
comes before the next bin. -/
theorem exists_band (hk : k ∈ e.whole s) (hleft : k ∉ e.leftOut s) :
    ∃ i < e.bands, k ∈ e.bins s i := by
  obtain ⟨hlo, hhi, hlength⟩ := Spectrum.mem_bandBins.mp hk
  have hbehind : ∃ j, (k : ℚ) < s.place (e.edge j) := ⟨e.bands, by linarith⟩
  have hj := Nat.find_spec hbehind
  have hmin : ∀ {i}, i < Nat.find hbehind → s.place (e.edge i) ≤ k :=
    fun h => not_lt.mp (Nat.find_min hbehind h)
  have hbands : Nat.find hbehind ≤ e.bands := Nat.find_min' hbehind (by linarith)
  generalize Nat.find hbehind = j at hj hmin hbands
  cases j with
  | zero => exact absurd hlo (not_le.mpr hj)
  | succ i =>
    refine ⟨i, hbands, Spectrum.mem_bandBins.mpr ⟨hmin (Nat.lt_succ_self i), ?_, hlength⟩⟩
    rcases hbands.eq_or_lt with heq | hlt
    · rw [heq]
      exact hhi
    · by_contra hshort
      apply hleft
      exact Finset.mem_filter.mpr ⟨hk, i + 1, hlt, Nat.succ_pos i, hj, not_le.mp hshort⟩

/-- The whole is what the bands add up to and the bins left out. -/
theorem sum_energy (e : BandEdges) (s : Spectrum) :
    ∑ i ∈ Finset.range e.bands, s.energy (e.edge i) (e.edge (i + 1)) +
        ∑ k ∈ e.leftOut s, s.magnitudes.getD k 0 * s.magnitudes.getD k 0 =
      s.energy (e.edge 0) (e.edge e.bands) := by
  have hwhole : e.whole s = (Finset.range e.bands).biUnion (e.bins s) ∪ e.leftOut s := by
    ext k
    rw [Finset.mem_union, Finset.mem_biUnion]
    constructor
    · intro hk
      by_cases hleft : k ∈ e.leftOut s
      · exact .inr hleft
      · obtain ⟨i, hi, hki⟩ := exists_band hk hleft
        exact .inl ⟨i, Finset.mem_range.mpr hi, hki⟩
    · rintro (⟨i, hi, hki⟩ | hleft)
      · exact bins_subset (Finset.mem_range.mp hi) hki
      · exact (Finset.mem_filter.mp hleft).1
  have hdisjoint : Disjoint ((Finset.range e.bands).biUnion (e.bins s)) (e.leftOut s) := by
    rw [Finset.disjoint_left]
    intro k hk
    obtain ⟨i, hi, hki⟩ := Finset.mem_biUnion.mp hk
    exact not_leftOut (Finset.mem_range.mp hi) hki
  have hbands : Set.PairwiseDisjoint (Finset.range e.bands : Set ℕ) (e.bins s) := by
    intro i hi j hj hne
    refine Finset.disjoint_left.mpr fun k hki hkj => hne ?_
    exact bins_unique (Finset.mem_range.mp hi) (Finset.mem_range.mp hj) hki hkj
  rw [Spectrum.energy_eq, ← whole, hwhole, Finset.sum_union hdisjoint, Finset.sum_biUnion hbands]
  congr 1
  exact Finset.sum_congr rfl fun i _ => Spectrum.energy_eq

/-- Bands one behind the other share out the bins between the first and the last edge exactly when
no inner edge lies between two bins, the lower one among those. -/
theorem partition_iff (e : BandEdges) (s : Spectrum) :
    e.Partitions s ↔ ∀ k ∈ e.whole s, ∀ i, 0 < i → i < e.bands →
      ¬ ((k : ℚ) < s.place (e.edge i) ∧ s.place (e.edge i) < k + 1) := by
  have hempty : (∀ k ∈ e.whole s, ∀ i, 0 < i → i < e.bands →
      ¬ ((k : ℚ) < s.place (e.edge i) ∧ s.place (e.edge i) < k + 1)) ↔ e.leftOut s = ∅ := by
    rw [leftOut, Finset.filter_eq_empty_iff]
    constructor
    · rintro h k hk ⟨i, hi, hpos, hinside⟩
      exact h k hk i hpos hi hinside
    · intro h k hk i hpos hi hinside
      exact h hk ⟨i, hi, hpos, hinside⟩
  rw [hempty]
  constructor
  · rintro ⟨-, hone⟩
    rw [Finset.eq_empty_iff_forall_notMem]
    intro k hleft
    obtain ⟨i, ⟨hi, hki⟩, -⟩ := hone k (Finset.mem_filter.mp hleft).1
    exact not_leftOut hi hki hleft
  · intro hleft
    refine ⟨?_, fun k hk => ?_⟩
    · rw [← sum_energy, hleft, Finset.sum_empty, add_zero]
    · obtain ⟨i, hi, hki⟩ := exists_band hk (by simp [hleft])
      exact ⟨i, ⟨hi, hki⟩, fun j hj => bins_unique hj.1 hi hj.2 hki⟩

/-- 32 points at 1 kHz, every magnitude one. -/
def flatSpectrum : Spectrum where
  magnitudes := List.replicate 16 1
  sampleRate := 1000
  fftSize := 32
  length_le := by decide
  sampleRate_pos := by norm_num
  fftSize_pos := by norm_num

/-- The bands of the large benchmark pipeline: 0 to 100 Hz, 100 to 400 Hz. -/
def benchBands : BandEdges where
  bands := 2
  edge i := [0, 100, 400].getD i 400
  edge_nonneg := by decide
  edge_le := by decide

/-- Bin 3 at 93.75 Hz is in neither band. -/
theorem benchBands_leave_out :
    flatSpectrum.energy 0 100 = 3 ∧ flatSpectrum.energy 100 400 = 8 ∧
      flatSpectrum.energy 0 400 = 12 ∧ ¬ benchBands.Partitions flatSpectrum := by
  have hlow : flatSpectrum.energy 0 100 = 3 := by decide +kernel
  have hhigh : flatSpectrum.energy 100 400 = 8 := by decide +kernel
  have hwhole : flatSpectrum.energy 0 400 = 12 := by decide +kernel
  refine ⟨hlow, hhigh, hwhole, ?_⟩
  rintro ⟨hsum, -⟩
  have hbands : ∑ i ∈ Finset.range 2, flatSpectrum.energy (benchBands.edge i)
      (benchBands.edge (i + 1)) = flatSpectrum.energy 0 100 + flatSpectrum.energy 100 400 := by
    rw [Finset.sum_range_succ, Finset.sum_range_one]
    rfl
  have heq : flatSpectrum.energy 0 100 + flatSpectrum.energy 100 400 =
      flatSpectrum.energy 0 400 := hbands.symm.trans hsum
  rw [hlow, hhigh, hwhole] at heq
  exact absurd heq (by norm_num)

end BandEdges

end Wafer.VibrationFeatures
