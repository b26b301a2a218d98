import Wafer.Lib.Buckets
import Wafer.Lib.Json
import Wafer.Types.Measurement

/-!
# One-second interval rows

The row of `interval-latency.json`, which the bench sink and the subscriber
declare alike, and what it means that rows count samples by the second. Both
recorders close seconds from 0 on and keep only the sums of the open one.

## Main definitions

- `IntervalLatencyRow`, `IntervalSample`
- `secondRow` — the row made of one second
- `CountsBySecond` — the rows count every sample in its second
- `BySecond` — the same of a recorder that is still open
-/

namespace Wafer

open Lib

/-- `INTERVAL_WIDTH_NS` -/
def intervalWidthNs : ℕ := 1000000000

structure IntervalLatencyRow where
  intervalStartNs : ℕ
  intervalEndNs : ℕ
  intervalStartUnixEpochNs : ℕ
  intervalEndUnixEpochNs : ℕ
  latencyCount : ℕ
  latencyP50Ns : Option ℕ
  latencyP95Ns : Option ℕ
  latencyP99Ns : Option ℕ
  receivedEvents : ℕ
  throughputMessages : ℕ
  duplicates : ℕ
  deriving DecidableEq, Repr

def optionalNs : Option ℕ → Json
  | none => .null
  | some ns => .int ns

/-- The members a row is serialised to. -/
def IntervalLatencyRow.members (row : IntervalLatencyRow) : Dict := [
  ("interval_start_ns", .int row.intervalStartNs),
  ("interval_end_ns", .int row.intervalEndNs),
  ("interval_start_unix_epoch_ns", .int row.intervalStartUnixEpochNs),
  ("interval_end_unix_epoch_ns", .int row.intervalEndUnixEpochNs),
  ("latency_count", .int row.latencyCount),
  ("latency_p50_ns", optionalNs row.latencyP50Ns),
  ("latency_p95_ns", optionalNs row.latencyP95Ns),
  ("latency_p99_ns", optionalNs row.latencyP99Ns),
  ("received_events", .int row.receivedEvents),
  ("throughput_messages", .int row.throughputMessages),
  ("duplicates", .int row.duplicates)]

/-- The row of second `bucket`, `widthNs` wide, with the latencies and counts of it; `quantile` is
the histogram's. -/
def secondRow (quantile : List Latency → ℚ → ℕ) (measurementStartUnixEpochNs bucket widthNs : ℕ)
    (histogram : List Latency) (events unique duplicates : ℕ) : IntervalLatencyRow :=
  let startNs := satMul bucket intervalWidthNs
  let endNs := satAdd startNs widthNs
  let count := histogram.length
  let percentile (q : ℚ) := if 0 < count then some (quantile histogram q) else none
  { intervalStartNs := startNs
    intervalEndNs := endNs
    intervalStartUnixEpochNs := satAdd measurementStartUnixEpochNs startNs
    intervalEndUnixEpochNs := satAdd measurementStartUnixEpochNs endNs
    latencyCount := count
    latencyP50Ns := percentile (1 / 2)
    latencyP95Ns := percentile (19 / 20)
    latencyP99Ns := percentile (99 / 100)
    receivedEvents := events
    throughputMessages := unique
    duplicates }

section SecondRow

variable {quantile : List Latency → ℚ → ℕ} {epochNs bucket widthNs : ℕ} {histogram : List Latency}
  {events unique duplicates : ℕ}

theorem secondRow_start (hfit : bucket * intervalWidthNs ≤ u64Max) :
    (secondRow quantile epochNs bucket widthNs histogram events unique duplicates).intervalStartNs =
      bucket * intervalWidthNs := by
  apply satMul_of_lt
  simp only [u64Max] at hfit
  omega

theorem secondRow_end (hfit : (bucket + 1) * intervalWidthNs ≤ u64Max) :
    (secondRow quantile epochNs bucket intervalWidthNs histogram events unique
      duplicates).intervalEndNs = (bucket + 1) * intervalWidthNs := by
  have hmax : u64Max < 2 ^ 64 := by decide
  rw [Nat.add_mul, Nat.one_mul] at hfit ⊢
  simp only [secondRow]
  rw [satMul_of_lt (by omega)]
  exact satAdd_of_lt (by omega)

end SecondRow

/-- The second a close leads to from an open one: its own, unless that is behind. -/
theorem closing_second {current elapsedNs : ℕ} (hbegun : current * intervalWidthNs ≤ u64Max)
    (hfit : elapsedNs ≤ u64Max) :
    current + ((elapsedNs - 1) / intervalWidthNs - current) =
        max current ((elapsedNs - 1) / intervalWidthNs) ∧
      max current ((elapsedNs - 1) / intervalWidthNs) * intervalWidthNs ≤ u64Max := by
  have hlast : (elapsedNs - 1) / intervalWidthNs * intervalWidthNs ≤ elapsedNs - 1 :=
    Nat.div_mul_le_self ..
  refine ⟨by omega, ?_⟩
  obtain hle | hle := Nat.le_total current ((elapsedNs - 1) / intervalWidthNs)
  · rw [Nat.max_eq_right hle]
    omega
  · rw [Nat.max_eq_left hle]
    exact hbegun

/-- One recorded sample: its time since the measurement began and whether it came before. -/
structure IntervalSample where
  elapsedNs : ℕ
  duplicate : Bool
  deriving DecidableEq, Repr

namespace IntervalSample

def second (s : IntervalSample) : ℕ := s.elapsedNs / intervalWidthNs

/-- What a sample adds to its row: an event, and a first arrival or a duplicate. -/
def weight (s : IntervalSample) : ℕ × ℕ × ℕ :=
  (1, if s.duplicate then 0 else 1, if s.duplicate then 1 else 0)

theorem sum_weight (samples : List IntervalSample) :
    (samples.map weight).sum =
      (samples.length, samples.countP (!·.duplicate), samples.countP (·.duplicate)) := by
  induction samples with
  | nil => rfl
  | cons s samples ih =>
    rw [List.map_cons, List.sum_cons, ih]
    cases hd : s.duplicate with
    | true => simp [weight, hd, Nat.add_comm]
    | false => simp [weight, hd, Nat.add_comm]

end IntervalSample

/-- What a row says of its samples. -/
def IntervalLatencyRow.tally (row : IntervalLatencyRow) : ℕ × ℕ × ℕ :=
  (row.receivedEvents, row.throughputMessages, row.duplicates)

/-- The rows are contiguous from 0 and count every sample in its second. -/
structure CountsBySecond (samples : List IntervalSample) (rows : List IntervalLatencyRow) : Prop where
  starts : ∀ (k : ℕ) row, rows[k]? = some row → row.intervalStartNs = k * intervalWidthNs
  contiguous : ∀ (k : ℕ) row next, rows[k]? = some row → rows[k + 1]? = some next →
    row.intervalEndNs = next.intervalStartNs
  counted : ∀ (k : ℕ) row, rows[k]? = some row →
    row.receivedEvents = (samples.filter (·.second = k)).length ∧
      row.throughputMessages = (samples.filter (·.second = k)).countP (!·.duplicate) ∧
      row.duplicates = (samples.filter (·.second = k)).countP (·.duplicate)
  covered : ∀ s ∈ samples, s.second < rows.length
  receivedEvents : (rows.map (·.receivedEvents)).sum = samples.length
  throughputMessages : (rows.map (·.throughputMessages)).sum = samples.countP (!·.duplicate)
  duplicates : (rows.map (·.duplicates)).sum = samples.countP (·.duplicate)

/-- The rows of the seconds before `current` are full, and `open_` is what `current` has so far. -/
structure BySecond (samples : List IntervalSample) (current : ℕ) (rows : List IntervalLatencyRow)
    (open_ : ℕ × ℕ × ℕ) : Prop where
  bucketed : Bucketed IntervalSample.second IntervalSample.weight samples current
    (rows.map (·.tally)) open_
  full : ∀ (k : ℕ) row, rows[k]? = some row →
    row.intervalStartNs = k * intervalWidthNs ∧ row.intervalEndNs = (k + 1) * intervalWidthNs

namespace BySecond

variable {samples : List IntervalSample} {current : ℕ} {rows : List IntervalLatencyRow}
  {open_ : ℕ × ℕ × ℕ} {row : IntervalLatencyRow}

theorem start : BySecond [] 0 [] 0 :=
  ⟨.start, fun _ _ h => nomatch h⟩

theorem length (h : BySecond samples current rows open_) : rows.length = current := by
  have hlength := h.bucketed.length
  rwa [List.length_map] at hlength

theorem add (h : BySecond samples current rows open_) {s : IntervalSample}
    (hs : s.second = current) : BySecond (samples ++ [s]) current rows (open_ + s.weight) :=
  ⟨h.bucketed.add hs, h.full⟩

/-- A full row closes the second. -/
theorem close (h : BySecond samples current rows open_) (htally : row.tally = open_)
    (hstart : row.intervalStartNs = current * intervalWidthNs)
    (hend : row.intervalEndNs = (current + 1) * intervalWidthNs) :
    BySecond samples (current + 1) (rows ++ [row]) 0 := by
  constructor
  · rw [List.map_append, List.map_cons, List.map_nil, htally]
    exact h.bucketed.close
  · intro k r hr
    rw [List.getElem?_append, h.length] at hr
    split at hr
    · exact h.full k r hr
    · next hk =>
      obtain ⟨hlt, rfl⟩ := List.getElem?_eq_some_iff.mp hr
      rw [List.length_singleton] at hlt
      obtain rfl : k = current := by omega
      simp only [List.getElem_singleton]
      exact ⟨hstart, hend⟩

/-- The last row may end before its second is over. -/
theorem finish (h : BySecond samples current rows open_) (htally : row.tally = open_)
    (hstart : row.intervalStartNs = current * intervalWidthNs) :
    CountsBySecond samples (rows ++ [row]) := by
  have hclosed : Bucketed IntervalSample.second IntervalSample.weight samples (current + 1)
      ((rows ++ [row]).map (·.tally)) 0 := by
    rw [List.map_append, List.map_cons, List.map_nil, htally]
    exact h.bucketed.close
  have hstarts : ∀ (k : ℕ) r, (rows ++ [row])[k]? = some r →
      r.intervalStartNs = k * intervalWidthNs := by
    intro k r hr
    rw [List.getElem?_append, h.length] at hr
    split at hr
    · exact (h.full k r hr).1
    · next hk =>
      obtain ⟨hlt, rfl⟩ := List.getElem?_eq_some_iff.mp hr
      rw [List.length_singleton] at hlt
      obtain rfl : k = current := by omega
      simpa only [List.getElem_singleton] using hstart
  have htotal := hclosed.total
  rw [add_zero, IntervalSample.sum_weight] at htotal
  have hsums : ∀ rs : List IntervalLatencyRow, (rs.map (·.tally)).sum =
      ((rs.map (·.receivedEvents)).sum, (rs.map (·.throughputMessages)).sum,
        (rs.map (·.duplicates)).sum) := by
    intro rs
    induction rs with
    | nil => rfl
    | cons r rs ih =>
      simp only [List.map_cons, List.sum_cons, ih]
      rfl
  rw [hsums, Prod.mk.injEq, Prod.mk.injEq] at htotal
  refine ⟨hstarts, ?_, ?_, ?_, htotal.1, htotal.2.1, htotal.2.2⟩
  · intro k r next hr hnext
    rw [hstarts (k + 1) next hnext]
    obtain ⟨hlt, -⟩ := List.getElem?_eq_some_iff.mp hnext
    rw [List.length_append, List.length_singleton] at hlt
    rw [List.getElem?_append_left (by omega)] at hr
    exact (h.full k r hr).2
  · intro k r hr
    have htallied : ((rows ++ [row]).map (·.tally))[k]? = some r.tally := by
      rw [List.getElem?_map, hr]
      rfl
    have hsum := hclosed.closed_eq htallied
    rw [bucketSum, IntervalSample.sum_weight, IntervalLatencyRow.tally, Prod.mk.injEq,
      Prod.mk.injEq] at hsum
    exact hsum
  · intro s hs
    have hle := h.bucketed.below s hs
    rw [List.length_append, List.length_singleton, h.length]
    omega

end BySecond

end Wafer
