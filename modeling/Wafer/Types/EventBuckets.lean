import Wafer.Lib.Double
import Wafer.Lib.Json
import Wafer.Lib.Windows
import Wafer.Types.Measurement

/-!
# Throughput buckets around an event

`event_buckets` of the subscriber and `fine_event_buckets` of the bench sink are
one function, but for the grid: contiguous buckets of one width around the time
of an event, each with its first arrivals and duplicates. A sample is anything
with a time and a duplicate mark.

## Main definitions

- `signedOffset`, `eventBuckets`, `bucketTotals`
- `CountsByOffset` — the buckets count the samples by their offset

## Main results

- `eventBuckets_counts` — the loop counts every sample in the bucket of its offset
- `CountsByOffset.nested`, `CountsByOffset.totals_eq` — two grids of the same coverage
- `CountsByOffset.of_filter_iff` — the buckets of the kept samples
-/

namespace Wafer

open Lib

def i64Max : ℤ := 2 ^ 63 - 1

def i64Min : ℤ := -2 ^ 63

/-- A signed operation that saturates. -/
def satI64 (x : ℤ) : ℤ := max i64Min (min x i64Max)

theorem satI64_of_mem {x : ℤ} (hlo : i64Min ≤ x) (hhi : x ≤ i64Max) : satI64 x = x := by
  rw [satI64, min_eq_left hhi, max_eq_right hlo]

/-- `u32::try_from(n).unwrap_or(u32::MAX)`. -/
def toU32 (n : ℤ) : ℤ := if 0 ≤ n ∧ n < 2 ^ 32 then n else 2 ^ 32 - 1

def signedOffset (timestampNs referenceNs : ℕ) : ℤ :=
  if referenceNs ≤ timestampNs then min ((timestampNs - referenceNs : ℕ) : ℤ) i64Max
  else -min ((referenceNs - timestampNs : ℕ) : ℤ) i64Max

/-- Within the signed range the offset is the difference. -/
theorem signedOffset_mem_iff {timestampNs referenceNs : ℕ} {lo hi : ℤ} (hlo : -i64Max < lo)
    (hhi : hi ≤ i64Max) : (lo ≤ signedOffset timestampNs referenceNs ∧
      signedOffset timestampNs referenceNs < hi) ↔
    lo ≤ (timestampNs : ℤ) - referenceNs ∧ (timestampNs : ℤ) - referenceNs < hi := by
  simp only [signedOffset]
  split <;> omega

structure EventBucket where
  startOffsetNs : ℤ
  endOffsetNs : ℤ
  receivedUnique : ℕ
  receivedEvents : ℕ
  duplicates : ℕ
  rateMsgS : ℚ
  deriving DecidableEq, Repr

/-- The members a bucket is serialised to. -/
def EventBucket.members (bucket : EventBucket) : Dict := [
  ("start_offset_ns", .int bucket.startOffsetNs),
  ("end_offset_ns", .int bucket.endOffsetNs),
  ("received_unique", .int bucket.receivedUnique),
  ("received_events", .int bucket.receivedEvents),
  ("duplicates", .int bucket.duplicates),
  ("rate_msg_s", .float bucket.rateMsgS)]

/-- The rate in double precision, from counts bounded to 32 bits. -/
def rateMsgS (receivedUnique : ℕ) (widthNs : ℤ) : ℚ :=
  toDouble (toDouble (toU32 receivedUnique * 1000000000) / toU32 widthNs)

/-- The counters of the loop over the samples. -/
structure EventCounters where
  unique : List ℕ
  events : List ℕ
  duplicates : List ℕ
  deriving DecidableEq, Repr

namespace EventCounters

def zero (count : ℕ) : EventCounters :=
  ⟨List.replicate count 0, List.replicate count 0, List.replicate count 0⟩

/-- One sample. There is a counter of each kind at the index or there is none. -/
def add (c : EventCounters) (index : ℕ) (duplicate : Bool) : EventCounters :=
  if index < c.events.length ∧ index < c.unique.length ∧ index < c.duplicates.length then
    { events := c.events.modify index (· + 1)
      unique := if duplicate then c.unique else c.unique.modify index (· + 1)
      duplicates := if duplicate then c.duplicates.modify index (· + 1) else c.duplicates }
  else c

end EventCounters

/-- The index of an offset; a division that fails gives the largest quotient, a negative quotient
the index past the end. -/
def bucketIndex (startOffsetNs widthNs : ℤ) (count : ℕ) (offset : ℤ) : ℕ :=
  let quotient :=
    if widthNs = 0 then i64Max
    else satI64 ((satI64 (offset - startOffsetNs)).tdiv widthNs)
  if 0 ≤ quotient then quotient.toNat else count

section Buckets

variable {α : Type*} (time : α → ℕ) (duplicate : α → Bool)

def countSamples (samples : List α) (eventTimestampNs : ℕ) (startOffsetNs widthNs : ℤ)
    (count : ℕ) : EventCounters :=
  let endOffsetNs := satI64 (startOffsetNs + satI64 (count * widthNs))
  samples.foldl (fun counters sample =>
    let offset := signedOffset (time sample) eventTimestampNs
    if startOffsetNs ≤ offset ∧ offset < endOffsetNs then
      counters.add (bucketIndex startOffsetNs widthNs count offset) (duplicate sample)
    else counters) (.zero count)

def eventBuckets (samples : List α) (eventTimestampNs : ℕ) (startOffsetNs widthNs : ℤ)
    (count : ℕ) : List EventBucket :=
  let counters := countSamples time duplicate samples eventTimestampNs startOffsetNs widthNs count
  ((counters.unique.zip counters.events).zip counters.duplicates).zipIdx.map
    fun ⟨⟨⟨receivedUnique, receivedEvents⟩, duplicates⟩, index⟩ =>
      let startOffsetNs := satI64 (startOffsetNs + satI64 (index * widthNs))
      { startOffsetNs
        endOffsetNs := satI64 (startOffsetNs + widthNs)
        receivedUnique
        receivedEvents
        duplicates
        rateMsgS := rateMsgS receivedUnique widthNs }

end Buckets

/-- First arrivals, events and duplicates of all buckets. -/
def bucketTotals (buckets : List EventBucket) : ℕ × ℕ × ℕ :=
  buckets.foldl (fun (unique, events, duplicates) bucket =>
    (unique + bucket.receivedUnique, events + bucket.receivedEvents,
      duplicates + bucket.duplicates)) (0, 0, 0)

/-! ## The grid of a coverage -/

/-- Contiguous buckets whose bounds stay in the signed range. -/
structure EventGrid where
  startOffsetNs : ℤ
  widthNs : ℤ
  count : ℕ
  width_pos : 0 < widthNs
  start_fits : -i64Max < startOffsetNs ∧ startOffsetNs ≤ 0
  stop_fits : count * widthNs ≤ i64Max

namespace EventGrid

variable (g : EventGrid)

def stopOffsetNs : ℤ := g.startOffsetNs + g.count * g.widthNs

theorem bound_fits {k : ℕ} (hk : k ≤ g.count) :
    satI64 (k * g.widthNs) = k * g.widthNs ∧
      satI64 (g.startOffsetNs + k * g.widthNs) = g.startOffsetNs + k * g.widthNs := by
  have hle : (k : ℤ) * g.widthNs ≤ g.count * g.widthNs :=
    mul_le_mul_of_nonneg_right (Int.ofNat_le.mpr hk) g.width_pos.le
  have hnonneg : 0 ≤ (k : ℤ) * g.widthNs :=
    mul_nonneg (Int.natCast_nonneg k) g.width_pos.le
  have hstart := g.start_fits
  have hstop := g.stop_fits
  have hmin : i64Min ≤ -i64Max := by decide
  have hneg : i64Min ≤ 0 := by decide
  exact ⟨satI64_of_mem (by linarith) (by linarith), satI64_of_mem (by linarith) (by linarith)⟩

/-- An offset of the coverage falls into one bucket. -/
theorem bucketIndex_eq_iff {offset : ℤ} (hlo : g.startOffsetNs ≤ offset)
    (hhi : offset < g.stopOffsetNs) (k : ℕ) :
    bucketIndex g.startOffsetNs g.widthNs g.count offset = k ↔
      g.startOffsetNs + k * g.widthNs ≤ offset ∧
        offset < g.startOffsetNs + (k + 1) * g.widthNs := by
  have hpos := g.width_pos
  have hstop := g.stop_fits
  have hneg : i64Min ≤ 0 := by decide
  rw [stopOffsetNs] at hhi
  have hdiff : satI64 (offset - g.startOffsetNs) = offset - g.startOffsetNs :=
    satI64_of_mem (by linarith) (by linarith)
  have hquotient : 0 ≤ (offset - g.startOffsetNs) / g.widthNs :=
    Int.ediv_nonneg (by linarith) hpos.le
  have hle : (offset - g.startOffsetNs) / g.widthNs ≤ offset - g.startOffsetNs :=
    Int.ediv_le_self _ (by linarith)
  have htdiv : satI64 ((offset - g.startOffsetNs).tdiv g.widthNs) =
      (offset - g.startOffsetNs) / g.widthNs := by
    rw [Int.tdiv_eq_ediv_of_nonneg (by linarith)]
    exact satI64_of_mem (by linarith) (by linarith)
  simp only [bucketIndex]
  rw [if_neg hpos.ne', hdiff, htdiv, if_pos hquotient]
  have hcell : (offset - g.startOffsetNs) / g.widthNs = k ↔
      (k : ℤ) * g.widthNs ≤ offset - g.startOffsetNs ∧
        offset - g.startOffsetNs < (k + 1) * g.widthNs := by
    rw [← Int.le_ediv_iff_mul_le hpos, ← Int.ediv_lt_iff_lt_mul hpos]
    omega
  have hnat : ((offset - g.startOffsetNs) / g.widthNs).toNat = k ↔
      (offset - g.startOffsetNs) / g.widthNs = k := by omega
  rw [hnat, hcell]
  constructor <;> rintro ⟨h₁, h₂⟩ <;> exact ⟨by linarith, by linarith⟩

theorem bucketIndex_lt {offset : ℤ} (hlo : g.startOffsetNs ≤ offset)
    (hhi : offset < g.stopOffsetNs) :
    bucketIndex g.startOffsetNs g.widthNs g.count offset < g.count := by
  have hcell := (g.bucketIndex_eq_iff hlo hhi _).mp rfl
  have hlt : (bucketIndex g.startOffsetNs g.widthNs g.count offset : ℤ) * g.widthNs <
      g.count * g.widthNs := by
    rw [stopOffsetNs] at hhi
    linarith
  exact Int.ofNat_lt.mp (lt_of_mul_lt_mul_right hlt g.width_pos.le)

end EventGrid

/-! ## What the buckets count -/

section Counts

variable {α : Type*} (time : α → ℕ) (duplicate : α → Bool)

/-- How far a sample is from the event. -/
def offsetFrom (eventTimestampNs : ℕ) (sample : α) : ℤ := (time sample : ℤ) - eventTimestampNs

/-- The buckets are the contiguous ones of the grid, and each counts the samples whose offset it
contains. -/
structure CountsByOffset (g : EventGrid) (eventTimestampNs : ℕ) (samples : List α)
    (buckets : List EventBucket) : Prop where
  length : buckets.length = g.count
  bounds : ∀ (k : ℕ) b, buckets[k]? = some b → b.startOffsetNs = g.startOffsetNs + k * g.widthNs ∧
    b.endOffsetNs = g.startOffsetNs + (k + 1) * g.widthNs
  counted : ∀ b ∈ buckets,
    let among := countIn (offsetFrom time eventTimestampNs) b.startOffsetNs b.endOffsetNs
    b.receivedEvents = among samples ∧ b.receivedUnique = among (samples.filter (!duplicate ·)) ∧
      b.duplicates = among (samples.filter duplicate)

variable {time duplicate} {g : EventGrid} {eventTimestampNs : ℕ} {samples : List α}
  {buckets : List EventBucket}

namespace EventGrid

variable (g)

/-- The test of the loop over the samples. -/
def contains (time : α → ℕ) (eventTimestampNs : ℕ) (sample : α) : Bool :=
  g.startOffsetNs ≤ signedOffset (time sample) eventTimestampNs ∧
    signedOffset (time sample) eventTimestampNs < g.stopOffsetNs

def indexOf (time : α → ℕ) (eventTimestampNs : ℕ) (sample : α) : ℕ :=
  bucketIndex g.startOffsetNs g.widthNs g.count (signedOffset (time sample) eventTimestampNs)

variable {g}

theorem indexOf_lt {sample : α} (h : g.contains time eventTimestampNs sample = true) :
    g.indexOf time eventTimestampNs sample < g.count := by
  simp only [contains, decide_eq_true_eq] at h
  exact g.bucketIndex_lt h.1 h.2

/-- The samples with index `k` are those in window `k`. -/
theorem indexOf_eq_iff {k : ℕ} (hk : k < g.count) (sample : α) :
    (g.contains time eventTimestampNs sample = true ∧
        g.indexOf time eventTimestampNs sample = k) ↔
      g.startOffsetNs + k * g.widthNs ≤ offsetFrom time eventTimestampNs sample ∧
        offsetFrom time eventTimestampNs sample < g.startOffsetNs + (k + 1) * g.widthNs := by
  have hpos := g.width_pos
  have hstart := g.start_fits
  have hstop := g.stop_fits
  have hwindow : 0 ≤ (k : ℤ) * g.widthNs := mul_nonneg (Int.natCast_nonneg k) hpos.le
  have hlast : ((k : ℤ) + 1) * g.widthNs ≤ g.count * g.widthNs :=
    mul_le_mul_of_nonneg_right (by omega) hpos.le
  have hoffset := @signedOffset_mem_iff (time sample) eventTimestampNs
    (g.startOffsetNs + k * g.widthNs) (g.startOffsetNs + (k + 1) * g.widthNs) (by linarith)
    (by linarith)
  rw [offsetFrom, ← hoffset]
  simp only [contains, indexOf, decide_eq_true_eq]
  constructor
  · rintro ⟨hin, hindex⟩
    exact (g.bucketIndex_eq_iff hin.1 hin.2 k).mp hindex
  · rintro ⟨hlo, hhi⟩
    have hin : g.startOffsetNs ≤ signedOffset (time sample) eventTimestampNs ∧
        signedOffset (time sample) eventTimestampNs < g.stopOffsetNs := by
      rw [stopOffsetNs]
      exact ⟨by linarith, by linarith⟩
    exact ⟨hin, (g.bucketIndex_eq_iff hin.1 hin.2 k).mpr ⟨hlo, hhi⟩⟩

end EventGrid

/-- The loop keeps a tally of the events, of the first arrivals and of the duplicates. -/
theorem countSamples_eq (g : EventGrid) (eventTimestampNs : ℕ) (samples : List α) :
    countSamples time duplicate samples eventTimestampNs g.startOffsetNs g.widthNs g.count =
      let index := g.indexOf time eventTimestampNs
      let contained := g.contains time eventTimestampNs
      { events := tally index contained g.count samples
        unique := tally index contained g.count (samples.filter (!duplicate ·))
        duplicates := tally index contained g.count (samples.filter duplicate) } := by
  have hstop : satI64 (g.startOffsetNs + satI64 (g.count * g.widthNs)) = g.stopOffsetNs := by
    rw [(g.bound_fits le_rfl).1, (g.bound_fits le_rfl).2]
    rfl
  induction samples using List.reverseRecOn with
  | nil => simp [countSamples, tally, EventCounters.zero]
  | append_singleton samples sample ih =>
    have hfold : countSamples time duplicate (samples ++ [sample]) eventTimestampNs
        g.startOffsetNs g.widthNs g.count =
        if g.contains time eventTimestampNs sample then
          (countSamples time duplicate samples eventTimestampNs g.startOffsetNs g.widthNs
            g.count).add (g.indexOf time eventTimestampNs sample) (duplicate sample)
        else countSamples time duplicate samples eventTimestampNs g.startOffsetNs g.widthNs
          g.count := by
      simp only [countSamples, List.foldl_append, List.foldl_cons, List.foldl_nil, hstop,
        EventGrid.contains, EventGrid.indexOf, decide_eq_true_eq]
    rw [hfold, ih]
    simp only [tally_concat, List.filter_append, List.filter_singleton]
    by_cases hin : g.contains time eventTimestampNs sample = true
    · have hindex := EventGrid.indexOf_lt hin
      simp only [hin, if_true, EventCounters.add, length_tally, hindex, and_self]
      cases hd : duplicate sample with
      | true => simp [tally_concat, hin]
      | false => simp [tally_concat, hin]
    · simp only [hin, if_false, Bool.false_eq_true]
      cases hd : duplicate sample with
      | true => simp [tally_concat, hin]
      | false => simp [tally_concat, hin]

/-- A counter of the tally is the count of its window. -/
theorem tally_getElem {k : ℕ} (hk : k < g.count) (samples : List α)
    (hlt : k < (tally (g.indexOf time eventTimestampNs) (g.contains time eventTimestampNs) g.count
      samples).length) :
    (tally (g.indexOf time eventTimestampNs) (g.contains time eventTimestampNs) g.count
        samples)[k] = countIn (offsetFrom time eventTimestampNs)
      (g.startOffsetNs + k * g.widthNs) (g.startOffsetNs + (k + 1) * g.widthNs) samples := by
  simp only [tally_eq, List.getElem_map, List.getElem_range, countIn]
  apply List.countP_congr
  intro sample _
  simp only [decide_eq_true_eq]
  exact EventGrid.indexOf_eq_iff hk sample

theorem eventBuckets_counts (g : EventGrid) (eventTimestampNs : ℕ) (samples : List α) :
    CountsByOffset time duplicate g eventTimestampNs samples
      (eventBuckets time duplicate samples eventTimestampNs g.startOffsetNs g.widthNs
        g.count) := by
  have hlength : (eventBuckets time duplicate samples eventTimestampNs g.startOffsetNs g.widthNs
      g.count).length = g.count := by
    simp only [eventBuckets, countSamples_eq, List.length_map, List.length_zipIdx,
      List.length_zip, length_tally, min_self]
  have hget : ∀ (k : ℕ) b, (eventBuckets time duplicate samples eventTimestampNs g.startOffsetNs
      g.widthNs g.count)[k]? = some b →
      b.startOffsetNs = g.startOffsetNs + k * g.widthNs ∧
        b.endOffsetNs = g.startOffsetNs + (k + 1) * g.widthNs ∧
        let among := countIn (offsetFrom time eventTimestampNs)
          (g.startOffsetNs + k * g.widthNs) (g.startOffsetNs + (k + 1) * g.widthNs)
        b.receivedEvents = among samples ∧
          b.receivedUnique = among (samples.filter (!duplicate ·)) ∧
          b.duplicates = among (samples.filter duplicate) := by
    intro k b hb
    obtain ⟨hlt, rfl⟩ := List.getElem?_eq_some_iff.mp hb
    have hk : k < g.count := by rwa [hlength] at hlt
    have hend : g.startOffsetNs + k * g.widthNs + g.widthNs =
        g.startOffsetNs + ((k + 1 : ℕ) : ℤ) * g.widthNs := by
      push_cast
      ring
    simp only [eventBuckets, countSamples_eq, List.getElem_map, List.getElem_zipIdx,
      List.getElem_zip, Nat.zero_add, (g.bound_fits hk.le).1, (g.bound_fits hk.le).2, hend,
      (g.bound_fits (Nat.succ_le_of_lt hk)).2, tally_getElem hk, and_true, true_and]
    push_cast
    rfl
  refine ⟨hlength, fun k b hb => ⟨(hget k b hb).1, (hget k b hb).2.1⟩, ?_⟩
  intro b hb
  obtain ⟨k, hk, hbk⟩ := List.getElem_of_mem hb
  obtain ⟨hstart, hend, hcounts⟩ := hget k b (by rw [List.getElem?_eq_getElem hk, hbk])
  rw [hstart, hend]
  exact hcounts

namespace CountsByOffset

/-- Every sample of a bucket is a first arrival or a duplicate. -/
theorem reconciles (h : CountsByOffset time duplicate g eventTimestampNs samples buckets)
    {b : EventBucket} (hb : b ∈ buckets) : b.receivedEvents = b.receivedUnique + b.duplicates := by
  obtain ⟨hevents, hunique, hduplicates⟩ := h.counted b hb
  rw [hevents, hunique, hduplicates]
  exact (countIn_filter_add duplicate).symm

/-- A sample within the coverage lies in one bucket. -/
theorem placed (h : CountsByOffset time duplicate g eventTimestampNs samples buckets)
    {offset : ℤ} (hlo : g.startOffsetNs ≤ offset) (hhi : offset < g.stopOffsetNs) :
    ∃! k : ℕ, ∃ b, buckets[k]? = some b ∧ b.startOffsetNs ≤ offset ∧ offset < b.endOffsetNs := by
  have hlt : bucketIndex g.startOffsetNs g.widthNs g.count offset < buckets.length := by
    rw [h.length]
    exact g.bucketIndex_lt hlo hhi
  refine ⟨bucketIndex g.startOffsetNs g.widthNs g.count offset, ?_, ?_⟩
  · obtain ⟨hstart, hend⟩ := h.bounds _ _ (List.getElem?_eq_getElem hlt)
    refine ⟨_, List.getElem?_eq_getElem hlt, ?_⟩
    rw [hstart, hend]
    exact (g.bucketIndex_eq_iff hlo hhi _).mp rfl
  · rintro k ⟨b, hb, hin⟩
    obtain ⟨hstart, hend⟩ := h.bounds k b hb
    rw [hstart, hend] at hin
    exact ((g.bucketIndex_eq_iff hlo hhi k).mpr hin).symm

theorem getElem (h : CountsByOffset time duplicate g eventTimestampNs samples buckets) {k : ℕ}
    (hk : k < buckets.length) :
    let among := countIn (offsetFrom time eventTimestampNs)
      (g.startOffsetNs + k * g.widthNs) (g.startOffsetNs + (k + 1) * g.widthNs)
    buckets[k].receivedEvents = among samples ∧
      buckets[k].receivedUnique = among (samples.filter (!duplicate ·)) ∧
      buckets[k].duplicates = among (samples.filter duplicate) := by
  obtain ⟨hstart, hend⟩ := h.bounds k _ (List.getElem?_eq_getElem hk)
  rw [← hstart, ← hend]
  exact h.counted _ (List.getElem_mem hk)

/-- What the buckets count is what their coverage has. -/
theorem sums (h : CountsByOffset time duplicate g eventTimestampNs samples buckets) :
    let among := countIn (offsetFrom time eventTimestampNs) g.startOffsetNs g.stopOffsetNs
    (buckets.map (·.receivedEvents)).sum = among samples ∧
      (buckets.map (·.receivedUnique)).sum = among (samples.filter (!duplicate ·)) ∧
      (buckets.map (·.duplicates)).sum = among (samples.filter duplicate) := by
  have hsum : ∀ (field : EventBucket → ℕ) (xs : List α),
      (∀ (k : ℕ) (hk : k < buckets.length), field buckets[k] =
        countIn (offsetFrom time eventTimestampNs) (g.startOffsetNs + k * g.widthNs)
          (g.startOffsetNs + (k + 1) * g.widthNs) xs) →
      (buckets.map field).sum =
        countIn (offsetFrom time eventTimestampNs) g.startOffsetNs g.stopOffsetNs xs := by
    intro field xs hfield
    rw [EventGrid.stopOffsetNs, countIn_tiles g.width_pos.le]
    congr 1
    apply List.ext_getElem
    · simp [h.length]
    · intro k hk _
      simp only [List.getElem_map, List.getElem_range]
      exact hfield k (by simpa using hk)
  exact ⟨hsum _ _ fun k hk => (h.getElem hk).1, hsum _ _ fun k hk => (h.getElem hk).2.1,
    hsum _ _ fun k hk => (h.getElem hk).2.2⟩

end CountsByOffset

/-- Bucket `k` of the coarse buckets has the sums of the fine buckets `m * k` to `m * k + m - 1`. -/
def Nested (m : ℕ) (fine coarse : List EventBucket) : Prop :=
  ∀ (k : ℕ) b, coarse[k]? = some b →
    let part := (fine.drop (m * k)).take m
    b.receivedEvents = (part.map (·.receivedEvents)).sum ∧
      b.receivedUnique = (part.map (·.receivedUnique)).sum ∧
      b.duplicates = (part.map (·.duplicates)).sum

/-- Grids of one coverage, the buckets of one `m` times as wide. -/
structure Refines (m : ℕ) (fine coarse : EventGrid) : Prop where
  start : fine.startOffsetNs = coarse.startOffsetNs
  width : coarse.widthNs = m * fine.widthNs
  count : fine.count = m * coarse.count

theorem CountsByOffset.nested {m : ℕ} {fine coarse : EventGrid} {fineBuckets : List EventBucket}
    (hgrids : Refines m fine coarse)
    (hfine : CountsByOffset time duplicate fine eventTimestampNs samples fineBuckets)
    (hcoarse : CountsByOffset time duplicate coarse eventTimestampNs samples buckets) :
    Nested m fineBuckets buckets := by
  intro k b hb
  obtain ⟨hk, rfl⟩ := List.getElem?_eq_some_iff.mp hb
  have hroom : m * k + m ≤ fineBuckets.length := by
    rw [hfine.length, hgrids.count]
    have hk' : k + 1 ≤ coarse.count := by
      rw [hcoarse.length] at hk
      exact hk
    calc m * k + m = m * (k + 1) := by ring
      _ ≤ m * coarse.count := Nat.mul_le_mul_left m hk'
  have hsum : ∀ (field : EventBucket → ℕ) (xs : List α),
      (∀ (j : ℕ) (hj : j < fineBuckets.length), field fineBuckets[j] =
        countIn (offsetFrom time eventTimestampNs) (fine.startOffsetNs + j * fine.widthNs)
          (fine.startOffsetNs + (j + 1) * fine.widthNs) xs) →
      countIn (offsetFrom time eventTimestampNs) (coarse.startOffsetNs + k * coarse.widthNs)
          (coarse.startOffsetNs + (k + 1) * coarse.widthNs) xs =
        (((fineBuckets.drop (m * k)).take m).map field).sum := by
    intro field xs hfield
    have hstop : coarse.startOffsetNs + (k + 1) * coarse.widthNs =
        coarse.startOffsetNs + k * coarse.widthNs + m * fine.widthNs := by
      rw [hgrids.width]
      ring
    rw [hstop, countIn_tiles fine.width_pos.le]
    congr 1
    apply List.ext_getElem
    · simp only [List.length_map, List.length_range, List.length_take, List.length_drop]
      omega
    · intro j hj _
      simp only [List.length_map, List.length_range] at hj
      simp only [List.getElem_map, List.getElem_range, List.getElem_take, List.getElem_drop]
      rw [hfield _ (by omega), hgrids.start, hgrids.width]
      push_cast
      congr 1 <;> ring
  obtain ⟨hevents, hunique, hduplicates⟩ := hcoarse.getElem hk
  rw [hevents, hunique, hduplicates]
  exact ⟨hsum _ _ fun j hj => (hfine.getElem hj).1, hsum _ _ fun j hj => (hfine.getElem hj).2.1,
    hsum _ _ fun j hj => (hfine.getElem hj).2.2⟩

theorem bucketTotals_eq (buckets : List EventBucket) : bucketTotals buckets =
    ((buckets.map (·.receivedUnique)).sum, (buckets.map (·.receivedEvents)).sum,
      (buckets.map (·.duplicates)).sum) := by
  induction buckets using List.reverseRecOn with
  | nil => rfl
  | append_singleton buckets b ih =>
    simp only [bucketTotals, List.foldl_append, List.foldl_cons, List.foldl_nil] at ih ⊢
    rw [ih]
    simp

/-- Two grids of one coverage have the same totals. -/
theorem CountsByOffset.totals_eq {m : ℕ} {fine coarse : EventGrid}
    {fineBuckets : List EventBucket} (hgrids : Refines m fine coarse)
    (hfine : CountsByOffset time duplicate fine eventTimestampNs samples fineBuckets)
    (hcoarse : CountsByOffset time duplicate coarse eventTimestampNs samples buckets) :
    bucketTotals buckets = bucketTotals fineBuckets := by
  have hstop : fine.stopOffsetNs = coarse.stopOffsetNs := by
    rw [EventGrid.stopOffsetNs, EventGrid.stopOffsetNs, hgrids.start, hgrids.count, hgrids.width]
    push_cast
    ring
  obtain ⟨hevents, hunique, hduplicates⟩ := hfine.sums
  obtain ⟨hevents', hunique', hduplicates'⟩ := hcoarse.sums
  rw [bucketTotals_eq, bucketTotals_eq, hevents, hunique, hduplicates, hevents', hunique',
    hduplicates', hstop, hgrids.start]

theorem CountsByOffset.of_map {β : Type*} {f : β → α} {xs : List β}
    (h : CountsByOffset time duplicate g eventTimestampNs (xs.map f) buckets) :
    CountsByOffset (time ∘ f) (duplicate ∘ f) g eventTimestampNs xs buckets := by
  refine ⟨h.length, h.bounds, fun b hb => ?_⟩
  have hcounts := h.counted b hb
  simp only [countIn, List.filter_map, List.countP_map] at hcounts
  exact hcounts

/-- Where only samples at the last timestamp are dropped, all those of a coverage are kept exactly if
none of them is at the last timestamp. -/
theorem keeps_iff_none_last {keep : α → Bool} {lo hi : ℤ}
    (hlast : lo ≤ (u64Max : ℤ) - eventTimestampNs)
    (hkeep : ∀ s, lo ≤ offsetFrom time eventTimestampNs s →
      offsetFrom time eventTimestampNs s < hi → (keep s = true ↔ time s ≠ u64Max)) :
    (∀ s ∈ samples, lo ≤ offsetFrom time eventTimestampNs s →
        offsetFrom time eventTimestampNs s < hi → keep s = true) ↔
      ¬∃ s ∈ samples, time s = u64Max ∧ (u64Max : ℤ) - eventTimestampNs < hi := by
  constructor
  · rintro hkept ⟨s, hs, hs', hnear⟩
    have hoffset : offsetFrom time eventTimestampNs s = (u64Max : ℤ) - eventTimestampNs := by
      rw [offsetFrom, hs']
    rw [← hoffset] at hlast hnear
    exact (hkeep s hlast hnear).mp (hkept s hs hlast hnear) hs'
  · intro hnone s hs hlo hhi
    refine (hkeep s hlo hhi).mpr fun hs' => hnone ⟨s, hs, hs', ?_⟩
    rwa [offsetFrom, hs'] at hhi

/-- The buckets of the kept samples count all samples exactly if those within the coverage are
kept. -/
theorem CountsByOffset.of_filter_iff {keep : α → Bool}
    (h : CountsByOffset time duplicate g eventTimestampNs (samples.filter keep) buckets) :
    CountsByOffset time duplicate g eventTimestampNs samples buckets ↔
      ∀ s ∈ samples, g.startOffsetNs ≤ offsetFrom time eventTimestampNs s →
        offsetFrom time eventTimestampNs s < g.stopOffsetNs → keep s = true := by
  constructor
  · intro hall
    have hsum := h.sums.1.symm.trans hall.sums.1
    exact countIn_filter_eq_iff.mp hsum
  · intro hkeep
    refine ⟨h.length, h.bounds, ?_⟩
    intro b hb
    obtain ⟨k, hk, rfl⟩ := List.getElem_of_mem hb
    obtain ⟨hstart, hend⟩ := h.bounds k _ (List.getElem?_eq_getElem hk)
    rw [h.length] at hk
    have hwidth := g.width_pos
    have hfirst : 0 ≤ (k : ℤ) * g.widthNs := mul_nonneg (Int.natCast_nonneg k) hwidth.le
    have hlast : ((k : ℤ) + 1) * g.widthNs ≤ g.count * g.widthNs :=
      mul_le_mul_of_nonneg_right (by omega) hwidth.le
    have hwithin : ∀ s ∈ samples, buckets[k].startOffsetNs ≤ offsetFrom time eventTimestampNs s →
        offsetFrom time eventTimestampNs s < buckets[k].endOffsetNs → keep s = true := by
      intro s hs hlo hhi
      rw [hstart] at hlo
      rw [hend] at hhi
      refine hkeep s hs (by linarith) ?_
      rw [EventGrid.stopOffsetNs]
      linarith
    have hmarked : ∀ mark : α → Bool, countIn (offsetFrom time eventTimestampNs)
        buckets[k].startOffsetNs buckets[k].endOffsetNs ((samples.filter keep).filter mark) =
        countIn (offsetFrom time eventTimestampNs) buckets[k].startOffsetNs
          buckets[k].endOffsetNs (samples.filter mark) := by
      intro mark
      rw [List.filter_comm, countIn_filter_eq_iff]
      intro s hs
      exact hwithin s (List.mem_of_mem_filter hs)
    obtain ⟨hevents, hunique, hduplicates⟩ := h.counted _ hb
    exact ⟨hevents.trans (countIn_filter_eq_iff.mpr hwithin), hunique.trans (hmarked _),
      hduplicates.trans (hmarked _)⟩

end Counts

end Wafer
