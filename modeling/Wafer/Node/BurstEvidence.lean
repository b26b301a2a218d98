import Wafer.Node.BenchSink
import Wafer.Types.EventBuckets

/-!
# Burst evidence of the bench sink

`BurstObservation` sorts the records of a burst run into 100 ms buckets around
its origin and keeps those near the scheduled event. `writeFineEventBuckets`
sorts the kept ones around the actual event once the receipt of it is there. The
receipt comes as the JSON document that was read, or not at all.

## Main definitions

- `BurstObservation.actualT0`, `writeFineEventBuckets`
- `BurstObservation.Evidence` — what observation and document say of the records

## Main results

- `BurstObservation.observed_recordAll` — what a run of records leaves
- `BurstObservation.burst_evidence_iff`
-/

namespace Wafer

open Lib

def fineEventBucketWidthNs : ℤ := 10000000
def fineEventBucketCount : ℕ := 400
def fineEventParentWidthNs : ℤ := 100000000
def fineEventParentCount : ℕ := 40

def burstBucketTotals (buckets : List BurstBucket) : BurstBucket :=
  buckets.foldl (fun total bucket =>
    { receivedUnique := total.receivedUnique + bucket.receivedUnique
      receivedEvents := total.receivedEvents + bucket.receivedEvents
      duplicates := total.duplicates + bucket.duplicates }) {}

def fineEventBuckets (samples : List FineEventSample) (eventTimestampNs : ℕ) (widthNs : ℤ)
    (count : ℕ) : List EventBucket :=
  eventBuckets (·.arrivalUnixNs) (·.duplicate) samples eventTimestampNs fineEventStartNs widthNs
    count

namespace BurstObservation

def scheduledEventTimestampNs (o : BurstObservation) : ℕ :=
  satAdd o.sourceOriginNs burstSwapOffsetNs

/-- The event timestamp of a receipt that holds to the boundary. -/
def actualT0 (o : BurstObservation) (receipt : Json) : Except String ℕ :=
  match (receipt.get? "event_timestamp_ns").bind Json.asU64 with
  | none => .error "actual t0 receipt is malformed"
  | some eventTimestampNs =>
    let alignmentErrorNs := signedOffset eventTimestampNs o.scheduledEventTimestampNs
    if (receipt.get? "schema_version").bind Json.asU64 ≠ some 1 ∨
        (receipt.get? "clock").bind Json.asStr ≠ some "unix-epoch" ∨
        (receipt.get? "alignment").bind Json.asStr ≠ some "actual-t0" ∨
        (receipt.get? "source_measurement_start_unix_ns").bind Json.asU64 ≠
          some o.sourceOriginNs ∨
        (receipt.get? "scheduled_event_timestamp_ns").bind Json.asU64 ≠
          some o.scheduledEventTimestampNs ∨
        fineEventAlignmentToleranceNs < alignmentErrorNs.natAbs then
      .error "actual t0 receipt differs from the frozen E-Swap-4 boundary"
    else .ok eventTimestampNs

def fineBuckets (o : BurstObservation) (eventTimestampNs : ℕ) : List EventBucket :=
  fineEventBuckets o.fineSamples eventTimestampNs fineEventBucketWidthNs fineEventBucketCount

def parentBuckets (o : BurstObservation) (eventTimestampNs : ℕ) : List EventBucket :=
  fineEventBuckets o.fineSamples eventTimestampNs fineEventParentWidthNs fineEventParentCount

def fineArtifact (o : BurstObservation) (eventTimestampNs : ℕ) : Dict :=
  let (receivedUnique, receivedEvents, duplicates) := bucketTotals (o.fineBuckets eventTimestampNs)
  [("schema_version", .int 1),
    ("clock", .str "unix-epoch-source-sink-alignment"),
    ("clock_purpose", .str "cross-process-alignment"),
    ("alignment", .str "actual-t0"),
    ("source_measurement_start_unix_ns", .int o.sourceOriginNs),
    ("scheduled_event_timestamp_ns", .int o.scheduledEventTimestampNs),
    ("event_timestamp_ns", .int eventTimestampNs),
    ("alignment_error_ns", .int (signedOffset eventTimestampNs o.scheduledEventTimestampNs)),
    ("alignment_tolerance_ns", .int fineEventAlignmentToleranceNs),
    ("bucket_width_ns", .int fineEventBucketWidthNs),
    ("bucket_count", .int fineEventBucketCount),
    ("coverage_start_offset_ns", .int fineEventStartNs),
    ("coverage_end_offset_ns", .int fineEventEndNs),
    ("parent_bucket_width_ns", .int fineEventParentWidthNs),
    ("parent_bucket_count", .int fineEventParentCount),
    ("received_unique", .int receivedUnique),
    ("received_events", .int receivedEvents),
    ("duplicates", .int duplicates),
    ("buckets", .arr ((o.fineBuckets eventTimestampNs).map fun b => .obj b.members)),
    ("parent_buckets", .arr ((o.parentBuckets eventTimestampNs).map fun b => .obj b.members)),
    ("canonical_series", .str "throughput-buckets.json"),
    ("loss_accounting", .str "canonical-sequence-and-primary-drain-only")]

/-- What `throughput-buckets-10ms.json` gets; without a receipt it is not written. -/
def writeFineEventBuckets (o : BurstObservation) (receipt : Option Json) :
    Except String (Option Dict) :=
  match receipt with
  | none => .ok none
  | some receipt =>
    if o.fineSamplesOverflowed then .error "fine event sample capacity exceeded"
    else
      match o.actualT0 receipt with
      | .error e => .error e
      | .ok eventTimestampNs =>
        if bucketTotals (o.parentBuckets eventTimestampNs) ≠
            bucketTotals (o.fineBuckets eventTimestampNs) then
          .error "fine and parent event bucket populations differ"
        else .ok (some (o.fineArtifact eventTimestampNs))

end BurstObservation

/-- The arguments of a call to `record`. -/
@[ext]
structure BurstRecord where
  sourceOriginNs : ℕ
  arrivalNs : ℕ
  duplicate : Bool
  fits : arrivalNs ≤ u64Max
  deriving Repr

instance : DecidableEq BurstRecord := fun a b =>
  decidable_of_iff (a.sourceOriginNs = b.sourceOriginNs ∧ a.arrivalNs = b.arrivalNs ∧
    a.duplicate = b.duplicate) BurstRecord.ext_iff.symm

namespace BurstObservation

def recordAll (o : BurstObservation) (records : List BurstRecord) : BurstObservation :=
  records.foldl (fun o r => o.record r.sourceOriginNs r.arrivalNs r.duplicate) o

/-- How long after the origin a record arrived; before it counts as at it. -/
def offsetOf (originNs : ℕ) (r : BurstRecord) : ℤ := (r.arrivalNs - originNs : ℕ)

/-- The bucket of the records with an offset in `[lo, hi)`. -/
def bucketOf (originNs : ℕ) (lo hi : ℤ) (records : List BurstRecord) : BurstBucket where
  receivedUnique := countIn (offsetOf originNs) lo hi (records.filter (!·.duplicate))
  receivedEvents := countIn (offsetOf originNs) lo hi records
  duplicates := countIn (offsetOf originNs) lo hi (records.filter (·.duplicate))

/-- The bucket of the records from `lo` on. -/
def bucketFrom (originNs : ℕ) (lo : ℤ) (records : List BurstRecord) : BurstBucket where
  receivedUnique := (records.filter (!·.duplicate)).countP (lo ≤ offsetOf originNs ·)
  receivedEvents := records.countP (lo ≤ offsetOf originNs ·)
  duplicates := (records.filter (·.duplicate)).countP (lo ≤ offsetOf originNs ·)

/-- The capture window around the scheduled event. -/
def captured (originNs : ℕ) (r : BurstRecord) : Bool :=
  let scheduledEventNs := satAdd originNs burstSwapOffsetNs
  scheduledEventNs - fineEventStartNs.natAbs - fineEventAlignmentToleranceNs ≤ r.arrivalNs ∧
    r.arrivalNs <
      satAdd (satAdd scheduledEventNs fineEventEndNs.natAbs) fineEventAlignmentToleranceNs

def sampleOf (r : BurstRecord) : FineEventSample := ⟨r.arrivalNs, r.duplicate⟩

/-- What a run of records has left in an observation. -/
structure Observed (originNs : ℕ) (records : List BurstRecord) (o : BurstObservation) : Prop where
  origin : o.sourceOriginNs = originNs
  primary : o.primary = (List.range burstBucketCount).map fun k : ℕ =>
    bucketOf originNs (k * burstBucketWidthNs) ((k + 1) * burstBucketWidthNs) records
  drain : o.drain = (List.range burstDrainBucketCount).map fun k : ℕ =>
    bucketOf originNs (burstPrimaryEndNs + k * burstBucketWidthNs)
      (burstPrimaryEndNs + (k + 1) * burstBucketWidthNs) records
  afterDrain : o.afterDrain = bucketFrom originNs burstDrainEndNs records
  captures : (records.filter (captured originNs)).length ≤ fineEventSampleCapacity →
    o.fineSamples = (records.filter (captured originNs)).map sampleOf ∧
      o.fineSamplesOverflowed = false

variable {originNs : ℕ} {records : List BurstRecord} {o : BurstObservation} {lo hi : ℤ}

/-! ## One record -/

/-- One more record is recorded in its own bucket and in no other. -/
theorem bucketOf_concat (r : BurstRecord) : bucketOf originNs lo hi (records ++ [r]) =
    if lo ≤ offsetOf originNs r ∧ offsetOf originNs r < hi then
      (bucketOf originNs lo hi records).record r.duplicate
    else bucketOf originNs lo hi records := by
  simp only [bucketOf, countIn, List.filter_append, List.countP_append, BurstBucket.record]
  by_cases hin : lo ≤ offsetOf originNs r ∧ offsetOf originNs r < hi
  · cases hd : r.duplicate with
    | true => simp [hin, hd]
    | false => simp [hin, hd]
  · cases hd : r.duplicate with
    | true => simp [hin, hd]
    | false => simp [hin, hd]

theorem bucketFrom_concat (r : BurstRecord) : bucketFrom originNs lo (records ++ [r]) =
    if lo ≤ offsetOf originNs r then (bucketFrom originNs lo records).record r.duplicate
    else bucketFrom originNs lo records := by
  simp only [bucketFrom, List.filter_append, List.countP_append, BurstBucket.record]
  by_cases hin : lo ≤ offsetOf originNs r
  · cases hd : r.duplicate with
    | true => simp [hin, hd]
    | false => simp [hin, hd]
  · cases hd : r.duplicate with
    | true => simp [hin, hd]
    | false => simp [hin, hd]

/-- A row of buckets of one width from `base` on, after a record behind `base`. -/
theorem row_concat (count base : ℕ) (r : BurstRecord) (hbase : base ≤ r.arrivalNs - originNs) :
    (List.range count).map (fun k : ℕ => bucketOf originNs (base + k * burstBucketWidthNs)
        (base + (k + 1) * burstBucketWidthNs) (records ++ [r])) =
      ((List.range count).map fun k : ℕ => bucketOf originNs (base + k * burstBucketWidthNs)
        (base + (k + 1) * burstBucketWidthNs) records).modify
        ((r.arrivalNs - originNs - base) / burstBucketWidthNs) (·.record r.duplicate) := by
  apply List.ext_getElem
  · simp
  · intro k hk _
    simp only [List.getElem_map, List.getElem_range, List.getElem_modify, bucketOf_concat]
    have hown : ((base : ℤ) + k * burstBucketWidthNs ≤ offsetOf originNs r ∧
        offsetOf originNs r < base + (k + 1) * burstBucketWidthNs) ↔
        (r.arrivalNs - originNs - base) / burstBucketWidthNs = k := by
      simp only [offsetOf, burstBucketWidthNs]
      omega
    simp only [hown]

/-- A record below `base` changes no bucket of the row. -/
theorem row_concat_of_lt (count base : ℕ) (r : BurstRecord)
    (hbase : r.arrivalNs - originNs < base) :
    (List.range count).map (fun k : ℕ => bucketOf originNs (base + k * burstBucketWidthNs)
        (base + (k + 1) * burstBucketWidthNs) (records ++ [r])) =
      (List.range count).map fun k : ℕ => bucketOf originNs (base + k * burstBucketWidthNs)
        (base + (k + 1) * burstBucketWidthNs) records := by
  apply List.map_congr_left
  intro k _
  rw [bucketOf_concat, if_neg]
  simp only [offsetOf, burstBucketWidthNs]
  omega

theorem row_concat_of_length_le (count base : ℕ) (r : BurstRecord)
    (hstop : base + count * burstBucketWidthNs ≤ r.arrivalNs - originNs) :
    (List.range count).map (fun k : ℕ => bucketOf originNs (base + k * burstBucketWidthNs)
        (base + (k + 1) * burstBucketWidthNs) (records ++ [r])) =
      (List.range count).map fun k : ℕ => bucketOf originNs (base + k * burstBucketWidthNs)
        (base + (k + 1) * burstBucketWidthNs) records := by
  rw [row_concat count base r (by omega)]
  apply List.modify_eq_self
  rw [List.length_map, List.length_range, Nat.le_div_iff_mul_le (by decide)]
  omega

/-- The capture keeps everything but the samples near the event. -/
structure SameBuckets (o o' : BurstObservation) : Prop where
  sourceOriginNs : o'.sourceOriginNs = o.sourceOriginNs
  primary : o'.primary = o.primary
  drain : o'.drain = o.drain
  afterDrain : o'.afterDrain = o.afterDrain

theorem capture_same (o : BurstObservation) (arrivalNs : ℕ) (duplicate : Bool) :
    SameBuckets o (o.capture arrivalNs duplicate) := by
  simp only [capture]
  split
  · split <;> exact ⟨rfl, rfl, rfl, rfl⟩
  · exact ⟨rfl, rfl, rfl, rfl⟩

/-- The buckets keep the samples near the event. -/
structure SameSamples (o o' : BurstObservation) : Prop where
  sourceOriginNs : o'.sourceOriginNs = o.sourceOriginNs
  fineSamples : o'.fineSamples = o.fineSamples
  fineSamplesOverflowed : o'.fineSamplesOverflowed = o.fineSamplesOverflowed

theorem place_same (o : BurstObservation) (offsetNs : ℕ) (duplicate : Bool) :
    SameSamples o (o.place offsetNs duplicate) := by
  simp only [place]
  split
  · split <;> exact ⟨rfl, rfl, rfl⟩
  · split
    · split <;> exact ⟨rfl, rfl, rfl⟩
    · exact ⟨rfl, rfl, rfl⟩

/-- The buckets after one record. -/
theorem place_buckets (o : BurstObservation) (offsetNs : ℕ) (duplicate : Bool)
    (hprimary : o.primary.length = burstBucketCount)
    (hdrain : o.drain.length = burstDrainBucketCount) :
    (o.place offsetNs duplicate).primary =
        (if offsetNs < burstPrimaryEndNs then
          o.primary.modify (offsetNs / burstBucketWidthNs) (·.record duplicate) else o.primary) ∧
      (o.place offsetNs duplicate).drain =
        (if burstPrimaryEndNs ≤ offsetNs ∧ offsetNs < burstDrainEndNs then
          o.drain.modify ((offsetNs - burstPrimaryEndNs) / burstBucketWidthNs)
            (·.record duplicate) else o.drain) ∧
      (o.place offsetNs duplicate).afterDrain =
        (if burstDrainEndNs ≤ offsetNs then o.afterDrain.record duplicate else o.afterDrain) := by
  by_cases hfirst : offsetNs < burstPrimaryEndNs
  · have hindex : offsetNs / burstBucketWidthNs < o.primary.length := by
      rw [hprimary, Nat.div_lt_iff_lt_mul (by decide)]
      exact hfirst
    have hdrainEnd : ¬burstDrainEndNs ≤ offsetNs := by
      simp only [burstPrimaryEndNs, burstDrainEndNs] at *
      omega
    simp only [place, hfirst, hindex, if_true, if_false, hfirst.not_ge, false_and, hdrainEnd,
      and_self]
  · by_cases hsecond : offsetNs < burstDrainEndNs
    · have hindex : (offsetNs - burstPrimaryEndNs) / burstBucketWidthNs < o.drain.length := by
        rw [hdrain, Nat.div_lt_iff_lt_mul (by decide)]
        simp only [burstPrimaryEndNs, burstDrainEndNs, burstDrainBucketCount,
          burstBucketWidthNs] at *
        omega
      simp only [place, hfirst, hsecond, hindex, if_true, if_false, not_lt.mp hfirst,
        hsecond.not_ge, and_self]
    · simp only [place, hfirst, hsecond, if_true, if_false, not_lt.mp hsecond, and_false, and_self]

theorem capture_samples (o : BurstObservation) (r : BurstRecord)
    (hroom : captured o.sourceOriginNs r = true → o.fineSamples.length < fineEventSampleCapacity) :
    (o.capture r.arrivalNs r.duplicate).fineSamples =
        o.fineSamples ++ ([r].filter (captured o.sourceOriginNs)).map sampleOf ∧
      (o.capture r.arrivalNs r.duplicate).fineSamplesOverflowed = o.fineSamplesOverflowed := by
  by_cases hcaptured : captured o.sourceOriginNs r = true
  · have hnotFull := (hroom hcaptured).ne
    have hwindow := hcaptured
    simp only [captured, decide_eq_true_eq] at hwindow
    simp only [capture, if_pos hwindow, if_neg hnotFull]
    simp [hcaptured, sampleOf]
  · have hwindow := hcaptured
    simp only [captured, decide_eq_true_eq] at hwindow
    simp only [capture, if_neg hwindow]
    simp [hcaptured]

theorem Observed.record (h : Observed originNs records o) (r : BurstRecord) :
    Observed originNs (records ++ [r]) (o.record r.sourceOriginNs r.arrivalNs r.duplicate) := by
  obtain ⟨rfl, hprimary, hdrain, hafterDrain, hcaptures⟩ := h
  obtain ⟨mid, hrecord, hmid, hsamples, hoverflowed⟩ : ∃ mid : BurstObservation,
      o.record r.sourceOriginNs r.arrivalNs r.duplicate =
        (mid.capture r.arrivalNs r.duplicate).place (r.arrivalNs - o.sourceOriginNs) r.duplicate ∧
      SameBuckets o mid ∧ mid.fineSamples = o.fineSamples ∧
      mid.fineSamplesOverflowed = o.fineSamplesOverflowed :=
    ⟨_, rfl, ⟨rfl, rfl, rfl, rfl⟩, rfl, rfl⟩
  have hcapture := capture_same mid r.arrivalNs r.duplicate
  have hplace := place_same (mid.capture r.arrivalNs r.duplicate) (r.arrivalNs - o.sourceOriginNs)
    r.duplicate
  have hprimary' := hcapture.primary.trans hmid.primary
  have hdrain' := hcapture.drain.trans hmid.drain
  have hafterDrain' := hcapture.afterDrain.trans hmid.afterDrain
  obtain ⟨hplaced, hdrained, hafter⟩ := place_buckets (mid.capture r.arrivalNs r.duplicate)
    (r.arrivalNs - o.sourceOriginNs) r.duplicate (by rw [hprimary', hprimary]; simp)
    (by rw [hdrain', hdrain]; simp)
  rw [hprimary', hprimary] at hplaced
  rw [hdrain', hdrain] at hdrained
  rw [hafterDrain', hafterDrain] at hafter
  rw [hrecord]
  refine ⟨hplace.sourceOriginNs.trans (hcapture.sourceOriginNs.trans hmid.sourceOriginNs),
    hplaced.trans ?_, hdrained.trans ?_, hafter.trans ?_, ?_⟩
  · have hzero := @row_concat o.sourceOriginNs records burstBucketCount 0 r (Nat.zero_le _)
    have hbeyond := @row_concat_of_length_le o.sourceOriginNs records burstBucketCount 0 r
    simp only [Nat.cast_zero, zero_add, Nat.sub_zero] at hzero hbeyond
    split
    · exact hzero.symm
    · next hout => exact (hbeyond (not_lt.mp hout)).symm
  · split
    · next hin => exact (row_concat _ _ r hin.1).symm
    · next hout =>
      rw [not_and_or, not_le, not_lt] at hout
      rcases hout with hlt | hge
      · exact (row_concat_of_lt _ _ r hlt).symm
      · exact (row_concat_of_length_le _ _ r hge).symm
  · rw [bucketFrom_concat]
    simp only [offsetOf, Nat.cast_le]
  · intro hroom
    rw [List.filter_append, List.length_append] at hroom
    obtain ⟨hkept, hfits⟩ := hcaptures (by omega)
    have horigin : mid.sourceOriginNs = o.sourceOriginNs := hmid.sourceOriginNs
    obtain ⟨hnew, hmark⟩ := capture_samples mid r fun hcaptured => by
      rw [horigin] at hcaptured
      rw [hsamples, hkept, List.length_map]
      simp [hcaptured] at hroom
      omega
    rw [horigin] at hnew
    refine ⟨hplace.fineSamples.trans (hnew.trans ?_), hplace.fineSamplesOverflowed.trans
      (hmark.trans (hoverflowed.trans hfits))⟩
    rw [hsamples, hkept, List.filter_append, List.map_append]

theorem observed_recordAll (originNs : ℕ) (records : List BurstRecord) :
    Observed originNs records (recordAll { sourceOriginNs := originNs } records) := by
  induction records using List.reverseRecOn with
  | nil =>
    have hempty : ∀ (count : ℕ) (lo hi : ℕ → ℤ), List.replicate count ({} : BurstBucket) =
        (List.range count).map fun k => bucketOf originNs (lo k) (hi k) [] := by
      intro count lo hi
      simp [bucketOf, countIn, List.map_const']
    exact ⟨rfl, hempty _ _ _, hempty _ _ _, rfl, fun _ => ⟨rfl, rfl⟩⟩
  | append_singleton records r ih =>
    have hfold : recordAll { sourceOriginNs := originNs } (records ++ [r]) =
        (recordAll { sourceOriginNs := originNs } records).record r.sourceOriginNs r.arrivalNs
          r.duplicate := by
      simp only [recordAll, List.foldl_append, List.foldl_cons, List.foldl_nil]
    rw [hfold]
    exact ih.record r

/-! ## Totals -/

theorem burstBucketTotals_eq (buckets : List BurstBucket) : burstBucketTotals buckets =
    { receivedUnique := (buckets.map (·.receivedUnique)).sum
      receivedEvents := (buckets.map (·.receivedEvents)).sum
      duplicates := (buckets.map (·.duplicates)).sum } := by
  induction buckets using List.reverseRecOn with
  | nil => rfl
  | append_singleton buckets b ih =>
    have hfold : burstBucketTotals (buckets ++ [b]) =
        { receivedUnique := (burstBucketTotals buckets).receivedUnique + b.receivedUnique
          receivedEvents := (burstBucketTotals buckets).receivedEvents + b.receivedEvents
          duplicates := (burstBucketTotals buckets).duplicates + b.duplicates } := by
      simp only [burstBucketTotals, List.foldl_append, List.foldl_cons, List.foldl_nil]
    rw [hfold, ih]
    simp

/-- The buckets below 130 s and the rest have all records between them. -/
theorem offsets_partition (originNs : ℕ) (xs : List BurstRecord) :
    countIn (offsetOf originNs) 0 burstDrainEndNs xs +
      xs.countP (fun r => (burstDrainEndNs : ℤ) ≤ offsetOf originNs r) = xs.length := by
  have hbelow : countIn (offsetOf originNs) 0 burstDrainEndNs xs =
      xs.countP fun r => !decide ((burstDrainEndNs : ℤ) ≤ offsetOf originNs r) := by
    apply List.countP_congr
    intro r _
    have hnonneg : 0 ≤ offsetOf originNs r := Int.natCast_nonneg _
    simp only [hnonneg, true_and, decide_eq_true_eq, Bool.not_eq_true', decide_eq_false_iff_not,
      not_le]
  rw [hbelow, Nat.add_comm]
  rw [List.length_eq_countP_add_countP fun r => (burstDrainEndNs : ℤ) ≤ offsetOf originNs r]
  simp only [Bool.not_eq_true, Bool.decide_eq_false]

/-- The rows of the primary time and of the drain are one row. -/
theorem Observed.rows (h : Observed originNs records o) :
    o.primary ++ o.drain = (List.range (burstBucketCount + burstDrainBucketCount)).map
      fun k : ℕ => bucketOf originNs (k * burstBucketWidthNs) ((k + 1) * burstBucketWidthNs)
        records := by
  have hsplit : (burstPrimaryEndNs : ℤ) = burstBucketCount * burstBucketWidthNs := by decide
  have hbounds : ∀ k : ℕ, bucketOf originNs (burstPrimaryEndNs + k * burstBucketWidthNs)
      (burstPrimaryEndNs + (k + 1) * burstBucketWidthNs) records =
      bucketOf originNs ((burstBucketCount + k : ℕ) * burstBucketWidthNs)
        (((burstBucketCount + k : ℕ) + 1) * burstBucketWidthNs) records := by
    intro k
    have hlo : (burstPrimaryEndNs : ℤ) + k * burstBucketWidthNs =
        (burstBucketCount + k : ℕ) * burstBucketWidthNs := by
      rw [hsplit]
      push_cast
      ring
    have hhi : (burstPrimaryEndNs : ℤ) + (k + 1) * burstBucketWidthNs =
        ((burstBucketCount + k : ℕ) + 1) * burstBucketWidthNs := by
      rw [hsplit]
      push_cast
      ring
    rw [hlo, hhi]
  rw [h.primary, h.drain, List.range_add, List.map_append, List.map_map,
    List.map_congr_left fun k _ => hbounds k]
  rfl

/-- The sums of the row are those of the records below 130 s. -/
theorem Observed.rows_sum (h : Observed originNs records o) (field : BurstBucket → ℕ)
    (xs : List BurstRecord) (hfield : ∀ lo hi, field (bucketOf originNs lo hi records) =
      countIn (offsetOf originNs) lo hi xs) :
    ((o.primary ++ o.drain).map field).sum =
      countIn (offsetOf originNs) 0 burstDrainEndNs xs := by
  have hend : (burstDrainEndNs : ℤ) =
      0 + (burstBucketCount + burstDrainBucketCount : ℕ) * burstBucketWidthNs := by decide
  have htile : ∀ k : ℕ, field (bucketOf originNs (k * burstBucketWidthNs)
      ((k + 1) * burstBucketWidthNs) records) = countIn (offsetOf originNs)
        (0 + k * burstBucketWidthNs) (0 + (k + 1) * burstBucketWidthNs) xs := by
    intro k
    rw [hfield, zero_add, zero_add]
  rw [h.rows, hend, countIn_tiles (by decide), List.map_map,
    ← List.map_congr_left fun k _ => htile k]
  rfl

/-! ## Grids around the event -/

def fineGrid : EventGrid where
  startOffsetNs := fineEventStartNs
  widthNs := fineEventBucketWidthNs
  count := fineEventBucketCount
  width_pos := by decide
  start_fits := by decide
  stop_fits := by decide

def parentGrid : EventGrid where
  startOffsetNs := fineEventStartNs
  widthNs := fineEventParentWidthNs
  count := fineEventParentCount
  width_pos := by decide
  start_fits := by decide
  stop_fits := by decide

theorem refines : Refines 10 fineGrid parentGrid := ⟨rfl, rfl, rfl⟩

/-- The buckets count these records around the event. -/
abbrev Counts (g : EventGrid) (eventTimestampNs : ℕ) (records : List BurstRecord)
    (buckets : List EventBucket) : Prop :=
  CountsByOffset BurstRecord.arrivalNs BurstRecord.duplicate g eventTimestampNs records buckets

/-- The observation has every record, each below 130 s in its own bucket; the document has every
record near the event in one fine bucket and in the parent of it. -/
structure Evidence (originNs : ℕ) (receipt : Json) (eventTimestampNs : ℕ)
    (records : List BurstRecord) (o : BurstObservation) : Prop where
  receivedEvents : (burstBucketTotals o.primary).receivedEvents +
    (burstBucketTotals o.drain).receivedEvents + o.afterDrain.receivedEvents = records.length
  receivedUnique : (burstBucketTotals o.primary).receivedUnique +
    (burstBucketTotals o.drain).receivedUnique + o.afterDrain.receivedUnique =
      records.countP (!·.duplicate)
  duplicates : (burstBucketTotals o.primary).duplicates +
    (burstBucketTotals o.drain).duplicates + o.afterDrain.duplicates =
      records.countP (·.duplicate)
  rows : (o.primary ++ o.drain).length = 1300 ∧
    ∀ (k : ℕ) b, (o.primary ++ o.drain)[k]? = some b →
      b = bucketOf originNs (k * burstBucketWidthNs) ((k + 1) * burstBucketWidthNs) records
  fine : Counts fineGrid eventTimestampNs records (o.fineBuckets eventTimestampNs)
  parents : Counts parentGrid eventTimestampNs records (o.parentBuckets eventTimestampNs)
  placed : ∀ r ∈ records, fineEventStartNs ≤ (r.arrivalNs : ℤ) - eventTimestampNs →
    (r.arrivalNs : ℤ) - eventTimestampNs < fineEventEndNs →
    ∀ buckets ∈ [o.fineBuckets eventTimestampNs, o.parentBuckets eventTimestampNs],
      ∃! k : ℕ, ∃ b, buckets[k]? = some b ∧
        b.startOffsetNs ≤ (r.arrivalNs : ℤ) - eventTimestampNs ∧
        (r.arrivalNs : ℤ) - eventTimestampNs < b.endOffsetNs
  nested : Nested 10 (o.fineBuckets eventTimestampNs) (o.parentBuckets eventTimestampNs)
  written : o.writeFineEventBuckets (some receipt) = .ok (some (o.fineArtifact eventTimestampNs))

variable {receipt : Json} {eventTimestampNs : ℕ}

/-- An accepted receipt is within the tolerance of the scheduled event. -/
theorem aligned_of_actualT0 (h : o.actualT0 receipt = .ok eventTimestampNs) :
    ((eventTimestampNs : ℤ) - o.scheduledEventTimestampNs).natAbs ≤ 10000000 := by
  simp only [actualT0] at h
  split at h
  · cases h
  · split at h
    · cases h
    · next hfrozen =>
      obtain rfl := Except.ok.inj h
      simp only [not_or, not_not, not_lt] at hfrozen
      obtain ⟨-, -, -, -, -, htolerance⟩ := hfrozen
      simp only [signedOffset, fineEventAlignmentToleranceNs, i64Max] at htolerance
      split at htolerance <;> omega

/-- Within the tolerance all records near the event are captured, but for one at the last
timestamp. -/
theorem captured_iff {r : BurstRecord}
    (haligned : ((eventTimestampNs : ℤ) - satAdd originNs burstSwapOffsetNs).natAbs ≤ 10000000)
    (hlo : fineEventStartNs ≤ (r.arrivalNs : ℤ) - eventTimestampNs)
    (hhi : (r.arrivalNs : ℤ) - eventTimestampNs < fineEventEndNs) :
    captured originNs r = true ↔ r.arrivalNs ≠ u64Max := by
  have hfits := r.fits
  have hstart : fineEventStartNs.natAbs = 2000000000 := rfl
  have hend : fineEventEndNs.natAbs = 2000000000 := rfl
  simp only [fineEventStartNs] at hlo
  simp only [fineEventEndNs] at hhi
  have hmargin : fineEventAlignmentToleranceNs = 10000000 := rfl
  rw [captured, hstart, hend, hmargin, decide_eq_true_eq]
  generalize satAdd originNs burstSwapOffsetNs = scheduledEventNs at haligned ⊢
  simp only [satAdd, u64Max] at hfits ⊢
  omega

theorem writeFineEventBuckets_ok (hreceipt : o.actualT0 receipt = .ok eventTimestampNs)
    (hroom : o.fineSamplesOverflowed = false) :
    o.writeFineEventBuckets (some receipt) = .ok (some (o.fineArtifact eventTimestampNs)) := by
  have hfine := @eventBuckets_counts _ FineEventSample.arrivalUnixNs FineEventSample.duplicate
    fineGrid eventTimestampNs o.fineSamples
  have hparents := @eventBuckets_counts _ FineEventSample.arrivalUnixNs FineEventSample.duplicate
    parentGrid eventTimestampNs o.fineSamples
  have htotals : bucketTotals (o.parentBuckets eventTimestampNs) =
      bucketTotals (o.fineBuckets eventTimestampNs) := hfine.totals_eq refines hparents
  rw [writeFineEventBuckets, hroom, hreceipt]
  exact if_neg (not_not.mpr htotals)

/-- Observation and document are complete exactly if no record arrives at the last timestamp near
the event. -/
theorem burst_evidence_iff
    (hroom : (records.filter (captured originNs)).length ≤ fineEventSampleCapacity)
    (hreceipt : (recordAll { sourceOriginNs := originNs } records).actualT0 receipt =
      .ok eventTimestampNs) :
    Evidence originNs receipt eventTimestampNs records
        (recordAll { sourceOriginNs := originNs } records) ↔
      ¬∃ r ∈ records, r.arrivalNs = u64Max ∧
        (u64Max : ℤ) - eventTimestampNs < fineEventEndNs := by
  have hobserved := observed_recordAll originNs records
  obtain ⟨hsamples, hoverflowed⟩ := hobserved.captures hroom
  have haligned := aligned_of_actualT0 hreceipt
  rw [scheduledEventTimestampNs, hobserved.origin] at haligned
  have hafterDrain := hobserved.afterDrain
  have hrows := hobserved.rows
  have hsums := hobserved.rows_sum
  generalize recordAll { sourceOriginNs := originNs } records = o at *
  -- the grids count what is captured
  have hcounts : ∀ g : EventGrid, Counts g eventTimestampNs (records.filter (captured originNs))
      (eventBuckets FineEventSample.arrivalUnixNs FineEventSample.duplicate o.fineSamples
        eventTimestampNs g.startOffsetNs g.widthNs g.count) := by
    intro g
    have hsorted := @eventBuckets_counts _ FineEventSample.arrivalUnixNs FineEventSample.duplicate
      g eventTimestampNs ((records.filter (captured originNs)).map sampleOf)
    rw [hsamples]
    exact hsorted.of_map
  have hkept : (∀ r ∈ records, fineEventStartNs ≤ (r.arrivalNs : ℤ) - eventTimestampNs →
      (r.arrivalNs : ℤ) - eventTimestampNs < fineEventEndNs → captured originNs r = true) ↔
      ¬∃ r ∈ records, r.arrivalNs = u64Max ∧
        (u64Max : ℤ) - eventTimestampNs < fineEventEndNs := by
    have hscheduled : satAdd originNs burstSwapOffsetNs ≤ u64Max := min_le_right _ _
    have hlast : fineEventStartNs ≤ (u64Max : ℤ) - eventTimestampNs := by
      rw [fineEventStartNs]
      omega
    exact keeps_iff_none_last hlast fun r => captured_iff haligned
  have hfineStop : fineGrid.stopOffsetNs = fineEventEndNs := by decide
  have hparentStop : parentGrid.stopOffsetNs = fineEventEndNs := by decide
  have hcovered : ∀ g : EventGrid, g.startOffsetNs = fineEventStartNs →
      g.stopOffsetNs = fineEventEndNs → (Counts g eventTimestampNs records
        (eventBuckets FineEventSample.arrivalUnixNs FineEventSample.duplicate o.fineSamples
          eventTimestampNs g.startOffsetNs g.widthNs g.count) ↔
      ¬∃ r ∈ records, r.arrivalNs = u64Max ∧
        (u64Max : ℤ) - eventTimestampNs < fineEventEndNs) := by
    intro g hstart hstop
    refine (hcounts g).of_filter_iff.trans ?_
    rw [hstart, hstop]
    exact hkept
  constructor
  · intro h
    exact (hcovered fineGrid rfl hfineStop).mp h.fine
  · intro hnone
    have hfine : Counts fineGrid eventTimestampNs records (o.fineBuckets eventTimestampNs) :=
      (hcovered fineGrid rfl hfineStop).mpr hnone
    have hparents : Counts parentGrid eventTimestampNs records
        (o.parentBuckets eventTimestampNs) :=
      (hcovered parentGrid rfl hparentStop).mpr hnone
    have htotal : ∀ (field : BurstBucket → ℕ) (xs : List BurstRecord),
        (∀ lo hi, field (bucketOf originNs lo hi records) =
          countIn (offsetOf originNs) lo hi xs) →
        field o.afterDrain = xs.countP (fun r => (burstDrainEndNs : ℤ) ≤ offsetOf originNs r) →
        (o.primary.map field).sum + (o.drain.map field).sum + field o.afterDrain = xs.length := by
      intro field xs hfield hafter
      rw [← List.sum_append, ← List.map_append, hsums field xs hfield, hafter]
      exact offsets_partition originNs xs
    refine ⟨?_, ?_, ?_, ⟨?_, ?_⟩, hfine, hparents, ?_, hfine.nested refines hparents,
      writeFineEventBuckets_ok hreceipt hoverflowed⟩
    · rw [burstBucketTotals_eq, burstBucketTotals_eq]
      exact htotal (·.receivedEvents) records (fun _ _ => rfl) (by rw [hafterDrain]; rfl)
    · rw [burstBucketTotals_eq, burstBucketTotals_eq, List.countP_eq_length_filter]
      exact htotal (·.receivedUnique) _ (fun _ _ => rfl) (by rw [hafterDrain]; rfl)
    · rw [burstBucketTotals_eq, burstBucketTotals_eq, List.countP_eq_length_filter]
      exact htotal (·.duplicates) _ (fun _ _ => rfl) (by rw [hafterDrain]; rfl)
    · rw [hrows, List.length_map, List.length_range]
      rfl
    · intro k b hb
      rw [hrows, List.getElem?_map, Option.map_eq_some_iff] at hb
      obtain ⟨j, hj, rfl⟩ := hb
      obtain ⟨hlt, rfl⟩ := List.getElem?_eq_some_iff.mp hj
      rw [List.getElem_range]
    · intro r hr hlo hhi buckets hbuckets
      rw [List.mem_pair] at hbuckets
      obtain rfl | rfl := hbuckets
      · exact hfine.placed hlo (by rwa [hfineStop])
      · exact hparents.placed hlo (by rwa [hparentStop])

/-! ## Two runs -/

/-- The receipt of an event at `eventTimestampNs` in a run with this origin. -/
def actualT0Receipt (originNs eventTimestampNs : ℕ) : Json := .obj [
  ("schema_version", .int 1),
  ("clock", .str "unix-epoch"),
  ("alignment", .str "actual-t0"),
  ("source_measurement_start_unix_ns", .int originNs),
  ("scheduled_event_timestamp_ns", .int (satAdd originNs burstSwapOffsetNs)),
  ("event_timestamp_ns", .int eventTimestampNs)]

/-- Such a receipt is accepted for every event within the tolerance. -/
theorem actualT0_receipt (ho : o.sourceOriginNs ≤ u64Max) (he : eventTimestampNs ≤ u64Max)
    (haligned : ((eventTimestampNs : ℤ) - o.scheduledEventTimestampNs).natAbs ≤ 10000000) :
    o.actualT0 (actualT0Receipt o.sourceOriginNs eventTimestampNs) = .ok eventTimestampNs := by
  have hu64 : ∀ n : ℕ, n ≤ u64Max → (Json.int n).asU64 = some n := by
    intro n hn
    simp only [u64Max] at hn
    rw [Json.asU64, if_pos (by omega), Int.toNat_natCast]
  have hscheduled : satAdd o.sourceOriginNs burstSwapOffsetNs ≤ u64Max := min_le_right _ _
  have hone : (Json.int 1).asU64 = some 1 := hu64 1 (by decide)
  have htolerance : ¬fineEventAlignmentToleranceNs <
      (signedOffset eventTimestampNs o.scheduledEventTimestampNs).natAbs := by
    simp only [signedOffset, fineEventAlignmentToleranceNs, i64Max]
    split <;> omega
  have hevent : (actualT0Receipt o.sourceOriginNs eventTimestampNs).get? "event_timestamp_ns" =
      some (.int eventTimestampNs) := rfl
  have hversion : (actualT0Receipt o.sourceOriginNs eventTimestampNs).get? "schema_version" =
      some (.int 1) := rfl
  have hclock : (actualT0Receipt o.sourceOriginNs eventTimestampNs).get? "clock" =
      some (.str "unix-epoch") := rfl
  have halignment : (actualT0Receipt o.sourceOriginNs eventTimestampNs).get? "alignment" =
      some (.str "actual-t0") := rfl
  have hstart : (actualT0Receipt o.sourceOriginNs eventTimestampNs).get?
      "source_measurement_start_unix_ns" = some (.int o.sourceOriginNs) := rfl
  have hsched : (actualT0Receipt o.sourceOriginNs eventTimestampNs).get?
      "scheduled_event_timestamp_ns" =
        some (.int (satAdd o.sourceOriginNs burstSwapOffsetNs)) := rfl
  rw [actualT0, hevent, Option.bind_some, hu64 _ he]
  refine if_neg ?_
  rintro (h | h | h | h | h | h)
  · exact h (by rw [hversion, Option.bind_some, hone])
  · exact h (by rw [hclock, Option.bind_some, Json.asStr])
  · exact h (by rw [halignment, Option.bind_some, Json.asStr])
  · exact h (by rw [hstart, Option.bind_some, hu64 _ ho])
  · exact h (by rw [hsched, Option.bind_some, hu64 _ hscheduled, scheduledEventTimestampNs])
  · exact htolerance h

theorem swap_fits : 1060005000000 ≤ u64Max := by decide

/-- A record before the origin, two at the event and one after the drain. -/
def swapRecords : List BurstRecord :=
  [⟨1000000000000, 999000000000, false, by decide⟩,
    ⟨1000000000000, 1060005000000, false, swap_fits⟩,
    ⟨1000000000000, 1060014999999, true, by decide⟩,
    ⟨1000000000000, 1130000000000, false, by decide⟩]

theorem burst_evidence_iff_late :
    Evidence 1000000000000 (actualT0Receipt 1000000000000 1060005000000) 1060005000000 swapRecords
        (recordAll { sourceOriginNs := 1000000000000 } swapRecords) ↔
      ¬∃ r ∈ swapRecords, r.arrivalNs = u64Max ∧
        (u64Max : ℤ) - (1060005000000 : ℕ) < fineEventEndNs :=
  burst_evidence_iff (by decide +kernel) (by decide +kernel)

/-- A record at the event, which is at the last timestamp. -/
def lastRecord : BurstRecord := ⟨u64Max - 60000000000, u64Max, false, le_rfl⟩

theorem lastRecord_not_counted :
    let originNs := u64Max - 60000000000
    let o := recordAll { sourceOriginNs := originNs } [lastRecord]
    o.fineSamplesOverflowed = false ∧
      o.actualT0 (actualT0Receipt originNs u64Max) = .ok u64Max ∧
      ¬Evidence originNs (actualT0Receipt originNs u64Max) u64Max [lastRecord] o := by
  refine ⟨by decide +kernel, by decide +kernel, fun h => ?_⟩
  have hnone : (recordAll { sourceOriginNs := u64Max - 60000000000 } [lastRecord]).fineSamples = []
      := by decide +kernel
  have hnothing : Counts fineGrid u64Max []
      ((recordAll { sourceOriginNs := u64Max - 60000000000 } [lastRecord]).fineBuckets u64Max) := by
    rw [fineBuckets, hnone]
    exact (@eventBuckets_counts _ FineEventSample.arrivalUnixNs FineEventSample.duplicate fineGrid
      u64Max ([].map sampleOf)).of_map
  have hsum := hnothing.sums.1.symm.trans h.fine.sums.1
  have hzero : countIn (offsetFrom BurstRecord.arrivalNs u64Max) fineGrid.startOffsetNs
      fineGrid.stopOffsetNs [] = 0 := rfl
  have hone : countIn (offsetFrom BurstRecord.arrivalNs u64Max) fineGrid.startOffsetNs
      fineGrid.stopOffsetNs [lastRecord] = 1 := by decide +kernel
  rw [hzero, hone] at hsum
  exact absurd hsum (by decide)

end BurstObservation

end Wafer
