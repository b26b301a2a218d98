import Wafer.Types.EventBuckets

/-!
# Event buckets of the subscriber

`EventBucketRecorder` keeps the arrivals near the scheduled event and sorts them
into buckets around the actual one once the action receipt is there. Every
function on a file gives its JSON document; a file that cannot be written is not
modelled.

## Main definitions

- `EventBucketRecorder.new`, `record`, `validateActionTiming`, `write`
- `EventBucketRecorder.Evidence` — what the documents say of the arrivals

## Main results

- `EventBucketRecorder.event_buckets_iff`
-/

namespace Wafer

open Lib

def eventBucketWidthNs : ℕ := 100000000
def eventBucketCount : ℕ := 200
def eventCoverageStartNs : ℤ := -10000000000
def eventCoverageEndNs : ℤ := 10000000000
def eventAlignmentToleranceNs : ℤ := 10000000
def eventSampleCapacity : ℕ := 65536
def fineBucketWidthNs : ℤ := 10000000
def fineBucketCount : ℕ := 400
def fineCoverageStartNs : ℤ := -2000000000
def fineCoverageEndNs : ℤ := 2000000000
def fineParentBucketWidthNs : ℤ := 100000000
def fineParentBucketCount : ℕ := 40

structure PublisherTimingReceipt where
  schemaVersion : ℕ
  measurementClock : String
  alignmentClock : String
  measurementStartedUnixEpochNs : ℕ
  eventUnixEpochNs : ℕ
  eventOffsetNs : ℕ
  deriving DecidableEq, Repr

structure ActionTimingReceipt where
  schemaVersion : ℕ
  timestampClock : String
  timestampClockPurpose : String
  schedulingClock : String
  durationClock : String
  measurementStartTimestampNs : ℕ
  scheduledEventOffsetNs : ℕ
  scheduledEventTimestampNs : ℕ
  eventTimestampNs : ℕ
  eventOffsetFromMeasurementStartNs : ℕ
  alignmentErrorNs : ℤ
  alignmentToleranceNs : ℤ
  actionStartTimestampNs : ℕ
  actionEndTimestampNs : ℕ
  actionEndOffsetNs : ℕ
  actionStartMonotonicNs : ℕ
  actionEndMonotonicNs : ℕ
  actionDurationNs : ℕ
  deriving DecidableEq, Repr

@[ext]
structure EventSample where
  receiveUnixEpochNs : ℕ
  duplicate : Bool
  fits : receiveUnixEpochNs ≤ u64Max
  deriving Repr

instance : DecidableEq EventSample := fun a b =>
  decidable_of_iff (a.receiveUnixEpochNs = b.receiveUnixEpochNs ∧ a.duplicate = b.duplicate)
    EventSample.ext_iff.symm

def eventBucketsOf (samples : List EventSample) (eventTimestampNs : ℕ)
    (startOffsetNs widthNs : ℤ) (count : ℕ) : List EventBucket :=
  eventBuckets (·.receiveUnixEpochNs) (·.duplicate) samples eventTimestampNs startOffsetNs widthNs
    count

def documentOf (buckets : List EventBucket) : Json := .arr (buckets.map fun b => .obj b.members)

structure EventBucketRecorder where
  measurementStartTimestampNs : ℕ
  scheduledEventTimestampNs : ℕ
  samples : List EventSample
  deriving DecidableEq, Repr

namespace EventBucketRecorder

def new (timing : PublisherTimingReceipt) : Except String EventBucketRecorder :=
  if timing.schemaVersion ≠ 1 ∨ timing.measurementClock ≠ "monotonic" ∨
      timing.alignmentClock ≠ "unix-epoch" ∨ timing.eventOffsetNs ≠ 60000000000 ∨
      timing.eventUnixEpochNs ≠
        satAdd timing.measurementStartedUnixEpochNs timing.eventOffsetNs then
    .error "publisher timing receipt does not declare the frozen t=60 boundary"
  else .ok ⟨timing.measurementStartedUnixEpochNs, timing.eventUnixEpochNs, []⟩

/-- The capture window: the coverage around the scheduled event, wider by the tolerance. -/
def captures (r : EventBucketRecorder) (sample : EventSample) : Bool :=
  let captureMarginNs := eventAlignmentToleranceNs.natAbs
  let captureStart :=
    r.scheduledEventTimestampNs - eventCoverageStartNs.natAbs - captureMarginNs
  let captureEnd :=
    satAdd (satAdd r.scheduledEventTimestampNs eventCoverageEndNs.natAbs) captureMarginNs
  captureStart ≤ sample.receiveUnixEpochNs ∧ sample.receiveUnixEpochNs < captureEnd

def record (r : EventBucketRecorder) (sample : EventSample) : Except String EventBucketRecorder :=
  if !r.captures sample then .ok r
  else if r.samples.length = eventSampleCapacity then
    .error ("E-Swap-3 bounded event sample capacity exceeded (" ++
      toString eventSampleCapacity ++ ")")
  else .ok { r with samples := r.samples ++ [sample] }

def recordAll (r : EventBucketRecorder) (samples : List EventSample) :
    Except String EventBucketRecorder :=
  samples.foldlM record r

def validateActionTiming (r : EventBucketRecorder) (action : ActionTimingReceipt) :
    Except String Unit :=
  if action.eventTimestampNs < r.measurementStartTimestampNs then
    .error "E-Swap-3 event precedes measurement start"
  else
    let expectedOffset := action.eventTimestampNs - r.measurementStartTimestampNs
    let expectedError := signedOffset action.eventTimestampNs r.scheduledEventTimestampNs
    if action.schemaVersion ≠ 1 ∨ action.timestampClock ≠ "unix-epoch" ∨
        action.timestampClockPurpose ≠ "cross-process-alignment" ∨
        action.schedulingClock ≠ "monotonic" ∨ action.durationClock ≠ "monotonic" ∨
        action.measurementStartTimestampNs ≠ r.measurementStartTimestampNs ∨
        action.scheduledEventOffsetNs ≠ 60000000000 ∨
        action.scheduledEventTimestampNs ≠ r.scheduledEventTimestampNs ∨
        action.actionStartTimestampNs ≠ action.eventTimestampNs ∨
        action.eventOffsetFromMeasurementStartNs ≠ expectedOffset ∨
        action.alignmentErrorNs ≠ expectedError ∨
        action.alignmentToleranceNs ≠ eventAlignmentToleranceNs ∨
        eventAlignmentToleranceNs.natAbs < action.alignmentErrorNs.natAbs ∨
        action.actionEndTimestampNs < action.actionStartTimestampNs ∨
        action.actionEndOffsetNs ≠ action.actionEndTimestampNs - action.actionStartTimestampNs ∨
        action.actionEndMonotonicNs < action.actionStartMonotonicNs ∨
        action.actionDurationNs ≠
          action.actionEndMonotonicNs - action.actionStartMonotonicNs then
      .error "action timing receipt violates the frozen E-Swap-3 boundary"
    else .ok ()

/-- The canonical buckets. -/
def buckets (r : EventBucketRecorder) (action : ActionTimingReceipt) : List EventBucket :=
  eventBucketsOf r.samples action.eventTimestampNs eventCoverageStartNs eventBucketWidthNs
    eventBucketCount

def fineBuckets (r : EventBucketRecorder) (action : ActionTimingReceipt) : List EventBucket :=
  eventBucketsOf r.samples action.eventTimestampNs fineCoverageStartNs fineBucketWidthNs
    fineBucketCount

def parentBuckets (r : EventBucketRecorder) (action : ActionTimingReceipt) : List EventBucket :=
  eventBucketsOf r.samples action.eventTimestampNs fineCoverageStartNs fineParentBucketWidthNs
    fineParentBucketCount

def artifact (r : EventBucketRecorder) (action : ActionTimingReceipt) : Dict :=
  let (receivedUnique, receivedEvents, duplicates) := bucketTotals (r.buckets action)
  [("schema_version", .int 1),
    ("clock", .str "unix-epoch"),
    ("clock_purpose", .str "cross-process-alignment"),
    ("measurement_start_timestamp_ns", .int r.measurementStartTimestampNs),
    ("scheduled_event_timestamp_ns", .int r.scheduledEventTimestampNs),
    ("scheduled_event_offset_ns", .int action.scheduledEventOffsetNs),
    ("event_timestamp_ns", .int action.eventTimestampNs),
    ("event_offset_from_measurement_start_ns", .int action.eventOffsetFromMeasurementStartNs),
    ("alignment_error_ns", .int action.alignmentErrorNs),
    ("alignment_tolerance_ns", .int action.alignmentToleranceNs),
    ("bucket_width_ns", .int eventBucketWidthNs),
    ("coverage_start_offset_ns", .int eventCoverageStartNs),
    ("coverage_end_offset_ns", .int eventCoverageEndNs),
    ("received_unique", .int receivedUnique),
    ("received_events", .int receivedEvents),
    ("duplicates", .int duplicates),
    ("buckets", documentOf (r.buckets action))]

def fineArtifact (r : EventBucketRecorder) (action : ActionTimingReceipt) : Dict :=
  let (receivedUnique, receivedEvents, duplicates) := bucketTotals (r.fineBuckets action)
  [("schema_version", .int 1),
    ("clock", .str "unix-epoch"),
    ("clock_purpose", .str "cross-process-alignment"),
    ("alignment", .str "actual-t0"),
    ("measurement_start_timestamp_ns", .int r.measurementStartTimestampNs),
    ("scheduled_event_timestamp_ns", .int r.scheduledEventTimestampNs),
    ("event_timestamp_ns", .int action.eventTimestampNs),
    ("alignment_error_ns", .int action.alignmentErrorNs),
    ("alignment_tolerance_ns", .int action.alignmentToleranceNs),
    ("bucket_width_ns", .int fineBucketWidthNs),
    ("bucket_count", .int fineBucketCount),
    ("coverage_start_offset_ns", .int fineCoverageStartNs),
    ("coverage_end_offset_ns", .int fineCoverageEndNs),
    ("parent_bucket_width_ns", .int fineParentBucketWidthNs),
    ("parent_bucket_count", .int fineParentBucketCount),
    ("received_unique", .int receivedUnique),
    ("received_events", .int receivedEvents),
    ("duplicates", .int duplicates),
    ("buckets", documentOf (r.fineBuckets action)),
    ("parent_buckets", documentOf (r.parentBuckets action)),
    ("canonical_series", .str "throughput-buckets.json"),
    ("loss_accounting", .str "canonical-sequence-and-primary-drain-only")]

/-- `write_fine_event_buckets` -/
def writeFineEventBuckets (r : EventBucketRecorder) (action : ActionTimingReceipt) :
    Except String Dict :=
  if bucketTotals (r.parentBuckets action) ≠ bucketTotals (r.fineBuckets action) then
    .error "fine and parent event bucket populations differ"
  else .ok (r.fineArtifact action)

/-- The documents by file name, up to the first failure. -/
def write (r : EventBucketRecorder) (fileName : String) (action : ActionTimingReceipt) :
    List (String × Dict) × Except String Unit :=
  match r.validateActionTiming action with
  | .error e => ([], .error e)
  | .ok () =>
    match r.writeFineEventBuckets action with
    | .error e => ([(fileName, r.artifact action)], .error e)
    | .ok fine =>
      ([(fileName, r.artifact action), ("throughput-buckets-10ms.json", fine)], .ok ())

/-! ## Grids -/

def canonicalGrid : EventGrid where
  startOffsetNs := eventCoverageStartNs
  widthNs := eventBucketWidthNs
  count := eventBucketCount
  width_pos := by decide
  start_fits := by decide
  stop_fits := by decide

def fineGrid : EventGrid where
  startOffsetNs := fineCoverageStartNs
  widthNs := fineBucketWidthNs
  count := fineBucketCount
  width_pos := by decide
  start_fits := by decide
  stop_fits := by decide

def parentGrid : EventGrid where
  startOffsetNs := fineCoverageStartNs
  widthNs := fineParentBucketWidthNs
  count := fineParentBucketCount
  width_pos := by decide
  start_fits := by decide
  stop_fits := by decide

theorem refines : Refines 10 fineGrid parentGrid := ⟨rfl, rfl, rfl⟩

/-- The buckets count these arrivals around the event of the action. -/
abbrev Counts (g : EventGrid) (action : ActionTimingReceipt) (arrivals : List EventSample)
    (buckets : List EventBucket) : Prop :=
  CountsByOffset EventSample.receiveUnixEpochNs EventSample.duplicate g action.eventTimestampNs
    arrivals buckets

/-- The documents are written, each bucket counts the arrivals with an offset in it and no other,
and the fine buckets add up to their parents. -/
structure Evidence (r : EventBucketRecorder) (action : ActionTimingReceipt)
    (arrivals : List EventSample) : Prop where
  canonical : Counts canonicalGrid action arrivals (r.buckets action)
  fine : Counts fineGrid action arrivals (r.fineBuckets action)
  parents : Counts parentGrid action arrivals (r.parentBuckets action)
  placed : ∀ a ∈ arrivals,
    canonicalGrid.startOffsetNs ≤ offsetFrom EventSample.receiveUnixEpochNs action.eventTimestampNs a →
    offsetFrom EventSample.receiveUnixEpochNs action.eventTimestampNs a < canonicalGrid.stopOffsetNs →
    ∃! k : ℕ, ∃ b, (r.buckets action)[k]? = some b ∧
      b.startOffsetNs ≤ offsetFrom EventSample.receiveUnixEpochNs action.eventTimestampNs a ∧
      offsetFrom EventSample.receiveUnixEpochNs action.eventTimestampNs a < b.endOffsetNs
  reconciles : ∀ b ∈ r.buckets action ++ r.fineBuckets action ++ r.parentBuckets action,
    b.receivedEvents = b.receivedUnique + b.duplicates
  nested : Nested 10 (r.fineBuckets action) (r.parentBuckets action)
  written : ∀ fileName, r.write fileName action =
    ([(fileName, r.artifact action), ("throughput-buckets-10ms.json", r.fineArtifact action)],
      .ok ())

variable {r recorder recorded : EventBucketRecorder} {action : ActionTimingReceipt}
  {timing : PublisherTimingReceipt} {arrivals : List EventSample}

/-! ## A run of arrivals -/

theorem captures_congr (h : recorded.scheduledEventTimestampNs = r.scheduledEventTimestampNs) :
    recorded.captures = r.captures := by
  funext sample
  simp only [captures, h]

/-- A call keeps the boundary, and the sample if it is captured. -/
theorem record_ok {sample : EventSample} (h : r.record sample = .ok recorded) :
    recorded.scheduledEventTimestampNs = r.scheduledEventTimestampNs ∧
      recorded.samples = r.samples ++ [sample].filter r.captures := by
  simp only [record] at h
  split at h
  · next hout =>
    obtain rfl := Except.ok.inj h
    simp only [Bool.not_eq_true'] at hout
    simp [hout]
  · next hin =>
    simp only [Bool.not_eq_true', Bool.not_eq_false] at hin
    split at h
    · cases h
    · obtain rfl := Except.ok.inj h
      simp [hin]

theorem recordAll_cons_ok {sample : EventSample}
    (h : r.recordAll (sample :: arrivals) = .ok recorded) :
    ∃ mid, r.record sample = .ok mid ∧ mid.recordAll arrivals = .ok recorded := by
  have hbind : ∀ (first : Except String EventBucketRecorder) rest,
      (first >>= rest) = .ok recorded → ∃ mid, first = .ok mid ∧ rest mid = .ok recorded := by
    intro first rest hrun
    cases first with
    | error e => cases hrun
    | ok mid => exact ⟨mid, rfl, hrun⟩
  rw [recordAll, List.foldlM_cons] at h
  exact hbind _ _ h

theorem recordAll_ok (h : r.recordAll arrivals = .ok recorded) :
    recorded.scheduledEventTimestampNs = r.scheduledEventTimestampNs ∧
      recorded.samples = r.samples ++ arrivals.filter r.captures := by
  induction arrivals generalizing r with
  | nil =>
    rw [recordAll, List.foldlM_nil] at h
    obtain rfl := Except.ok.inj h
    simp
  | cons a rest ih =>
    obtain ⟨mid, hmid, hrest⟩ := recordAll_cons_ok h
    obtain ⟨hscheduled, hsamples⟩ := record_ok hmid
    obtain ⟨hscheduled', hsamples'⟩ := ih hrest
    refine ⟨hscheduled'.trans hscheduled, ?_⟩
    rw [hsamples', hsamples, captures_congr hscheduled, List.append_assoc, ← List.filter_append,
      List.singleton_append]

theorem new_ok (h : new timing = .ok recorder) :
    recorder = ⟨timing.measurementStartedUnixEpochNs, timing.eventUnixEpochNs, []⟩ ∧
      timing.eventUnixEpochNs = satAdd timing.measurementStartedUnixEpochNs 60000000000 := by
  simp only [new] at h
  split at h
  · cases h
  · next hfrozen =>
    simp only [not_or, not_not] at hfrozen
    obtain ⟨-, -, -, hoffset, hevent⟩ := hfrozen
    rw [hoffset] at hevent
    exact ⟨(Except.ok.inj h).symm, hevent⟩

/-- An accepted action is within the tolerance of the scheduled event. -/
theorem aligned_of_valid (h : r.validateActionTiming action = .ok ()) :
    ((action.eventTimestampNs : ℤ) - r.scheduledEventTimestampNs).natAbs ≤ 10000000 := by
  simp only [validateActionTiming] at h
  split at h
  · cases h
  · split at h
    · cases h
    · next hfrozen =>
      simp only [not_or, not_not, not_lt] at hfrozen
      obtain ⟨-, -, -, -, -, -, -, -, -, -, herror, -, htolerance, -⟩ := hfrozen
      rw [herror] at htolerance
      simp only [signedOffset, eventAlignmentToleranceNs, i64Max] at htolerance
      split at htolerance <;> omega

/-- Within the tolerance all arrivals of the coverage are captured, but for one at the last
timestamp. -/
theorem captures_iff {a : EventSample}
    (haligned : ((action.eventTimestampNs : ℤ) - r.scheduledEventTimestampNs).natAbs ≤ 10000000)
    (hlo : canonicalGrid.startOffsetNs ≤
      offsetFrom EventSample.receiveUnixEpochNs action.eventTimestampNs a)
    (hhi : offsetFrom EventSample.receiveUnixEpochNs action.eventTimestampNs a <
      canonicalGrid.stopOffsetNs) :
    r.captures a = true ↔ a.receiveUnixEpochNs ≠ u64Max := by
  have hfits := a.fits
  have hstart : eventCoverageStartNs.natAbs = 10000000000 := rfl
  have hend : eventCoverageEndNs.natAbs = 10000000000 := rfl
  have hmargin : eventAlignmentToleranceNs.natAbs = 10000000 := rfl
  simp only [canonicalGrid, EventGrid.stopOffsetNs, eventCoverageStartNs, eventBucketCount,
    eventBucketWidthNs, offsetFrom] at hlo hhi
  rw [captures, hstart, hend, hmargin, decide_eq_true_eq]
  simp only [satAdd, u64Max] at hfits ⊢
  omega

/-- The buckets of the recorder, and the bounds of its boundary. -/
theorem write_ok (hvalid : recorded.validateActionTiming action = .ok ()) (fileName : String) :
    recorded.write fileName action =
      ([(fileName, recorded.artifact action),
        ("throughput-buckets-10ms.json", recorded.fineArtifact action)], .ok ()) := by
  have hfine : Counts fineGrid action recorded.samples (recorded.fineBuckets action) :=
    eventBuckets_counts fineGrid _ _
  have hparents : Counts parentGrid action recorded.samples (recorded.parentBuckets action) :=
    eventBuckets_counts parentGrid _ _
  have htotals : bucketTotals (recorded.parentBuckets action) =
      bucketTotals (recorded.fineBuckets action) := hfine.totals_eq refines hparents
  have hwritten : recorded.writeFineEventBuckets action = .ok (recorded.fineArtifact action) := by
    rw [writeFineEventBuckets, if_neg (not_not.mpr htotals)]
  rw [write, hvalid, hwritten]

/-- The documents are evidence of the arrivals exactly if none arrives at the last timestamp
within the coverage. -/
theorem event_buckets_iff (hnew : new timing = .ok recorder)
    (hrecord : recorder.recordAll arrivals = .ok recorded)
    (haction : recorded.validateActionTiming action = .ok ()) :
    recorded.Evidence action arrivals ↔
      ¬∃ a ∈ arrivals, a.receiveUnixEpochNs = u64Max ∧
        (u64Max : ℤ) - action.eventTimestampNs < eventCoverageEndNs := by
  obtain ⟨rfl, hboundary⟩ := new_ok hnew
  obtain ⟨hscheduled, hsamples⟩ := recordAll_ok hrecord
  rw [List.nil_append] at hsamples
  have hfits : recorded.scheduledEventTimestampNs ≤ u64Max := by
    rw [hscheduled, hboundary]
    exact min_le_right _ _
  have haligned := aligned_of_valid haction
  rw [← captures_congr hscheduled] at hsamples
  -- the grids count what is captured
  have hcounts : ∀ (g : EventGrid), Counts g action (arrivals.filter recorded.captures)
      (eventBucketsOf recorded.samples action.eventTimestampNs g.startOffsetNs g.widthNs
        g.count) := by
    intro g
    rw [hsamples]
    exact eventBuckets_counts g _ _
  have hkept : (∀ a ∈ arrivals, canonicalGrid.startOffsetNs ≤
        offsetFrom EventSample.receiveUnixEpochNs action.eventTimestampNs a →
      offsetFrom EventSample.receiveUnixEpochNs action.eventTimestampNs a <
        canonicalGrid.stopOffsetNs → recorded.captures a = true) ↔
      ¬∃ a ∈ arrivals, a.receiveUnixEpochNs = u64Max ∧
        (u64Max : ℤ) - action.eventTimestampNs < eventCoverageEndNs := by
    have hlast : canonicalGrid.startOffsetNs ≤ (u64Max : ℤ) - action.eventTimestampNs := by
      simp only [canonicalGrid, eventCoverageStartNs]
      omega
    have hstop : canonicalGrid.stopOffsetNs = eventCoverageEndNs := by decide
    rw [← hstop]
    exact keeps_iff_none_last hlast fun a => captures_iff haligned
  constructor
  · intro h
    exact hkept.mp ((hcounts canonicalGrid).of_filter_iff.mp h.canonical)
  · intro hnone
    have hcaptured := hkept.mpr hnone
    have hcanonical : Counts canonicalGrid action arrivals (recorded.buckets action) :=
      (hcounts canonicalGrid).of_filter_iff.mpr hcaptured
    -- the fine coverage lies within the canonical one
    have hwithin : ∀ g : EventGrid, canonicalGrid.startOffsetNs ≤ g.startOffsetNs →
        g.stopOffsetNs ≤ canonicalGrid.stopOffsetNs → Counts g action arrivals
          (eventBucketsOf recorded.samples action.eventTimestampNs g.startOffsetNs g.widthNs
            g.count) := by
      intro g hstart hstop
      refine (hcounts g).of_filter_iff.mpr fun a ha hlo hhi => ?_
      exact hcaptured a ha (hstart.trans hlo) (hhi.trans_le hstop)
    have hfine : Counts fineGrid action arrivals (recorded.fineBuckets action) :=
      hwithin fineGrid (by decide) (by decide)
    have hparents : Counts parentGrid action arrivals (recorded.parentBuckets action) :=
      hwithin parentGrid (by decide) (by decide)
    refine ⟨hcanonical, hfine, hparents, fun a _ hlo hhi => hcanonical.placed hlo hhi, ?_,
      hfine.nested refines hparents, write_ok haction⟩
    intro b hb
    rw [List.mem_append, List.mem_append] at hb
    obtain (hb | hb) | hb := hb
    · exact hcanonical.reconciles hb
    · exact hfine.reconciles hb
    · exact hparents.reconciles hb

/-! ## Two runs -/

/-- The receipts of a measurement that starts at `startNs` and whose event comes `lateNs` late. -/
def frozenTiming (startNs : ℕ) : PublisherTimingReceipt where
  schemaVersion := 1
  measurementClock := "monotonic"
  alignmentClock := "unix-epoch"
  measurementStartedUnixEpochNs := startNs
  eventUnixEpochNs := startNs + 60000000000
  eventOffsetNs := 60000000000

def frozenAction (startNs lateNs : ℕ) : ActionTimingReceipt where
  schemaVersion := 1
  timestampClock := "unix-epoch"
  timestampClockPurpose := "cross-process-alignment"
  schedulingClock := "monotonic"
  durationClock := "monotonic"
  measurementStartTimestampNs := startNs
  scheduledEventOffsetNs := 60000000000
  scheduledEventTimestampNs := startNs + 60000000000
  eventTimestampNs := startNs + 60000000000 + lateNs
  eventOffsetFromMeasurementStartNs := 60000000000 + lateNs
  alignmentErrorNs := lateNs
  alignmentToleranceNs := 10000000
  actionStartTimestampNs := startNs + 60000000000 + lateNs
  actionEndTimestampNs := startNs + 60000000000 + lateNs
  actionEndOffsetNs := 0
  actionStartMonotonicNs := 0
  actionEndMonotonicNs := 0
  actionDurationNs := 0

/-- An arrival at the event, one that comes again, and one before the capture window. -/
def swapArrivals : List EventSample :=
  [⟨1000000000000, false, by decide⟩, ⟨1060005000000, false, by decide⟩,
    ⟨1061000000000, true, by decide⟩]

theorem event_buckets_iff_late :
    let recorded : EventBucketRecorder :=
      ⟨1000000000000, 1060000000000, swapArrivals.drop 1⟩
    let action := frozenAction 1000000000000 5000000
    recorded.Evidence action swapArrivals ↔
      ¬∃ a ∈ swapArrivals, a.receiveUnixEpochNs = u64Max ∧
        (u64Max : ℤ) - action.eventTimestampNs < eventCoverageEndNs :=
  @event_buckets_iff ⟨1000000000000, 1060000000000, []⟩ _ _ (frozenTiming 1000000000000) _
    (by decide +kernel) (by decide +kernel) (by decide +kernel)

/-- An arrival at the event, which is at the last timestamp. -/
def lastArrival : EventSample := ⟨u64Max, false, le_rfl⟩

theorem lastArrival_not_counted :
    let startNs := u64Max - 60000000000
    let recorder : EventBucketRecorder := ⟨startNs, u64Max, []⟩
    let action := frozenAction startNs 0
    new (frozenTiming startNs) = .ok recorder ∧
      recorder.recordAll [lastArrival] = .ok recorder ∧
      recorder.validateActionTiming action = .ok () ∧
      ¬recorder.Evidence action [lastArrival] := by
  refine ⟨by decide +kernel, by decide +kernel, by decide +kernel, fun h => ?_⟩
  have hnothing : Counts canonicalGrid (frozenAction (u64Max - 60000000000) 0) []
      (buckets ⟨u64Max - 60000000000, u64Max, []⟩ (frozenAction (u64Max - 60000000000) 0)) :=
    eventBuckets_counts canonicalGrid _ _
  have hsum := hnothing.sums.1.symm.trans h.canonical.sums.1
  have hzero : countIn (offsetFrom EventSample.receiveUnixEpochNs
      (frozenAction (u64Max - 60000000000) 0).eventTimestampNs) canonicalGrid.startOffsetNs
      canonicalGrid.stopOffsetNs [] = 0 := rfl
  have hone : countIn (offsetFrom EventSample.receiveUnixEpochNs
      (frozenAction (u64Max - 60000000000) 0).eventTimestampNs) canonicalGrid.startOffsetNs
      canonicalGrid.stopOffsetNs [lastArrival] = 1 := by decide +kernel
  rw [hzero, hone] at hsum
  exact absurd hsum (by decide)

end EventBucketRecorder

end Wafer
