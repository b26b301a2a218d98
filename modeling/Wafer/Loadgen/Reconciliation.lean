import Wafer.Loadgen.IntervalRows
import Wafer.Types.Sequence
import Wafer.Types.Intervals

/-!
# Reconciling a subscriber run

Message totals, histogram, sequence tracker and interval rows are counted apart
and agree: the totals after every run, the rows where the messages come in the
order of their stamps and no recorded one lies as far behind the first as there
are rows.

## Main results

- `IntervalRecorder.Kept.record`, `Kept.finalize` — what the rows keep
- `SubscriberRun.reconciled` — when rows and totals of a run agree
-/

namespace Wafer

open Lib

namespace IntervalRecorder

variable {quantile : List Latency → ℚ → ℕ} {r r' : IntervalRecorder}
  {samples : List IntervalSample} {elapsedNs : ℕ} {latency : Latency} {duplicate : Bool}

/-- An open recorder has counted every sample in its second, and each has a latency. -/
structure Kept (samples : List IntervalSample) (r : IntervalRecorder) : Prop where
  bySecond : BySecond samples r.currentBucket r.rows
    (r.currentEvents, r.currentUnique, r.currentDuplicates)
  held : r.currentHistogram.length = r.currentEvents
  latencies : ∀ row ∈ r.rows, row.latencyCount = row.receivedEvents
  late : r.lateArrivals = 0

/-- Nothing but the seconds changes. -/
structure SameLimits (r r' : IntervalRecorder) : Prop where
  maximumRows : r'.maximumRows = r.maximumRows
  finalized : r'.finalized = r.finalized

theorem SameLimits.trans {r'' : IntervalRecorder} (h : SameLimits r r') (h' : SameLimits r' r'') :
    SameLimits r r'' :=
  ⟨h'.maximumRows.trans h.maximumRows, h'.finalized.trans h.finalized⟩

/-- The row of the open second has its sums and starts with it. -/
theorem currentRow_tally (r : IntervalRecorder) (widthNs : ℕ) :
    (r.currentRow quantile widthNs).tally =
      (r.currentEvents, r.currentUnique, r.currentDuplicates) := rfl

theorem currentRow_start (hfit : r.currentBucket * intervalWidthNs ≤ u64Max) (widthNs : ℕ) :
    (r.currentRow quantile widthNs).intervalStartNs = r.currentBucket * intervalWidthNs :=
  @secondRow_start quantile r.measurementStartUnixEpochNs _ widthNs r.currentHistogram
    r.currentEvents r.currentUnique r.currentDuplicates hfit

theorem currentRow_end (hfit : (r.currentBucket + 1) * intervalWidthNs ≤ u64Max) :
    (r.currentRow quantile intervalWidthNs).intervalEndNs =
      (r.currentBucket + 1) * intervalWidthNs :=
  @secondRow_end quantile r.measurementStartUnixEpochNs _ r.currentHistogram r.currentEvents
    r.currentUnique r.currentDuplicates hfit

/-- There is room for one row more, and every row has a latency for each of its events. -/
theorem Kept.finishCurrent (h : r.Kept samples) (hroom : r.currentBucket < r.maximumRows)
    (widthNs : ℕ) :
    ∃ r', r.finishCurrent quantile widthNs = .ok r' ∧ SameLimits r r' ∧
      r'.rows = r.rows ++ [r.currentRow quantile widthNs] ∧
      r'.currentBucket = r.currentBucket + 1 ∧ r'.currentEvents = 0 ∧ r'.currentUnique = 0 ∧
      r'.currentDuplicates = 0 ∧ r'.currentHistogram = [] ∧ r'.lateArrivals = 0 ∧
      ∀ row ∈ r'.rows, row.latencyCount = row.receivedEvents := by
  have hne : r.rows.length ≠ r.maximumRows := by
    rw [h.bySecond.length]
    omega
  refine ⟨_, if_neg hne, ⟨rfl, rfl⟩, rfl, rfl, rfl, rfl, rfl, rfl, h.late, ?_⟩
  intro row hrow
  rw [List.mem_append, List.mem_singleton] at hrow
  obtain hrow | rfl := hrow
  · exact h.latencies row hrow
  · exact h.held

/-- The loop over full seconds runs to its end as long as there are rows for them. -/
theorem Kept.finishSeconds {count : ℕ} (h : r.Kept samples)
    (hroom : r.currentBucket + count ≤ r.maximumRows)
    (hfit : (r.currentBucket + count) * intervalWidthNs ≤ u64Max) :
    ∃ r', IntervalRecorder.finishSeconds quantile count r = .ok r' ∧ r'.Kept samples ∧
      SameLimits r r' ∧ r'.currentBucket = r.currentBucket + count := by
  induction count generalizing r with
  | zero => exact ⟨r, rfl, h, ⟨rfl, rfl⟩, rfl⟩
  | succ count ih =>
    obtain ⟨mid, hmid, hsame, hrows, hbucket, hevents, hunique, hdup, hhist, hlate, hlat⟩ :=
      @Kept.finishCurrent quantile r _ h (by omega) intervalWidthNs
    have hmul : (r.currentBucket + 1) * intervalWidthNs ≤
        (r.currentBucket + (count + 1)) * intervalWidthNs := Nat.mul_le_mul_right _ (by omega)
    have hkept : mid.Kept samples := by
      refine ⟨?_, ?_, hlat, hlate⟩
      · rw [hrows, hbucket, hevents, hunique, hdup]
        refine h.bySecond.close (currentRow_tally r _) (currentRow_start ?_ _)
          (currentRow_end (hmul.trans hfit))
        rw [Nat.add_mul, Nat.one_mul] at hmul
        omega
      · rw [hhist, hevents]
        rfl
    have hcount : mid.currentBucket + count = r.currentBucket + (count + 1) := by omega
    obtain ⟨r', hr', hkept', hsame', hbucket'⟩ :=
      ih hkept (by rw [hcount, hsame.maximumRows]; exact hroom) (by rw [hcount]; exact hfit)
    refine ⟨r', ?_, hkept', hsame.trans hsame', by omega⟩
    rw [IntervalRecorder.finishSeconds, hmid]
    exact hr'

/-- A sample no earlier than the ones before it goes to its second, if there is a row for it. -/
theorem Kept.record (h : r.Kept samples) (hreached : r.currentBucket ≤ elapsedNs / intervalWidthNs)
    (hroom : elapsedNs / intervalWidthNs < r.maximumRows) (hfit : elapsedNs ≤ u64Max) :
    ∃ r', r.record quantile elapsedNs latency duplicate = .ok r' ∧
      r'.Kept (samples ++ [⟨elapsedNs, duplicate⟩]) ∧ SameLimits r r' ∧
      r'.currentBucket = elapsedNs / intervalWidthNs := by
  have hto : r.currentBucket + (elapsedNs / intervalWidthNs - r.currentBucket) =
      elapsedNs / intervalWidthNs := by omega
  have hstart : elapsedNs / intervalWidthNs * intervalWidthNs ≤ elapsedNs := Nat.div_mul_le_self ..
  obtain ⟨mid, hmid, hkept, hsame, hbucket⟩ := @Kept.finishSeconds quantile r _
    (elapsedNs / intervalWidthNs - r.currentBucket) h (by omega) (by rw [hto]; omega)
  rw [hto] at hbucket
  refine ⟨mid.count latency duplicate, ?_, ?_, ⟨hsame.maximumRows, hsame.finalized⟩, hbucket⟩
  · simp only [IntervalRecorder.record, advanceTo, hmid]
    rw [if_neg (by omega), if_neg (by omega)]
  · refine ⟨?_, ?_, hkept.latencies, hkept.late⟩
    · have hadd := hkept.bySecond.add (s := ⟨elapsedNs, duplicate⟩) hbucket.symm
      cases duplicate with
      | true => exact hadd
      | false => exact hadd
    · rw [IntervalRecorder.count, List.length_append, hkept.held]
      rfl

/-- Beyond the last row the limit is exceeded. -/
theorem record_exceeds (hreached : r.currentBucket ≤ elapsedNs / intervalWidthNs)
    (hbeyond : r.maximumRows ≤ elapsedNs / intervalWidthNs) :
    r.record quantile elapsedNs latency duplicate = .error r.limitExceeded := by
  simp only [IntervalRecorder.record]
  rw [if_neg (by omega), if_pos hbeyond]

/-- The finalisation closes the rows over every sample, if some time has passed and there is a row
for the last of it. -/
theorem Kept.finalize (h : r.Kept samples) (hfresh : r.finalized = false) (hpos : 0 < elapsedNs)
    (hopen : r.currentBucket < r.maximumRows)
    (hreached : r.currentBucket ≤ elapsedNs / intervalWidthNs)
    (hroom : (elapsedNs - 1) / intervalWidthNs < r.maximumRows) (hfit : elapsedNs ≤ u64Max) :
    ∃ r', r.finalize quantile elapsedNs = .ok r' ∧ CountsBySecond samples r'.rows ∧
      r'.lateArrivals = 0 ∧ r'.finalized = true ∧
      ∀ row ∈ r'.rows, row.latencyCount = row.receivedEvents := by
  have hbegun : Kept samples { r with finalized := true } :=
    ⟨h.bySecond, h.held, h.latencies, h.late⟩
  have hopened : r.currentBucket * intervalWidthNs ≤ elapsedNs :=
    (Nat.mul_le_mul_right _ hreached).trans (Nat.div_mul_le_self ..)
  -- the open second may already lie behind the last full one
  obtain ⟨hto, hmax⟩ := closing_second (hopened.trans hfit) hfit
  obtain ⟨mid, hmid, hkept, hsame, hbucket⟩ := @Kept.finishSeconds quantile _ _
    ((elapsedNs - 1) / intervalWidthNs - r.currentBucket) hbegun
    (by simp only [hto]; omega) (by simp only [hto]; exact hmax)
  simp only [hto] at hbucket
  have hrows : mid.currentBucket < mid.maximumRows := by
    rw [hsame.maximumRows, hbucket]
    exact max_lt hopen hroom
  obtain ⟨r', hr', hsame', hrows', -, -, -, -, -, hlate, hlat⟩ := @Kept.finishCurrent quantile mid _
    hkept hrows (if elapsedNs % intervalWidthNs = 0 then intervalWidthNs
      else elapsedNs % intervalWidthNs)
  refine ⟨r', ?_, ?_, hlate, hsame'.finalized.trans hsame.finalized, hlat⟩
  · simp only [IntervalRecorder.finalize, hfresh, Bool.false_eq_true, if_false, advanceTo]
    rw [if_neg (by omega), if_neg (by omega), hmid]
    exact hr'
  · rw [hrows']
    exact hkept.bySecond.finish (currentRow_tally mid _) (currentRow_start (by rw [hbucket]; exact hmax) _)

end IntervalRecorder

/-! ## The recorded messages -/

/-- The recorded messages of a run as samples of the time since the first of them. -/
def recordedSamples (fromSlice : List UInt8 → Option TimestampedMessage) (finish : Option ℕ) :
    Option ℕ → SequenceTracker → List Arrival → List IntervalSample
  | _, _, [] => []
  | origin, tracker, a :: rest =>
    match measuredSeq fromSlice finish a.payload with
    | none => recordedSamples fromSlice finish origin tracker rest
    | some seq =>
      let first := origin.getD a.elapsedNs
      { elapsedNs := a.elapsedNs - first, duplicate := (tracker.record seq).1.isDuplicate } ::
        recordedSamples fromSlice finish (some first) (tracker.record seq).2 rest

/-- The elapsed times of the recorded messages. -/
def recordedTimes (fromSlice : List UInt8 → Option TimestampedMessage) (finish : Option ℕ)
    (arrivals : List Arrival) : List ℕ :=
  (arrivals.filter fun a => (measuredSeq fromSlice finish a.payload).isSome).map (·.elapsedNs)

namespace LatencyRecorder

variable {fromSlice : List UInt8 → Option TimestampedMessage} {quantile : List Latency → ℚ → ℕ}
  {recorder : LatencyRecorder} {a : Arrival} {seq : ℕ}

/-- The totals of a recorder agree. -/
structure TotalsAgree (recorder : LatencyRecorder) : Prop where
  messages : recorder.totalMessages = recorder.histogram.length + recorder.parseErrors
  sequence : recorder.histogram.length = recorder.sequence.unique + recorder.sequence.duplicates +
    recorder.sequence.outOfRange

theorem feedIntervals_totals (recorder : LatencyRecorder) (r : IntervalRecorder) (latency : Latency)
    (receiveNs elapsedNs : ℕ) :
    (recorder.feedIntervals quantile r latency receiveNs elapsedNs).totalMessages =
        recorder.totalMessages ∧
      (recorder.feedIntervals quantile r latency receiveNs elapsedNs).parseErrors =
        recorder.parseErrors ∧
      (recorder.feedIntervals quantile r latency receiveNs elapsedNs).sequence =
        recorder.sequence := by
  simp only [feedIntervals]
  split
  · exact ⟨rfl, rfl, rfl⟩
  · exact ⟨rfl, rfl, rfl⟩

/-- Whatever arrives, the totals go on to agree. -/
theorem TotalsAgree.recordJsonAt (h : recorder.TotalsAgree) (a : Arrival) :
    (recorder.recordJsonAt fromSlice quantile a.payload a.receiveNs a.elapsedNs).2.TotalsAgree := by
  have hmessages := h.messages
  have hsequence := h.sequence
  cases hm : measuredSeq fromSlice recorder.sequenceEndExclusive a.payload with
  | none =>
    obtain ⟨errors, ignored, heq⟩ := @recordJsonAt_unmeasured fromSlice quantile recorder a.payload a.receiveNs
      a.elapsedNs hm
    rw [heq]
    exact ⟨by simp only; omega, hsequence⟩
  | some seq =>
    obtain ⟨latency, clamps, heq⟩ := @recordJsonAt_recorded fromSlice quantile recorder a.payload a.receiveNs
      a.elapsedNs seq hm
    obtain ⟨hdup, huniq⟩ := recorder.sequence.record_counts seq
    have hagree : ∀ next : LatencyRecorder,
        next.histogram = recorder.histogram ++ [latency] →
        next.totalMessages = recorder.totalMessages + 1 → next.parseErrors = recorder.parseErrors →
        next.sequence = (recorder.sequence.record seq).2 → next.TotalsAgree := by
      intro next hhist htotal herrors hseq
      constructor
      · rw [hhist, htotal, herrors, List.length_append, List.length_singleton]
        omega
      · rw [hhist, hseq, List.length_append, List.length_singleton]
        cases hd : (recorder.sequence.record seq).1.isDuplicate with
        | true =>
          rw [hd, if_pos rfl] at hdup huniq
          omega
        | false =>
          rw [hd, if_neg nofun] at hdup huniq
          omega
    rw [heq]
    cases recorder.intervals with
    | none => exact hagree _ rfl rfl rfl rfl
    | some r =>
      obtain ⟨htotal, herrors, hseq⟩ := @feedIntervals_totals quantile _ r latency a.receiveNs
        a.elapsedNs
      exact hagree _ feedIntervals_frame.1 htotal herrors hseq

/-- Open intervals that have counted the samples, with seconds left. -/
structure OpenIntervals (limit : ℕ) (samples : List IntervalSample) (r : IntervalRecorder) :
    Prop where
  kept : r.Kept samples
  rowLimit : r.maximumRows = limit
  fresh : r.finalized = false
  room : r.currentBucket < limit
  reached : ∀ e, (∀ s ∈ samples, s.elapsedNs ≤ e) → r.currentBucket ≤ e / intervalWidthNs

/-- A recorder that still has its intervals: they have every recorded sample, and the tracker has
classified each. -/
structure Keeps (limit : ℕ) (samples : List IntervalSample) (recorder : LatencyRecorder) :
    Prop where
  intervals : ∃ r, recorder.intervals = some r ∧ OpenIntervals limit samples r
  origin : recorder.intervalOriginElapsedNs = none → samples = []
  population : recorder.histogram.length = samples.length
  duplicates : recorder.sequence.duplicates = samples.countP (·.duplicate)
  unique : recorder.sequence.unique + recorder.sequence.outOfRange = samples.countP (!·.duplicate)
  complete : recorder.partialReasons = []

variable {limit : ℕ} {samples : List IntervalSample} {r : IntervalRecorder}

/-- A sample no earlier than the others goes to the open intervals, if there is a row for it. -/
theorem OpenIntervals.record (h : OpenIntervals limit samples r) {elapsedNs : ℕ}
    (hlast : ∀ s ∈ samples, s.elapsedNs ≤ elapsedNs) (hfit : elapsedNs ≤ u64Max)
    (hroom : elapsedNs / intervalWidthNs < limit) (latency : Latency) (duplicate : Bool) :
    ∃ r', r.record quantile elapsedNs latency duplicate = .ok r' ∧
      OpenIntervals limit (samples ++ [⟨elapsedNs, duplicate⟩]) r' := by
  obtain ⟨r', hr', hkept, hsame, hbucket⟩ :=
    h.kept.record (h.reached elapsedNs hlast) (h.rowLimit ▸ hroom) hfit
  refine ⟨r', hr', hkept, hsame.maximumRows.trans h.rowLimit, hsame.finalized.trans h.fresh, ?_, ?_⟩
  · rw [hbucket]
    exact hroom
  · intro e he
    rw [hbucket]
    exact Nat.div_le_div_right (he ⟨elapsedNs, duplicate⟩ (by simp))

/-- The first sample only moves the start of the measurement. -/
theorem OpenIntervals.begin_ (h : OpenIntervals limit samples r) (receiveNs elapsedNs : ℕ) :
    (recorder.beginIntervals r receiveNs elapsedNs).1 =
        recorder.intervalOriginElapsedNs.getD elapsedNs ∧
      OpenIntervals limit samples (recorder.beginIntervals r receiveNs elapsedNs).2 := by
  simp only [beginIntervals]
  cases recorder.intervalOriginElapsedNs with
  | some origin => exact ⟨rfl, h⟩
  | none =>
    exact ⟨rfl, ⟨h.kept.bySecond, h.kept.held, h.kept.latencies, h.kept.late⟩, h.rowLimit, h.fresh,
      h.room, h.reached⟩

/-- What open intervals make of a sample: they count it, or are dropped for the row limit. -/
theorem OpenIntervals.feed (h : OpenIntervals limit samples r) {receiveNs elapsedNs origin e : ℕ}
    (horigin : recorder.intervalOriginElapsedNs.getD elapsedNs = origin) (he : elapsedNs - origin = e)
    (hlast : ∀ s ∈ samples, s.elapsedNs ≤ e) (hfit : e ≤ u64Max) (latency : Latency) :
    (e / intervalWidthNs < limit → ∃ r',
      recorder.feedIntervals quantile r latency receiveNs elapsedNs =
          { recorder with intervals := some r', intervalOriginElapsedNs := some origin } ∧
        OpenIntervals limit (samples ++ [⟨e, recorder.lastRecordDuplicate⟩]) r') ∧
    (limit ≤ e / intervalWidthNs →
      (recorder.feedIntervals quantile r latency receiveNs elapsedNs).intervals = none ∧
        (recorder.feedIntervals quantile r latency receiveNs elapsedNs).intervalOriginElapsedNs =
          some origin) := by
  obtain ⟨hfirst, hopen⟩ := @OpenIntervals.begin_ recorder limit samples r h receiveNs elapsedNs
  simp only [feedIntervals]
  rw [hfirst, horigin, he]
  constructor
  · intro hroom
    obtain ⟨r', hr', hnext⟩ := @OpenIntervals.record quantile limit samples _ hopen e hlast hfit hroom
      latency recorder.lastRecordDuplicate
    rw [hr']
    exact ⟨r', rfl, hnext⟩
  · intro hbeyond
    rw [IntervalRecorder.record_exceeds (hopen.reached e hlast) (hopen.rowLimit ▸ hbeyond)]
    exact ⟨rfl, rfl⟩

/-- One recorded message more for the open intervals: a sample more, or no intervals. -/
theorem Keeps.counted (h : recorder.Keeps limit samples) (hr : recorder.intervals = some r)
    {counted : LatencyRecorder} {latency : Latency} {receiveNs elapsedNs origin e : ℕ}
    (hhist : counted.histogram = recorder.histogram ++ [latency])
    (hseq : counted.sequence = (recorder.sequence.record seq).2)
    (hdup : counted.lastRecordDuplicate = (recorder.sequence.record seq).1.isDuplicate)
    (hreasons : counted.partialReasons = recorder.partialReasons)
    (hbegan : counted.intervalOriginElapsedNs.getD elapsedNs = origin)
    (he : elapsedNs - origin = e) (hlast : ∀ s ∈ samples, s.elapsedNs ≤ e) (hfit : e ≤ u64Max) :
    (e / intervalWidthNs < limit →
      (counted.feedIntervals quantile r latency receiveNs elapsedNs).Keeps limit
          (samples ++ [⟨e, counted.lastRecordDuplicate⟩]) ∧
        (counted.feedIntervals quantile r latency receiveNs elapsedNs).intervalOriginElapsedNs =
          some origin) ∧
    (limit ≤ e / intervalWidthNs →
      (counted.feedIntervals quantile r latency receiveNs elapsedNs).intervals = none) := by
  obtain ⟨r₀, hr₀, hopen⟩ := h.intervals
  obtain rfl := Option.some.inj (hr.symm.trans hr₀)
  obtain ⟨hkeeps, hdrops⟩ := @OpenIntervals.feed quantile counted limit samples r hopen receiveNs
    elapsedNs origin e hbegan he hlast hfit latency
  refine ⟨?_, fun hbeyond => (hdrops hbeyond).1⟩
  intro hroom
  obtain ⟨r', hfed, hopen'⟩ := hkeeps hroom
  obtain ⟨hdups, hunique⟩ := recorder.sequence.record_counts seq
  have hduplicates := h.duplicates
  have hfirst := h.unique
  rw [hfed]
  refine ⟨⟨⟨r', rfl, hopen'⟩, nofun, ?_, ?_, ?_, hreasons.trans h.complete⟩, rfl⟩
  · show counted.histogram.length = _
    rw [hhist, List.length_append, List.length_append, h.population]
    rfl
  -- tracker and samples count a duplicate alike
  · show counted.sequence.duplicates = _
    rw [hseq, hdup, hdups, List.countP_append, hduplicates]
    cases (recorder.sequence.record seq).1.isDuplicate with
    | true => rfl
    | false => rfl
  -- and so they do what is none, in the population or outside it
  · show counted.sequence.unique + counted.sequence.outOfRange = _
    rw [hseq, hdup, List.countP_append, ← hfirst]
    cases hd : (recorder.sequence.record seq).1.isDuplicate with
    | true =>
      rw [hd, if_pos rfl] at hunique
      rw [List.countP_singleton, if_neg nofun]
      omega
    | false =>
      rw [hd, if_neg nofun] at hunique
      rw [List.countP_singleton]
      exact hunique

/-- What a recorded message comes to. -/
theorem Keeps.recorded (h : recorder.Keeps limit samples) {origin e : ℕ}
    (hm : measuredSeq fromSlice recorder.sequenceEndExclusive a.payload = some seq)
    (hbegan : recorder.intervalOriginElapsedNs.getD a.elapsedNs = origin)
    (he : a.elapsedNs - origin = e) (hlast : ∀ s ∈ samples, s.elapsedNs ≤ e) (hfit : e ≤ u64Max)
    {next : LatencyRecorder}
    (hnext : (recorder.recordJsonAt fromSlice quantile a.payload a.receiveNs a.elapsedNs).2 = next) :
    next.sequenceEndExclusive = recorder.sequenceEndExclusive ∧
      next.sequence = (recorder.sequence.record seq).2 ∧
      (e / intervalWidthNs < limit →
        next.Keeps limit (samples ++ [⟨e, (recorder.sequence.record seq).1.isDuplicate⟩]) ∧
          next.intervalOriginElapsedNs = some origin) ∧
      (limit ≤ e / intervalWidthNs → next.intervals = none) := by
  obtain ⟨r, hr, -⟩ := h.intervals
  obtain ⟨latency, clamps, heq⟩ := @recordJsonAt_recorded fromSlice quantile recorder a.payload a.receiveNs
      a.elapsedNs seq hm
  simp only [hr] at heq
  rw [hnext] at heq
  subst heq
  have hcounted := @Keeps.counted quantile recorder seq limit samples r h hr
    { recorder with
      histogram := recorder.histogram ++ [latency]
      sequence := (recorder.sequence.record seq).2
      totalMessages := recorder.totalMessages + 1
      lastRecordDuplicate := (recorder.sequence.record seq).1.isDuplicate
      clamps
      clockSteps := recorder.clockSteps.observe a.receiveNs a.elapsedNs }
    latency a.receiveNs a.elapsedNs origin e rfl rfl rfl rfl hbegan he hlast hfit
  exact ⟨feedIntervals_frame.2, (feedIntervals_totals ..).2.2, hcounted.1, hcounted.2⟩

/-- A message that is not recorded changes nothing that is reconciled with the rows. -/
theorem Keeps.unmeasured (h : recorder.Keeps limit samples)
    (hm : measuredSeq fromSlice recorder.sequenceEndExclusive a.payload = none)
    {next : LatencyRecorder}
    (hnext : (recorder.recordJsonAt fromSlice quantile a.payload a.receiveNs a.elapsedNs).2 = next) :
    next.sequenceEndExclusive = recorder.sequenceEndExclusive ∧
      next.sequence = recorder.sequence ∧
      next.intervalOriginElapsedNs = recorder.intervalOriginElapsedNs ∧
      next.Keeps limit samples := by
  obtain ⟨errors, ignored, heq⟩ := @recordJsonAt_unmeasured fromSlice quantile recorder a.payload a.receiveNs
      a.elapsedNs hm
  rw [hnext] at heq
  subst heq
  exact ⟨rfl, rfl, rfl, h.intervals, h.origin, h.population, h.duplicates, h.unique, h.complete⟩

/-- Intervals that were dropped stay dropped. -/
theorem recordJsonAt_dropped (h : recorder.intervals = none) (a : Arrival) :
    (recorder.recordJsonAt fromSlice quantile a.payload a.receiveNs a.elapsedNs).2.intervals =
      none := by
  cases hm : measuredSeq fromSlice recorder.sequenceEndExclusive a.payload with
  | none =>
    obtain ⟨errors, ignored, heq⟩ := @recordJsonAt_unmeasured fromSlice quantile recorder a.payload a.receiveNs
      a.elapsedNs hm
    rw [heq]
    exact h
  -- without intervals there is nothing to feed
  | some seq =>
    obtain ⟨latency, clamps, heq⟩ := @recordJsonAt_recorded fromSlice quantile recorder a.payload a.receiveNs
      a.elapsedNs seq hm
    simp only [h] at heq
    rw [heq]

end LatencyRecorder

/-! ## Whole runs -/

namespace SubscriberRun

/-- The tracker a run starts with. -/
def tracker (run : SubscriberRun) : SequenceTracker :=
  ((LatencyRecorder.withSequenceExampleLimit run.sequenceExampleLimit).withSequenceEnd
    run.sequenceEndExclusive).sequence

def maximumRows (run : SubscriberRun) : ℕ :=
  run.measurementSecs + run.publisherDrainSecs + run.drainGraceSecs + 2

/-- The recorded samples of the run. -/
def samples (fromSlice : List UInt8 → Option TimestampedMessage) (run : SubscriberRun) :
    List IntervalSample :=
  recordedSamples fromSlice run.sequenceEndExclusive none run.tracker run.arrivals

/-- When the recorded messages of the run came. -/
def times (fromSlice : List UInt8 → Option TimestampedMessage) (run : SubscriberRun) : List ℕ :=
  recordedTimes fromSlice run.sequenceEndExclusive run.arrivals

variable {fromSlice : List UInt8 → Option TimestampedMessage} {quantile : List Latency → ℚ → ℕ}
  {run : SubscriberRun} {recorder : LatencyRecorder} {limit : ℕ} {samples : List IntervalSample}
  {arrivals : List Arrival}

theorem recordAll_totals (h : recorder.TotalsAgree) (arrivals : List Arrival) :
    (recordAll fromSlice quantile recorder arrivals).TotalsAgree := by
  induction arrivals generalizing recorder with
  | nil => exact h
  | cons a rest ih => exact ih (h.recordJsonAt a)

theorem recordAll_dropped (h : recorder.intervals = none) (arrivals : List Arrival) :
    (recordAll fromSlice quantile recorder arrivals).intervals = none := by
  induction arrivals generalizing recorder with
  | nil => exact h
  | cons a rest ih => exact ih (recorder.recordJsonAt_dropped h a)

/-- Messages in the order of their stamps: all samples are kept if each has a row, and otherwise
the intervals are dropped. -/
theorem recordAll_keeps (h : recorder.Keeps limit samples)
    (hsorted : (arrivals.map (·.elapsedNs)).Pairwise (· ≤ ·))
    (hfit : ∀ a ∈ arrivals, a.elapsedNs ≤ u64Max)
    (hlater : ∀ s ∈ samples, ∀ a ∈ arrivals,
      s.elapsedNs ≤ a.elapsedNs - recorder.intervalOriginElapsedNs.getD a.elapsedNs)
    {more : List IntervalSample}
    (hmore : recordedSamples fromSlice recorder.sequenceEndExclusive recorder.intervalOriginElapsedNs
      recorder.sequence arrivals = more) :
    ((∀ s ∈ more, s.second < limit) →
      (recordAll fromSlice quantile recorder arrivals).Keeps limit (samples ++ more) ∧
        (recordAll fromSlice quantile recorder arrivals).intervalOriginElapsedNs =
          recorder.intervalOriginElapsedNs.or
            (recordedTimes fromSlice recorder.sequenceEndExclusive arrivals).head?) ∧
    ((∃ s ∈ more, limit ≤ s.second) →
      (recordAll fromSlice quantile recorder arrivals).intervals = none) := by
  induction arrivals generalizing recorder samples more with
  | nil =>
    subst hmore
    refine ⟨fun _ => ⟨?_, (Option.or_none).symm⟩, fun ⟨s, hs, _⟩ => nomatch hs⟩
    simpa only [recordedSamples, List.append_nil, recordAll] using h
  | cons a rest ih =>
    rw [List.map_cons, List.pairwise_cons] at hsorted
    obtain ⟨hfirst, hsorted⟩ := hsorted
    have hfit' : ∀ b ∈ rest, b.elapsedNs ≤ u64Max := fun b hb => hfit b (List.mem_cons_of_mem a hb)
    simp only [recordAll]
    generalize hnext : (recorder.recordJsonAt fromSlice quantile a.payload a.receiveNs
      a.elapsedNs).2 = next
    cases hm : measuredSeq fromSlice recorder.sequenceEndExclusive a.payload with
    | none =>
      obtain ⟨hfinish, hseq, horigin, hkeeps⟩ := h.unmeasured hm hnext
      have htimes : recordedTimes fromSlice recorder.sequenceEndExclusive (a :: rest) =
          recordedTimes fromSlice recorder.sequenceEndExclusive rest := by
        simp [recordedTimes, hm]
      simp only [recordedSamples, hm] at hmore
      rw [← hfinish, ← hseq, ← horigin] at hmore
      have hrest := ih hkeeps hsorted hfit' ?_ hmore
      · rwa [hfinish, horigin, ← htimes] at hrest
      · intro s hs b hb
        rw [horigin]
        exact hlater s hs b (List.mem_cons_of_mem a hb)
    | some seq =>
      have htimes : (recordedTimes fromSlice recorder.sequenceEndExclusive (a :: rest)).head? =
          some a.elapsedNs := by
        simp [recordedTimes, hm]
      simp only [recordedSamples, hm] at hmore
      generalize hbegan : recorder.intervalOriginElapsedNs.getD a.elapsedNs = origin at hmore
      generalize he : a.elapsedNs - origin = e at hmore
      have hlast : ∀ s ∈ samples, s.elapsedNs ≤ e := by
        intro s hs
        rw [← he, ← hbegan]
        exact hlater s hs a List.mem_cons_self
      have hsmall : e ≤ u64Max := by
        rw [← he]
        exact (Nat.sub_le _ _).trans (hfit a List.mem_cons_self)
      obtain ⟨hfinish, hseq, hkeeps, hdrops⟩ := h.recorded hm hbegan he hlast hsmall hnext
      subst hmore
      -- a message behind the last row costs the intervals for the rest of the run
      by_cases hroom : e / intervalWidthNs < limit
      · obtain ⟨hkept, horigin⟩ := hkeeps hroom
        have hrest := ih hkept hsorted hfit' ?_ rfl
        · rw [hfinish, hseq, horigin, List.append_assoc] at hrest
          refine ⟨?_, ?_⟩
          · intro hall
            rw [List.forall_mem_cons] at hall
            obtain ⟨hall', hbegun⟩ := hrest.1 hall.2
            refine ⟨hall', hbegun.trans ?_⟩
            rw [htimes, ← hbegan]
            cases recorder.intervalOriginElapsedNs with
            | none => rfl
            | some origin => rfl
          · rintro ⟨s, hs, hbeyond⟩
            obtain rfl | hs := List.mem_cons.mp hs
            · exact absurd hroom (Nat.not_lt.mpr hbeyond)
            · exact hrest.2 ⟨s, hs, hbeyond⟩
        · -- the messages to come are no earlier than this one
          intro s hs b hb
          rw [horigin]
          have hab : a.elapsedNs ≤ b.elapsedNs := hfirst _ (List.mem_map_of_mem hb)
          rw [List.mem_append, List.mem_singleton] at hs
          obtain hs | rfl := hs
          · have hle := hlast s hs
            simp only [Option.getD_some]
            omega
          · simp only [Option.getD_some]
            omega
      · refine ⟨?_, fun _ => recordAll_dropped (hdrops (Nat.not_lt.mp hroom)) rest⟩
        intro hall
        exact absurd (hall _ List.mem_cons_self) hroom

/-- A sample's time is that of its message since the first recorded one. -/
theorem recordedSamples_elapsed {finish : Option ℕ} (origin : Option ℕ) (tracker : SequenceTracker)
    (arrivals : List Arrival) :
    (recordedSamples fromSlice finish origin tracker arrivals).map (·.elapsedNs) =
      (recordedTimes fromSlice finish arrivals).map
        (· - (origin.or (recordedTimes fromSlice finish arrivals).head?).getD 0) := by
  induction arrivals generalizing origin tracker with
  | nil => rfl
  | cons a rest ih =>
    cases hm : measuredSeq fromSlice finish a.payload with
    | none =>
      have htimes : recordedTimes fromSlice finish (a :: rest) =
          recordedTimes fromSlice finish rest := by
        simp [recordedTimes, hm]
      simp only [recordedSamples, hm]
      rw [htimes]
      exact ih origin tracker
    | some seq =>
      have htimes : recordedTimes fromSlice finish (a :: rest) =
          a.elapsedNs :: recordedTimes fromSlice finish rest := by
        simp [recordedTimes, hm]
      have hfirst : (origin.or (some a.elapsedNs)).getD 0 = origin.getD a.elapsedNs := by
        cases origin with
        | none => rfl
        | some first => rfl
      simp only [recordedSamples, hm]
      rw [htimes, List.map_cons, List.map_cons, List.head?_cons, hfirst, ih]
      simp

theorem samples_elapsed (fromSlice : List UInt8 → Option TimestampedMessage) (run : SubscriberRun) :
    (run.samples fromSlice).map (·.elapsedNs) =
      (run.times fromSlice).map (· - (run.times fromSlice).head?.getD 0) := by
  have helapsed := @recordedSamples_elapsed fromSlice run.sequenceEndExclusive none run.tracker
    run.arrivals
  rw [Option.none_or] at helapsed
  exact helapsed

/-- The rows count the recorded samples by the second and agree with the totals, and the artifact
is written from them. -/
structure Reconciled (samples : List IntervalSample) (recorder : LatencyRecorder) : Prop where
  rows : ∃ r, recorder.intervals = some r ∧ CountsBySecond samples r.rows ∧ r.lateArrivals = 0 ∧
    (r.rows.map (·.receivedEvents)).sum = recorder.histogram.length ∧
    (r.rows.map (·.throughputMessages)).sum =
      recorder.sequence.unique + recorder.sequence.outOfRange ∧
    (r.rows.map (·.duplicates)).sum = recorder.sequence.duplicates
  complete : recorder.partialReasons = []
  artifact : ∃ fragment, recorder.writeMeasurements = (some fragment, recorder)

/-- The finalisation at or after the last sample reconciles rows and totals. -/
theorem finalize_reconciles (h : recorder.Keeps limit samples) {measurementElapsedNs e : ℕ}
    (he : measurementElapsedNs - recorder.intervalOriginElapsedNs.getD 0 = e)
    (hlast : ∀ s ∈ samples, s.elapsedNs ≤ e) (hpos : samples = [] ∨ 0 < e)
    (hroom : e ≤ limit * intervalWidthNs) (hfit : e ≤ u64Max) :
    Reconciled samples (recorder.finalizeIntervals quantile measurementElapsedNs) := by
  obtain ⟨r, hr, hopen⟩ := h.intervals
  have hreached := hopen.reached e hlast
  have hclosed : ∃ r', r.finalize quantile e = .ok r' ∧ CountsBySecond samples r'.rows ∧
      r'.lateArrivals = 0 ∧ r'.finalized = true ∧
      ∀ row ∈ r'.rows, row.latencyCount = row.receivedEvents := by
    obtain rfl | hpos' := Nat.eq_zero_or_pos e
    · obtain rfl | hpos := hpos
      · -- nothing was recorded and no time has passed: there is no row
        have hrows : r.rows = [] := by
          rw [← List.length_eq_zero_iff, hopen.kept.bySecond.length]
          exact Nat.le_zero.mp hreached
        refine ⟨{ r with finalized := true }, ?_, ?_, hopen.kept.late, rfl, hopen.kept.latencies⟩
        · simp [IntervalRecorder.finalize, hopen.fresh]
        · show CountsBySecond [] r.rows
          rw [hrows]
          constructor <;> simp
      · exact absurd hpos (Nat.lt_irrefl 0)
    · refine @IntervalRecorder.Kept.finalize quantile r samples e hopen.kept hopen.fresh hpos' ?_
        hreached ?_ hfit
      · rw [hopen.rowLimit]
        exact hopen.room
      · rw [hopen.rowLimit, Nat.div_lt_iff_lt_mul (by decide)]
        omega
  obtain ⟨r', hr', hcounts, hlate, hfinal, hlat⟩ := hclosed
  have hdone : recorder.finalizeIntervals quantile measurementElapsedNs =
      { recorder with intervals := some r' } := by
    simp only [LatencyRecorder.finalizeIntervals, hr, he, hr']
  have hcount : r'.intervalCount = recorder.histogram.length := by
    rw [h.population, ← hcounts.receivedEvents, IntervalRecorder.intervalCount,
      List.map_congr_left hlat]
  rw [hdone]
  refine ⟨⟨r', rfl, hcounts, hlate, ?_, ?_, ?_⟩, h.complete, r'.fragment recorder.histogram.length, ?_⟩
  · rw [hcounts.receivedEvents, h.population]
  · rw [hcounts.throughputMessages, h.unique]
  · rw [hcounts.duplicates, h.duplicates]
  · simp [LatencyRecorder.writeMeasurements, IntervalRecorder.artifact, hfinal, hcount]

theorem finalizeIntervals_totals (h : recorder.TotalsAgree) (measurementElapsedNs : ℕ) :
    (recorder.finalizeIntervals quantile measurementElapsedNs).TotalsAgree := by
  simp only [LatencyRecorder.finalizeIntervals]
  cases recorder.intervals with
  | none => exact h
  | some r =>
    simp only
    cases r.finalize quantile (measurementElapsedNs - recorder.intervalOriginElapsedNs.getD 0) with
    | ok r' => exact ⟨h.messages, h.sequence⟩
    | error e => exact ⟨h.messages, h.sequence⟩

theorem started_keeps (h : run.started = .ok recorder) :
    recorder.Keeps run.maximumRows [] ∧ recorder.TotalsAgree ∧ recorder.sequence = run.tracker ∧
      recorder.intervalOriginElapsedNs = none ∧
      recorder.sequenceEndExclusive = run.sequenceEndExclusive := by
  obtain ⟨setup, hnew, hint, hhist, horigin, hfinish⟩ := started_ok h
  obtain ⟨-, rfl⟩ := new_ok hnew
  simp only [started, LatencyRecorder.enableIntervals, hnew] at h
  obtain rfl := Except.ok.inj h
  have hopen : LatencyRecorder.OpenIntervals run.maximumRows []
      { measurementStartUnixEpochNs := run.measurementStartUnixEpochNs
        declaredMeasurementDurationNs := satMul run.measurementSecs intervalWidthNs
        publisherDrainNs := satMul run.publisherDrainSecs intervalWidthNs
        drainGraceNs := satMul run.drainGraceSecs intervalWidthNs
        maximumRows := run.maximumRows } := by
    refine ⟨⟨.start, rfl, List.forall_mem_nil _, rfl⟩, rfl, rfl, ?_, fun e _ => Nat.zero_le _⟩
    exact Nat.succ_pos _
  refine ⟨⟨⟨_, hint, hopen⟩, fun _ => rfl, ?_, ?_, ?_, rfl⟩, ⟨?_, ?_⟩, rfl, rfl, rfl⟩
  all_goals
    cases run.sequenceEndExclusive with
    | none => rfl
    | some finish => rfl

/-- Whatever the messages and their stamps, the totals of a run agree. -/
theorem finished_totals (h : run.finished fromSlice quantile = .ok recorder) :
    recorder.TotalsAgree := by
  simp only [finished] at h
  split at h
  · next begun hbegun =>
    obtain rfl := Except.ok.inj h
    obtain ⟨-, htotals, -⟩ := started_keeps hbegun
    exact finalizeIntervals_totals (recordAll_totals htotals run.arrivals) _
  · cases h

/-- Messages in the order of their stamps, finalised at or after the last recorded one, after the
first, and no further behind it than there are rows: the rows and the totals agree exactly if no
recorded message lies as many seconds behind the first as there are rows. -/
theorem reconciled {first : ℕ} (hfinished : run.finished fromSlice quantile = .ok recorder)
    (hstamps : ∀ a ∈ run.arrivals, a.elapsedNs ≤ u64Max) (hstamp : run.measurementElapsedNs ≤ u64Max)
    (hsorted : (run.arrivals.map (·.elapsedNs)).Pairwise (· ≤ ·))
    (hfirst : (run.times fromSlice).head?.getD 0 = first)
    (hlast : ∀ t ∈ run.times fromSlice, t ≤ run.measurementElapsedNs)
    (hafter : run.times fromSlice = [] ∨ first < run.measurementElapsedNs)
    (hwithin : run.measurementElapsedNs ≤ first + run.maximumRows * intervalWidthNs) :
    recorder.TotalsAgree ∧
      (Reconciled (run.samples fromSlice) recorder ↔
        ∀ t ∈ run.times fromSlice, t ≠ first + run.maximumRows * intervalWidthNs) := by
  refine ⟨finished_totals hfinished, ?_⟩
  simp only [finished] at hfinished
  split at hfinished
  case h_2 => cases hfinished
  next begun hbegun =>
  obtain rfl := Except.ok.inj hfinished
  obtain ⟨hkeeps, -, htracker, horigin, hfinish⟩ := started_keeps hbegun
  have hmore : recordedSamples fromSlice begun.sequenceEndExclusive begun.intervalOriginElapsedNs
      begun.sequence run.arrivals = run.samples fromSlice := by
    rw [hfinish, horigin, htracker]
    rfl
  obtain ⟨hkept, hdropped⟩ := @recordAll_keeps fromSlice quantile begun run.maximumRows []
    run.arrivals hkeeps hsorted hstamps (List.forall_mem_nil _) _ hmore
  rw [List.nil_append, horigin, hfinish, Option.none_or] at hkept
  have helapsed := run.samples_elapsed fromSlice
  rw [hfirst] at helapsed
  have hsample : ∀ s ∈ run.samples fromSlice, ∃ t ∈ run.times fromSlice, t - first = s.elapsedNs := by
    intro s hs
    have hmem := List.mem_map_of_mem (f := (·.elapsedNs)) hs
    rw [helapsed] at hmem
    exact List.mem_map.mp hmem
  -- only a message on the very end of the rows has no second of its own
  have hsecond : ∀ t ∈ run.times fromSlice, t ≠ first + run.maximumRows * intervalWidthNs →
      (t - first) / intervalWidthNs < run.maximumRows := by
    intro t ht hne
    rw [Nat.div_lt_iff_lt_mul (by decide)]
    have hle := hlast t ht
    have hpos : 0 < run.maximumRows * intervalWidthNs :=
      Nat.mul_pos (Nat.succ_pos _) (by decide)
    omega
  constructor
  · -- a message that far behind costs the intervals
    rintro ⟨⟨r, hr, -⟩, -, -⟩ t ht rfl
    have hmem := List.mem_map_of_mem (f := (· - first)) ht
    rw [← helapsed, List.mem_map, Nat.add_sub_cancel_left] at hmem
    obtain ⟨s, hs, hs'⟩ := hmem
    have hnone := hdropped ⟨s, hs, by
      rw [IntervalSample.second, hs', Nat.mul_div_cancel _ (by decide)]⟩
    simp only [LatencyRecorder.finalizeIntervals, hnone] at hr
    cases hr
  · intro hnone
    obtain ⟨hkeeps', horigin'⟩ := hkept fun s hs => by
      obtain ⟨t, ht, hts⟩ := hsample s hs
      rw [IntervalSample.second, ← hts]
      exact hsecond t ht (hnone t ht)
    refine finalize_reconciles hkeeps' (e := run.measurementElapsedNs - first) ?_ ?_ ?_ ?_ ?_
    · rw [horigin']
      exact congrArg _ hfirst
    · intro s hs
      obtain ⟨t, ht, hts⟩ := hsample s hs
      have hle := hlast t ht
      omega
    · obtain hnil | hlt := hafter
      · left
        rw [hnil] at helapsed
        exact List.map_eq_nil_iff.mp helapsed
      · right
        omega
    · omega
    · omega

/-- The bytes of a message, all of them ASCII, with its number. -/
def numbered (seq : ℕ) : List UInt8 :=
  ("\x7b\"ts\":1000000000,\"seq\":" ++ toString seq ++ "\x7d").toList.map (·.toNat.toUInt8)

/-- The decoder of the first few of these messages. -/
def decodeNumbered (payload : List UInt8) : Option TimestampedMessage :=
  ((List.range 4).find? fun seq => payload = numbered seq).map fun seq => ⟨1000000000, seq⟩

/-- A measurement of one second, so of three rows: a message, bytes that are none, the same message
in the next second, and another message `ns` after the first. -/
def threeSeconds (ns : ℕ) : SubscriberRun where
  measurementStartUnixEpochNs := 1000000000
  measurementSecs := 1
  publisherDrainSecs := 0
  drainGraceSecs := 0
  arrivals := [⟨numbered 0, 1000001000, 500000000⟩, ⟨[], 1000001000, 600000000⟩,
    ⟨numbered 0, 1000001000, 1500000000⟩, ⟨numbered 1, 1000001000, 500000000 + ns⟩]
  measurementElapsedNs := 3500000000

theorem reconciled_in_time :
    ∃ recorder, (threeSeconds 2999999999).finished decodeNumbered (fun _ _ => 1023) = .ok recorder ∧
      recorder.TotalsAgree ∧
      Reconciled ((threeSeconds 2999999999).samples decodeNumbered) recorder := by
  have htimes : (threeSeconds 2999999999).times decodeNumbered =
      [500000000, 1500000000, 3499999999] := by decide +kernel
  obtain ⟨totals, rows⟩ := @reconciled decodeNumbered (fun _ _ => 1023) (threeSeconds 2999999999) _
    500000000 rfl (by decide +kernel) (by decide +kernel) (by decide +kernel)
    (by rw [htimes]; rfl) (by rw [htimes]; decide) (by rw [htimes]; decide) (by decide +kernel)
  refine ⟨_, rfl, totals, rows.mpr ?_⟩
  rw [htimes]
  decide +kernel

/-- The last message lies exactly three seconds behind the first, and the finalisation too: the row
limit is exceeded and the intervals are dropped. -/
theorem dropped_on_the_limit :
    let run := threeSeconds 3000000000
    (run.arrivals.map (·.elapsedNs)).Pairwise (· ≤ ·) ∧
      run.times decodeNumbered = [500000000, 1500000000, 3500000000] ∧
      run.measurementElapsedNs = 500000000 + run.maximumRows * intervalWidthNs ∧
      ∃ recorder, run.finished decodeNumbered (fun _ _ => 1023) = .ok recorder ∧
        recorder.intervals = none ∧ recorder.partialReasons =
          ["interval-latency.json: interval row limit exceeded (3)"] ∧
        ¬ Reconciled (run.samples decodeNumbered) recorder := by
  obtain ⟨recorder, hrun, hnone, hreasons⟩ : ∃ recorder,
      (threeSeconds 3000000000).finished decodeNumbered (fun _ _ => 1023) = .ok recorder ∧
        recorder.intervals = none ∧ recorder.partialReasons =
          ["interval-latency.json: interval row limit exceeded (3)"] :=
    ⟨_, rfl, by decide +kernel, by decide +kernel⟩
  refine ⟨by decide +kernel, by decide +kernel, by decide +kernel, recorder, hrun, hnone, hreasons, ?_⟩
  rintro ⟨⟨r, hr, -⟩, -, -⟩
  rw [hnone] at hr
  cases hr

end SubscriberRun

end Wafer
