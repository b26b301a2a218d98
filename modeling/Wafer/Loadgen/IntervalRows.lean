import Wafer.Lib.Tiling
import Wafer.Loadgen.Recorder

/-!
# The rows of a subscriber run

In every run the finished rows tile the time since the first recorded message by
full seconds, and every recorded sample is in a row, in the current second, or
counted as late. The finalisation closes the tiling.

## Main definitions

- `IntervalLatencyRow.Sound` — a row whose members agree with each other
- `IntervalRecorder.Filled`, `Closed` — the recorder before and after the finalisation

## Main results

- `IntervalRecorder.Filled.record`, `Filled.finalize` — what the operations keep
- `SubscriberRun.written_closed` — the recorder an artifact comes from
-/

namespace Wafer

open Lib

def IntervalLatencyRow.window (row : IntervalLatencyRow) : ℕ × ℕ :=
  (row.intervalStartNs, row.intervalEndNs)

/-- Both clocks of a row agree for a measurement that began at `origin`, its events are its unique
and duplicate ones, each has a latency, and percentiles are there exactly if there are events. -/
structure IntervalLatencyRow.Sound (origin : ℕ) (row : IntervalLatencyRow) : Prop where
  startUnix : row.intervalStartUnixEpochNs = origin + row.intervalStartNs
  endUnix : row.intervalEndUnixEpochNs = origin + row.intervalEndNs
  counted : row.latencyCount = row.receivedEvents
  events : row.receivedEvents = row.throughputMessages + row.duplicates
  empty : row.latencyCount = 0 →
    row.latencyP50Ns = none ∧ row.latencyP95Ns = none ∧ row.latencyP99Ns = none
  present : row.latencyCount ≠ 0 →
    ∃ p50 p95 p99, row.latencyP50Ns = some p50 ∧ row.latencyP95Ns = some p95 ∧
      row.latencyP99Ns = some p99

namespace IntervalRecorder

variable {quantile : List Latency → ℚ → ℕ} {r r' : IntervalRecorder} {population horizon : ℕ}

/-- The declared durations and the row bound are the same in both. -/
structure SameBounds (r r' : IntervalRecorder) : Prop where
  duration : r'.declaredMeasurementDurationNs = r.declaredMeasurementDurationNs
  drain : r'.publisherDrainNs = r.publisherDrainNs
  grace : r'.drainGraceNs = r.drainGraceNs
  maximumRows : r'.maximumRows = r.maximumRows

theorem SameBounds.trans {r'' : IntervalRecorder} (h : SameBounds r r') (h' : SameBounds r' r'') :
    SameBounds r r'' :=
  ⟨h'.duration.trans h.duration, h'.drain.trans h.drain, h'.grace.trans h.grace,
    h'.maximumRows.trans h.maximumRows⟩

/-- The start of the measurement is the same, too. -/
structure SameSetup (r r' : IntervalRecorder) : Prop extends SameBounds r r' where
  origin : r'.measurementStartUnixEpochNs = r.measurementStartUnixEpochNs

theorem SameSetup.trans {r'' : IntervalRecorder} (h : SameSetup r r') (h' : SameSetup r' r'') :
    SameSetup r r'' :=
  ⟨h.toSameBounds.trans h'.toSameBounds, h'.origin.trans h.origin⟩

/-- No stamp of a second up to `horizon` leaves the 64 bits. -/
def Fits (r : IntervalRecorder) (horizon : ℕ) : Prop :=
  r.measurementStartUnixEpochNs + (horizon + 1) * intervalWidthNs < 2 ^ 64

theorem Fits.of_same (h : r.Fits horizon) (hsame : SameSetup r r') : r'.Fits horizon := by
  simp only [Fits]
  rw [hsame.origin]
  exact h

/-- The finished rows are the full seconds before the current one, and `population` samples are
accounted for. -/
structure Filled (r : IntervalRecorder) (population horizon : ℕ) : Prop where
  tiled : FullTiles intervalWidthNs 0 (r.rows.map (·.window)) (r.currentBucket * intervalWidthNs)
  sound : ∀ row ∈ r.rows, row.Sound r.measurementStartUnixEpochNs
  held : r.currentHistogram.length = r.currentEvents
  split : r.currentEvents = r.currentUnique + r.currentDuplicates
  counted : r.intervalCount + r.currentEvents + r.lateArrivals = population
  bounded : r.rows.length ≤ r.maximumRows
  within : r.currentBucket ≤ horizon

/-- The rows are closed, the last one perhaps before its second is over. -/
structure Closed (r : IntervalRecorder) (population : ℕ) : Prop where
  finalized : r.finalized = true
  tiled : ∃ hi, Tiles intervalWidthNs 0 (r.rows.map (·.window)) hi
  sound : ∀ row ∈ r.rows, row.Sound r.measurementStartUnixEpochNs
  counted : r.intervalCount + r.currentEvents + r.lateArrivals = population
  bounded : r.rows.length ≤ r.maximumRows

/-- The row of the current second, up to `widthNs` into it. -/
theorem Filled.currentRow (h : r.Filled population horizon) (hfit : r.Fits horizon) {widthNs : ℕ}
    (hwidth : widthNs ≤ intervalWidthNs) :
    (r.currentRow quantile widthNs).window =
        (r.currentBucket * intervalWidthNs, r.currentBucket * intervalWidthNs + widthNs) ∧
      (r.currentRow quantile widthNs).Sound r.measurementStartUnixEpochNs ∧
      (r.currentRow quantile widthNs).latencyCount = r.currentEvents := by
  have hle : r.currentBucket * intervalWidthNs ≤ horizon * intervalWidthNs :=
    Nat.mul_le_mul_right _ h.within
  have hroom : r.measurementStartUnixEpochNs + (horizon * intervalWidthNs + intervalWidthNs) <
      2 ^ 64 := by
    have := hfit
    simp only [Fits] at this
    rw [Nat.add_mul, Nat.one_mul] at this
    exact this
  have hstart : satMul r.currentBucket intervalWidthNs = r.currentBucket * intervalWidthNs :=
    satMul_of_lt (by omega)
  have hend : satAdd (r.currentBucket * intervalWidthNs) widthNs =
      r.currentBucket * intervalWidthNs + widthNs :=
    satAdd_of_lt (by omega)
  refine ⟨?_, ?_, h.held⟩
  · simp only [IntervalLatencyRow.window, IntervalRecorder.currentRow, secondRow, hstart, hend]
  · constructor
    · simp only [IntervalRecorder.currentRow, secondRow, hstart]
      exact satAdd_of_lt (by omega)
    · simp only [IntervalRecorder.currentRow, secondRow, hstart, hend]
      exact satAdd_of_lt (by omega)
    · exact h.held
    · exact h.split
    · intro hzero
      have hnot : ¬ 0 < r.currentHistogram.length := Nat.not_lt.mpr (Nat.le_of_eq hzero)
      simp [IntervalRecorder.currentRow, secondRow, hnot]
    · intro hne
      have hpos : 0 < r.currentHistogram.length := Nat.pos_of_ne_zero hne
      simp [IntervalRecorder.currentRow, secondRow, hpos]

theorem finishCurrent_ok {widthNs : ℕ} (h : r.finishCurrent quantile widthNs = .ok r') :
    r.rows.length ≠ r.maximumRows ∧
      r' = { r with
        rows := r.rows ++ [r.currentRow quantile widthNs]
        currentHistogram := []
        currentEvents := 0
        currentUnique := 0
        currentDuplicates := 0
        currentBucket := r.currentBucket + 1 } := by
  simp only [finishCurrent] at h
  split at h
  · cases h
  · next hne => exact ⟨hne, (Except.ok.inj h).symm⟩

theorem sum_counts_snoc (rows : List IntervalLatencyRow) (row : IntervalLatencyRow) :
    ((rows ++ [row]).map (·.latencyCount)).sum =
      (rows.map (·.latencyCount)).sum + row.latencyCount := by
  simp

/-- A finished row is the current second's, sound, and holds its samples. -/
theorem Filled.finishCurrent {widthNs : ℕ} (h : r.Filled population horizon) (hfit : r.Fits horizon)
    (hwidth : widthNs ≤ intervalWidthNs) (hok : r.finishCurrent quantile widthNs = .ok r') :
    r'.rows.map (·.window) = r.rows.map (·.window) ++
        [(r.currentBucket * intervalWidthNs, r.currentBucket * intervalWidthNs + widthNs)] ∧
      (∀ row ∈ r'.rows, row.Sound r'.measurementStartUnixEpochNs) ∧
      r'.intervalCount + r'.currentEvents + r'.lateArrivals = population ∧
      r'.rows.length ≤ r'.maximumRows ∧ SameSetup r r' := by
  obtain ⟨hroom, rfl⟩ := finishCurrent_ok hok
  obtain ⟨hwindow, hsound, hcount⟩ := @Filled.currentRow quantile _ _ _ h hfit _ hwidth
  refine ⟨?_, ?_, ?_, ?_, ⟨⟨rfl, rfl, rfl, rfl⟩, rfl⟩⟩
  · show (r.rows ++ [_]).map _ = _
    rw [List.map_append, List.map_singleton, hwindow]
  · intro row hrow
    rcases List.mem_append.mp hrow with hold | hnew
    · exact h.sound row hold
    · obtain rfl := List.mem_singleton.mp hnew
      exact hsound
  · show ((r.rows ++ [_]).map _).sum + 0 + r.lateArrivals = population
    rw [sum_counts_snoc, hcount]
    exact h.counted
  · have := h.bounded
    show (r.rows ++ [_]).length ≤ r.maximumRows
    rw [List.length_append, List.length_singleton]
    omega

theorem artifact_ok {aggregateCount : ℕ} {fragment : Dict}
    (h : r.artifact aggregateCount = .ok fragment) :
    r.intervalCount = aggregateCount ∧ fragment = r.fragment aggregateCount := by
  simp only [artifact] at h
  split at h
  · cases h
  · split at h
    · cases h
    · next heq => exact ⟨not_not.mp heq, (Except.ok.inj h).symm⟩

/-- One full second more. -/
theorem Filled.finishSecond (h : r.Filled population horizon) (hfit : r.Fits horizon)
    (hnext : r.currentBucket + 1 ≤ horizon)
    (hok : r.finishCurrent quantile intervalWidthNs = .ok r') :
    r'.Filled population horizon ∧ SameSetup r r' ∧ r'.currentBucket = r.currentBucket + 1 ∧
      r'.finalized = r.finalized := by
  obtain ⟨hwindows, hsound, hcounted, hbounded, hsame⟩ := h.finishCurrent hfit le_rfl hok
  obtain ⟨-, rfl⟩ := finishCurrent_ok hok
  refine ⟨⟨?_, hsound, rfl, rfl, hcounted, hbounded, hnext⟩, hsame, rfl, rfl⟩
  show FullTiles _ 0 _ ((r.currentBucket + 1) * intervalWidthNs)
  rw [hwindows, Nat.add_mul, Nat.one_mul]
  exact h.tiled.snoc

/-- The last row, as wide as what is left of its second. -/
theorem Filled.close {widthNs : ℕ} (h : r.Filled population horizon) (hfit : r.Fits horizon)
    (hfinal : r.finalized = true) (hpos : 0 < widthNs) (hwidth : widthNs ≤ intervalWidthNs)
    (hok : r.finishCurrent quantile widthNs = .ok r') :
    r'.Closed population ∧ SameSetup r r' ∧ r'.rows ≠ [] := by
  obtain ⟨hwindows, hsound, hcounted, hbounded, hsame⟩ := h.finishCurrent hfit hwidth hok
  obtain ⟨-, rfl⟩ := finishCurrent_ok hok
  refine ⟨⟨hfinal, ⟨r.currentBucket * intervalWidthNs + widthNs, ?_⟩, hsound, hcounted, hbounded⟩,
    hsame, List.append_ne_nil_of_right_ne_nil _ (List.cons_ne_nil _ _)⟩
  rw [hwindows]
  exact h.tiled.close (by omega) (by omega)

theorem Filled.finishSeconds {count : ℕ} (h : r.Filled population horizon) (hfit : r.Fits horizon)
    (hlast : r.currentBucket + count ≤ horizon)
    (hok : IntervalRecorder.finishSeconds quantile count r = .ok r') :
    r'.Filled population horizon ∧ SameSetup r r' ∧ r'.currentBucket = r.currentBucket + count ∧
      r'.finalized = r.finalized := by
  induction count generalizing r with
  | zero =>
    obtain rfl := Except.ok.inj hok
    exact ⟨h, ⟨⟨rfl, rfl, rfl, rfl⟩, rfl⟩, rfl, rfl⟩
  | succ count ih =>
    simp only [IntervalRecorder.finishSeconds] at hok
    split at hok
    · next mid hmid =>
      obtain ⟨hfilled, hsame, hbucket, hfinal⟩ := h.finishSecond hfit (by omega) hmid
      obtain ⟨hend, hsame', hbucket', hfinal'⟩ := ih hfilled (hfit.of_same hsame) (by omega) hok
      exact ⟨hend, hsame.trans hsame', by omega, hfinal'.trans hfinal⟩
    · cases hok

theorem Filled.count (h : r.Filled population horizon) (latency : Latency) (duplicate : Bool) :
    (r.count latency duplicate).Filled (population + 1) horizon := by
  have hheld := h.held
  have hsplit := h.split
  have hcounted := h.counted
  refine ⟨h.tiled, h.sound, ?_, ?_, ?_, h.bounded, h.within⟩
  · show (r.currentHistogram ++ [latency]).length = r.currentEvents + 1
    rw [List.length_append, List.length_singleton, hheld]
  · show r.currentEvents + 1 = _
    cases duplicate with
    | true => simp only [IntervalRecorder.count, if_true]; omega
    | false => simp only [IntervalRecorder.count, Bool.false_eq_true, if_false]; omega
  · show r.intervalCount + (r.currentEvents + 1) + r.lateArrivals = population + 1
    omega

/-- One more sample is accounted for: in its second, or as late. -/
theorem Filled.record {elapsedNs : ℕ} {latency : Latency} {duplicate : Bool}
    (h : r.Filled population horizon) (hfit : r.Fits horizon)
    (hlast : elapsedNs / intervalWidthNs ≤ horizon)
    (hok : r.record quantile elapsedNs latency duplicate = .ok r') :
    r'.Filled (population + 1) horizon ∧ SameSetup r r' ∧ r'.finalized = r.finalized := by
  unfold IntervalRecorder.record at hok
  dsimp only at hok
  split at hok
  · obtain rfl := Except.ok.inj hok
    have hcounted := h.counted
    refine ⟨⟨h.tiled, h.sound, h.held, h.split, ?_, h.bounded, h.within⟩,
      ⟨⟨rfl, rfl, rfl, rfl⟩, rfl⟩, rfl⟩
    show r.intervalCount + r.currentEvents + (r.lateArrivals + 1) = population + 1
    omega
  · next hge =>
    split at hok
    · cases hok
    · split at hok
      · next mid hmid =>
        obtain rfl := Except.ok.inj hok
        obtain ⟨hfilled, hsame, -, hfinal⟩ := h.finishSeconds hfit (by omega) hmid
        exact ⟨hfilled.count latency duplicate, hsame.trans ⟨⟨rfl, rfl, rfl, rfl⟩, rfl⟩, hfinal⟩
      · cases hok

/-- The finalisation closes the rows; it adds one unless no time has passed. -/
theorem Filled.finalize {elapsedNs : ℕ} (h : r.Filled population horizon) (hfit : r.Fits horizon)
    (hfresh : r.finalized = false) (hlast : elapsedNs / intervalWidthNs ≤ horizon)
    (hok : r.finalize quantile elapsedNs = .ok r') :
    r'.Closed population ∧ SameSetup r r' ∧
      (r'.rows = [] ↔ elapsedNs = 0 ∧ r.rows = []) := by
  unfold IntervalRecorder.finalize at hok
  rw [hfresh] at hok
  dsimp only at hok
  split at hok
  · next hf => cases hf
  · split at hok
    · next hzero =>
      obtain rfl := Except.ok.inj hok
      exact ⟨⟨rfl, ⟨_, h.tiled.tiles⟩, h.sound, h.counted, h.bounded⟩, ⟨⟨rfl, rfl, rfl, rfl⟩, rfl⟩,
        ⟨fun hr => ⟨hzero, hr⟩, fun hr => hr.2⟩⟩
    · next hne =>
      split at hok
      · cases hok
      · split at hok
        · cases hok
        · next mid hmid =>
          have hstart : ({ r with finalized := true } : IntervalRecorder).Filled population
              horizon :=
            ⟨h.tiled, h.sound, h.held, h.split, h.counted, h.bounded, h.within⟩
          have hbucket : (elapsedNs - 1) / intervalWidthNs ≤ elapsedNs / intervalWidthNs :=
            Nat.div_le_div_right (by omega)
          have hwithin := h.within
          obtain ⟨hfilled, hsame, -, hfinal⟩ := hstart.finishSeconds hfit
            (by show r.currentBucket + (_ - r.currentBucket) ≤ horizon; omega) hmid
          have hsetup : SameSetup r mid :=
            ⟨⟨hsame.duration, hsame.drain, hsame.grace, hsame.maximumRows⟩, hsame.origin⟩
          have hwidth : 0 < intervalWidthNs := by decide
          obtain ⟨hclosed, hsame', hrows⟩ := hfilled.close (hfit.of_same hsetup) hfinal
            (by split <;> omega) (by split; omega; exact (Nat.mod_lt _ hwidth).le) hok
          exact ⟨hclosed, hsetup.trans hsame', fun hr => absurd hr hrows,
            fun hr => absurd hr.1 hne⟩

end IntervalRecorder

section Messages

variable {fromSlice : List UInt8 → Option TimestampedMessage} {quantile : List Latency → ℚ → ℕ}

/-- The subscriber records the message: it decodes, and its number is below a declared end. -/
def Measures (fromSlice : List UInt8 → Option TimestampedMessage) (finish : Option ℕ)
    (payload : List UInt8) : Prop :=
  ∃ message, fromSlice payload = some message ∧ ∀ bound ∈ finish, message.seq < bound

/-- The sequence number of a message that is recorded: it decodes, and its number is below a declared
end. -/
def measuredSeq (fromSlice : List UInt8 → Option TimestampedMessage) (finish : Option ℕ)
    (payload : List UInt8) : Option ℕ :=
  (fromSlice payload).bind fun message =>
    if finish.any (· ≤ message.seq) then none else some message.seq

theorem any_iff_exists {finish : Option ℕ} {seq : ℕ} :
    finish.any (· ≤ seq) = true ↔ ∃ bound ∈ finish, bound ≤ seq := by
  cases finish with
  | none => simp
  | some bound => simp

theorem measures_iff {finish : Option ℕ} {payload : List UInt8} :
    Measures fromSlice finish payload ↔ ∃ seq, measuredSeq fromSlice finish payload = some seq := by
  simp only [Measures, measuredSeq, Option.bind_eq_some_iff]
  constructor
  · rintro ⟨message, hd, hbelow⟩
    refine ⟨message.seq, message, hd, if_neg ?_⟩
    rw [any_iff_exists]
    rintro ⟨bound, hbound, hle⟩
    exact Nat.not_lt.mpr hle (hbelow bound hbound)
  · rintro ⟨seq, message, hd, hseq⟩
    split at hseq
    · cases hseq
    · next hend =>
      refine ⟨message, hd, fun bound hbound => Nat.not_le.mp fun hle => hend ?_⟩
      exact any_iff_exists.mpr ⟨bound, hbound, hle⟩

namespace LatencyRecorder

variable {recorder : LatencyRecorder} {payload : List UInt8} {receiveNs elapsedNs seq : ℕ}

/-- Histogram, intervals and their origin, and the declared end are the same. -/
structure SameRecord (recorder next : LatencyRecorder) : Prop where
  histogram : next.histogram = recorder.histogram
  intervals : next.intervals = recorder.intervals
  origin : next.intervalOriginElapsedNs = recorder.intervalOriginElapsedNs
  finish : next.sequenceEndExclusive = recorder.sequenceEndExclusive

/-- A message that is not recorded leaves histogram, tracker and intervals alone. -/
theorem recordJsonAt_unmeasured (hm : measuredSeq fromSlice recorder.sequenceEndExclusive payload =
      none) :
    ∃ errors ignored, (recorder.recordJsonAt fromSlice quantile payload receiveNs elapsedNs).2 =
      { recorder with
        totalMessages := recorder.totalMessages + errors
        parseErrors := recorder.parseErrors + errors
        ignoredSequences := recorder.ignoredSequences + ignored
        clockSteps := recorder.clockSteps.observe receiveNs elapsedNs } := by
  simp only [measuredSeq] at hm
  cases hd : fromSlice payload with
  | none =>
    refine ⟨1, 0, ?_⟩
    simp only [recordJsonAt, recordJson, observeClock, hd]
    rfl
  | some message =>
    rw [hd, Option.bind_some] at hm
    by_cases hend : recorder.sequenceEndExclusive.any (· ≤ message.seq) = true
    · have hjson : (recorder.observeClock receiveNs elapsedNs).recordJson fromSlice payload
          receiveNs = (.ignoredSequence message.seq,
            { recorder.observeClock receiveNs elapsedNs with
              ignoredSequences := recorder.ignoredSequences + 1 }) := by
        simp only [recordJson, hd]
        exact if_pos (any_iff_exists.mp hend)
      refine ⟨0, 1, ?_⟩
      simp only [recordJsonAt, hjson]
      rfl
    · rw [if_neg hend] at hm
      cases hm

/-- A recorded message goes to the histogram, to the tracker and, if there are any, to the
intervals. -/
theorem recordJsonAt_recorded (hm : measuredSeq fromSlice recorder.sequenceEndExclusive payload =
      some seq) :
    ∃ latency clamps,
      (recorder.recordJsonAt fromSlice quantile payload receiveNs elapsedNs).2 =
        let next : LatencyRecorder := { recorder with
          histogram := recorder.histogram ++ [latency]
          sequence := (recorder.sequence.record seq).2
          totalMessages := recorder.totalMessages + 1
          lastRecordDuplicate := (recorder.sequence.record seq).1.isDuplicate
          clamps
          clockSteps := recorder.clockSteps.observe receiveNs elapsedNs }
        match recorder.intervals with
        | none => next
        | some r => next.feedIntervals quantile r latency receiveNs elapsedNs := by
  simp only [measuredSeq, Option.bind_eq_some_iff] at hm
  obtain ⟨message, hd, hm⟩ := hm
  by_cases hend : recorder.sequenceEndExclusive.any (· ≤ message.seq) = true
  · rw [if_pos hend] at hm
    cases hm
  · rw [if_neg hend] at hm
    obtain rfl := Option.some.inj hm
    have hjson : (recorder.observeClock receiveNs elapsedNs).recordJson fromSlice payload
        receiveNs = { recorder.observeClock receiveNs elapsedNs with
          totalMessages := recorder.totalMessages + 1 }.record message.ts receiveNs message.seq := by
      simp only [recordJson, hd]
      exact if_neg fun h => hend (any_iff_exists.mpr h)
    refine ⟨(recorder.clamps.bound message.ts receiveNs).1,
      (recorder.clamps.bound message.ts receiveNs).2, ?_⟩
    simp only [recordJsonAt, hjson, record]
    cases hi : recorder.intervals with
    | none => simp only [observeClock, hi]
    | some r => simp only [observeClock, hi]

/-- A recorder that still keeps its intervals `r`, begun from `setup`: they account for every
recorded sample, and their clock starts with the first one. -/
structure Tracks (setup : IntervalRecorder) (horizon : ℕ) (recorder : LatencyRecorder)
    (r : IntervalRecorder) : Prop where
  filled : r.Filled recorder.histogram.length horizon
  fresh : r.finalized = false
  fits : r.Fits horizon
  declared : setup.SameBounds r
  started : recorder.intervalOriginElapsedNs = none ↔ recorder.histogram = []
  empty : recorder.histogram = [] → r.rows = []

/-- The tracked intervals, if there are any. -/
def Follows (setup : IntervalRecorder) (horizon : ℕ) (recorder : LatencyRecorder) : Prop :=
  ∀ r, recorder.intervals = some r → recorder.Tracks setup horizon r

variable {setup r : IntervalRecorder} {horizon : ℕ} {latency : Latency}

/-- Moving the start of the clock keeps the intervals in order while no row is finished. -/
theorem Tracks.begin (h : recorder.Tracks setup horizon r)
    (hfits : receiveNs + (horizon + 1) * intervalWidthNs < 2 ^ 64) :
    (recorder.beginIntervals r receiveNs elapsedNs).2.Filled recorder.histogram.length horizon ∧
      (recorder.beginIntervals r receiveNs elapsedNs).2.Fits horizon ∧
      setup.SameBounds (recorder.beginIntervals r receiveNs elapsedNs).2 ∧
      (recorder.beginIntervals r receiveNs elapsedNs).2.finalized = false := by
  simp only [beginIntervals]
  cases horigin : recorder.intervalOriginElapsedNs with
  | some origin => exact ⟨h.filled, h.fits, h.declared, h.fresh⟩
  | none =>
    have hrows := h.empty (h.started.mp horigin)
    refine ⟨⟨h.filled.tiled, ?_, h.filled.held, h.filled.split, h.filled.counted,
      h.filled.bounded, h.filled.within⟩, hfits, ⟨h.declared.duration, h.declared.drain,
      h.declared.grace, h.declared.maximumRows⟩, h.fresh⟩
    intro row hrow
    rw [show ({ r with measurementStartUnixEpochNs := receiveNs } : IntervalRecorder).rows = []
      from hrows] at hrow
    cases hrow

/-- One more recorded sample goes to the intervals, or they are dropped. -/
theorem Tracks.feedIntervals {next : LatencyRecorder} (h : recorder.Tracks setup horizon r)
    (hhist : next.histogram = recorder.histogram ++ [latency])
    (horigin : next.intervalOriginElapsedNs = recorder.intervalOriginElapsedNs)
    (hfits : receiveNs + (horizon + 1) * intervalWidthNs < 2 ^ 64)
    (hlast : elapsedNs / intervalWidthNs ≤ horizon) :
    (next.feedIntervals quantile r latency receiveNs elapsedNs).Follows setup horizon := by
  have hbegin : next.beginIntervals r receiveNs elapsedNs =
      recorder.beginIntervals r receiveNs elapsedNs := by
    simp only [beginIntervals]
    rw [horigin]
  obtain ⟨hfilled, hfit, hbounds, hfresh⟩ := @Tracks.begin _ _ elapsedNs _ _ _ h hfits
  intro s hs
  unfold LatencyRecorder.feedIntervals at hs ⊢
  rw [hbegin] at hs ⊢
  generalize recorder.beginIntervals r receiveNs elapsedNs = started at *
  have hwithin : (elapsedNs - started.1) / intervalWidthNs ≤ horizon :=
    (Nat.div_le_div_right (Nat.sub_le _ _)).trans hlast
  dsimp only at hs ⊢
  split at hs
  · next after hafter =>
    obtain rfl := Option.some.inj hs
    obtain ⟨hfilled', hsame, hfinal⟩ := hfilled.record hfit hwithin hafter
    refine ⟨?_, hfinal.trans hfresh, hfit.of_same hsame, hbounds.trans hsame.toSameBounds, ?_, ?_⟩
    · show after.Filled next.histogram.length horizon
      rw [hhist, List.length_append, List.length_singleton]
      exact hfilled'
    · show some started.1 = none ↔ next.histogram = []
      simp [hhist]
    · intro hnil
      have : next.histogram = [] := hnil
      simp [hhist] at this
  · cases hs

theorem recordJsonAt_skipped (h : ¬ Measures fromSlice recorder.sequenceEndExclusive payload) :
    recorder.SameRecord
      (recorder.recordJsonAt fromSlice quantile payload receiveNs elapsedNs).2 := by
  have hm : measuredSeq fromSlice recorder.sequenceEndExclusive payload = none := by
    rw [Option.eq_none_iff_forall_ne_some]
    intro seq hseq
    exact h (measures_iff.mpr ⟨seq, hseq⟩)
  obtain ⟨errors, ignored, heq⟩ := @recordJsonAt_unmeasured fromSlice quantile recorder payload
    receiveNs elapsedNs hm
  rw [heq]
  exact ⟨rfl, rfl, rfl, rfl⟩

/-- A recorded message adds its latency to the histogram and goes to the intervals, if these are
still kept. -/
theorem recordJsonAt_measured (h : Measures fromSlice recorder.sequenceEndExclusive payload) :
    ∃ latency next,
      SameRecord { recorder with histogram := recorder.histogram ++ [latency] } next ∧
      (recorder.recordJsonAt fromSlice quantile payload receiveNs elapsedNs).2 =
        match recorder.intervals with
        | none => next
        | some r => next.feedIntervals quantile r latency receiveNs elapsedNs := by
  obtain ⟨seq, hm⟩ := measures_iff.mp h
  obtain ⟨latency, clamps, heq⟩ := @recordJsonAt_recorded fromSlice quantile recorder payload
    receiveNs elapsedNs seq hm
  refine ⟨latency, _, ?_, heq⟩
  exact ⟨rfl, rfl, rfl, rfl⟩

theorem Follows.recordJsonAt (h : recorder.Follows setup horizon)
    (hfits : receiveNs + (horizon + 1) * intervalWidthNs < 2 ^ 64)
    (hlast : elapsedNs / intervalWidthNs ≤ horizon) :
    (recorder.recordJsonAt fromSlice quantile payload receiveNs elapsedNs).2.Follows setup
      horizon := by
  by_cases hm : Measures fromSlice recorder.sequenceEndExclusive payload
  · obtain ⟨latency, next, hsame, heq⟩ := @recordJsonAt_measured fromSlice quantile recorder
      payload receiveNs elapsedNs hm
    rw [heq]
    cases hr : recorder.intervals with
    | none =>
      intro r hsome
      rw [show next.intervals = none from hsame.intervals.trans hr] at hsome
      cases hsome
    | some r => exact (h r hr).feedIntervals hsame.histogram hsame.origin hfits hlast
  · have hsame := @recordJsonAt_skipped fromSlice quantile recorder payload receiveNs elapsedNs hm
    intro r hr
    have htracks := h r (hsame.intervals ▸ hr)
    exact ⟨hsame.histogram ▸ htracks.filled, htracks.fresh, htracks.fits, htracks.declared,
      by rw [hsame.origin, hsame.histogram]; exact htracks.started,
      by rw [hsame.histogram]; exact htracks.empty⟩

theorem feedIntervals_frame :
    (recorder.feedIntervals quantile r latency receiveNs elapsedNs).histogram = recorder.histogram ∧
      (recorder.feedIntervals quantile r latency receiveNs elapsedNs).sequenceEndExclusive =
        recorder.sequenceEndExclusive := by
  unfold feedIntervals
  dsimp only
  split
  · exact ⟨rfl, rfl⟩
  · exact ⟨rfl, rfl⟩

/-- The histogram grows by the recorded messages and by nothing else. -/
theorem recordJsonAt_histogram :
    let next := (recorder.recordJsonAt fromSlice quantile payload receiveNs elapsedNs).2
    next.sequenceEndExclusive = recorder.sequenceEndExclusive ∧
      (next.histogram = [] ↔ recorder.histogram = [] ∧
        ¬ Measures fromSlice recorder.sequenceEndExclusive payload) := by
  by_cases hm : Measures fromSlice recorder.sequenceEndExclusive payload
  · obtain ⟨latency, next, hsame, heq⟩ := @recordJsonAt_measured fromSlice quantile recorder
      payload receiveNs elapsedNs hm
    have hne : next.histogram ≠ [] := by
      rw [hsame.histogram]
      exact List.append_ne_nil_of_right_ne_nil _ (List.cons_ne_nil _ _)
    intro after
    have hafter : after.histogram = next.histogram ∧
        after.sequenceEndExclusive = next.sequenceEndExclusive := by
      show (recordJsonAt _ _ _ _ _ _).2.histogram = _ ∧
        (recordJsonAt _ _ _ _ _ _).2.sequenceEndExclusive = _
      rw [heq]
      cases recorder.intervals with
      | none => exact ⟨rfl, rfl⟩
      | some r => exact feedIntervals_frame
    refine ⟨hafter.2.trans hsame.finish, fun hnil => absurd (hafter.1 ▸ hnil) hne, ?_⟩
    rintro ⟨-, hnot⟩
    exact absurd hm hnot
  · have hsame := @recordJsonAt_skipped fromSlice quantile recorder payload receiveNs elapsedNs hm
    intro after
    refine ⟨hsame.finish, fun hnil => ⟨hsame.histogram ▸ hnil, hm⟩, ?_⟩
    rintro ⟨hnil, -⟩
    exact hsame.histogram.trans hnil

/-- The finalisation closes the tracked intervals or drops them. -/
theorem Follows.finalizeIntervals {measurementElapsedNs : ℕ} (h : recorder.Follows setup horizon)
    (hlast : measurementElapsedNs / intervalWidthNs ≤ horizon)
    (hr : (recorder.finalizeIntervals quantile measurementElapsedNs).intervals = some r) :
    (recorder.finalizeIntervals quantile measurementElapsedNs).histogram = recorder.histogram ∧
      r.Closed recorder.histogram.length ∧ setup.SameBounds r ∧
      (recorder.histogram = [] → (r.rows = [] ↔ measurementElapsedNs = 0)) := by
  simp only [LatencyRecorder.finalizeIntervals] at hr ⊢
  cases hint : recorder.intervals with
  | none =>
    rw [hint] at hr
    dsimp only at hr
    rw [hint] at hr
    cases hr
  | some open' =>
    have htracks := h open' hint
    rw [hint] at hr
    dsimp only at hr ⊢
    split at hr
    · next closed hclosed =>
      obtain rfl := Option.some.inj hr
      have hwithin : (measurementElapsedNs - recorder.intervalOriginElapsedNs.getD 0) /
          intervalWidthNs ≤ horizon :=
        (Nat.div_le_div_right (Nat.sub_le _ _)).trans hlast
      obtain ⟨hclose, hsame, hrows⟩ :=
        htracks.filled.finalize htracks.fits htracks.fresh hwithin hclosed
      refine ⟨rfl, hclose, htracks.declared.trans hsame.toSameBounds, fun hnil => ?_⟩
      rw [hrows, htracks.started.mpr hnil]
      exact ⟨fun hz => hz.1, fun hz => ⟨hz, htracks.empty hnil⟩⟩
    · cases hr

end LatencyRecorder

namespace SubscriberRun

variable {run : SubscriberRun} {setup : IntervalRecorder} {recorder : LatencyRecorder}

/-- The last second an arrival or the finalisation lies in. -/
def horizon (run : SubscriberRun) : ℕ :=
  (run.arrivals.map (·.elapsedNs)).foldr max run.measurementElapsedNs / intervalWidthNs

/-- No timestamp of the run plus an offset of it, up to the end of the offset's second, leaves the
64 bits. -/
def StampsFit (run : SubscriberRun) : Prop :=
  ∀ stamp ∈ run.measurementStartUnixEpochNs :: run.arrivals.map (·.receiveNs),
    stamp + (run.horizon + 1) * intervalWidthNs < 2 ^ 64

theorem elapsed_le_horizon {a : Arrival} (ha : a ∈ run.arrivals) :
    a.elapsedNs / intervalWidthNs ≤ run.horizon := by
  refine Nat.div_le_div_right ?_
  generalize run.arrivals = arrivals at ha
  induction arrivals with
  | nil => cases ha
  | cons b rest ih =>
    rcases List.mem_cons.mp ha with rfl | hrest
    · exact Nat.le_max_left _ _
    · exact (ih hrest).trans (Nat.le_max_right _ _)

theorem measurementElapsed_le_horizon :
    run.measurementElapsedNs / intervalWidthNs ≤ run.horizon := by
  refine Nat.div_le_div_right ?_
  induction run.arrivals with
  | nil => exact le_rfl
  | cons b rest ih => exact ih.trans (Nat.le_max_right _ _)

theorem recordAll_follows {arrivals : List Arrival} {horizon : ℕ}
    (h : recorder.Follows setup horizon)
    (hfits : ∀ a ∈ arrivals, a.receiveNs + (horizon + 1) * intervalWidthNs < 2 ^ 64)
    (hlast : ∀ a ∈ arrivals, a.elapsedNs / intervalWidthNs ≤ horizon) :
    (recordAll fromSlice quantile recorder arrivals).Follows setup horizon := by
  induction arrivals generalizing recorder with
  | nil => exact h
  | cons a rest ih =>
    exact ih (h.recordJsonAt (hfits a (by simp)) (hlast a (by simp)))
      (fun b hb => hfits b (by simp [hb])) (fun b hb => hlast b (by simp [hb]))

theorem recordAll_histogram {arrivals : List Arrival} :
    (recordAll fromSlice quantile recorder arrivals).histogram = [] ↔ recorder.histogram = [] ∧
      ∀ a ∈ arrivals, ¬ Measures fromSlice recorder.sequenceEndExclusive a.payload := by
  induction arrivals generalizing recorder with
  | nil => exact ⟨fun h => ⟨h, by simp⟩, fun h => h.1⟩
  | cons a rest ih =>
    obtain ⟨hfinish, hhist⟩ := @LatencyRecorder.recordJsonAt_histogram fromSlice quantile recorder
      a.payload a.receiveNs a.elapsedNs
    simp only [recordAll]
    rw [ih, hhist, hfinish]
    simp only [List.mem_cons, forall_eq_or_imp, and_assoc]

theorem started_ok (h : run.started = .ok recorder) :
    ∃ setup, IntervalRecorder.new run.measurementStartUnixEpochNs run.measurementSecs
        run.publisherDrainSecs run.drainGraceSecs = .ok setup ∧
      recorder.intervals = some setup ∧ recorder.histogram = [] ∧
      recorder.intervalOriginElapsedNs = none ∧
      recorder.sequenceEndExclusive = run.sequenceEndExclusive := by
  unfold started at h
  dsimp only at h
  simp only [LatencyRecorder.enableIntervals] at h
  split at h
  · next enabled henabled =>
    obtain rfl := Except.ok.inj h
    split at henabled
    · next setup hsetup =>
      obtain rfl := Except.ok.inj henabled
      exact ⟨setup, hsetup, rfl, rfl, rfl, rfl⟩
    · cases henabled
  · cases h

theorem new_ok {start secs drain grace : ℕ}
    (h : IntervalRecorder.new start secs drain grace = .ok setup) :
    secs ≠ 0 ∧ setup =
      { measurementStartUnixEpochNs := start
        declaredMeasurementDurationNs := satMul secs intervalWidthNs
        publisherDrainNs := satMul drain intervalWidthNs
        drainGraceNs := satMul grace intervalWidthNs
        maximumRows := secs + drain + grace + 2 } := by
  simp only [IntervalRecorder.new] at h
  split at h
  · cases h
  · next hne =>
    split at h
    · cases h
    · exact ⟨hne, (Except.ok.inj h).symm⟩

theorem started_follows (hfits : run.StampsFit) (h : run.started = .ok recorder)
    (hnew : IntervalRecorder.new run.measurementStartUnixEpochNs run.measurementSecs
      run.publisherDrainSecs run.drainGraceSecs = .ok setup) :
    recorder.Follows setup run.horizon := by
  obtain ⟨setup', hnew', hint, hhist, horigin, -⟩ := started_ok h
  obtain rfl := Except.ok.inj (hnew.symm.trans hnew')
  obtain ⟨-, rfl⟩ := new_ok hnew
  intro r hr
  obtain rfl := Option.some.inj (hint.symm.trans hr)
  constructor
  · refine ⟨?_, List.forall_mem_nil _, rfl, rfl, by rw [hhist]; rfl, Nat.zero_le _, Nat.zero_le _⟩
    show FullTiles intervalWidthNs 0 [] (0 * intervalWidthNs)
    rw [Nat.zero_mul]
    exact .nil 0
  · rfl
  · exact hfits _ (by simp)
  · exact ⟨rfl, rfl, rfl, rfl⟩
  · simp [horigin, hhist]
  · exact fun _ => rfl

/-- Where `interval-latency.json` comes from, if the run writes one: closed rows that hold every
recorded sample. There are none exactly if nothing was recorded and no time had passed. -/
theorem written_closed {fragment : Dict} (hfits : run.StampsFit)
    (hfinished : run.finished fromSlice quantile = .ok recorder)
    (hwritten : recorder.writeMeasurements.1 = some fragment) :
    ∃ setup r, IntervalRecorder.new run.measurementStartUnixEpochNs run.measurementSecs
        run.publisherDrainSecs run.drainGraceSecs = .ok setup ∧ setup.SameBounds r ∧
      r.Closed recorder.histogram.length ∧ r.intervalCount = recorder.histogram.length ∧
      fragment = r.fragment recorder.histogram.length ∧
      (r.rows = [] ↔ run.measurementElapsedNs = 0 ∧
        ∀ a ∈ run.arrivals, ¬ Measures fromSlice run.sequenceEndExclusive a.payload) := by
  simp only [finished] at hfinished
  split at hfinished
  · next begun hbegun =>
    obtain rfl := Except.ok.inj hfinished
    obtain ⟨setup, hnew, -, hempty, -, hfinish⟩ := started_ok hbegun
    have hfollows := @recordAll_follows fromSlice quantile _ _ _ _
      (started_follows hfits hbegun hnew)
      (fun a ha => hfits _ (by simp only [List.mem_cons, List.mem_map]; exact .inr ⟨a, ha, rfl⟩))
      (fun a ha => elapsed_le_horizon ha)
    simp only [LatencyRecorder.writeMeasurements] at hwritten
    split at hwritten
    · cases hwritten
    · next r hr =>
      obtain ⟨hhist, hclosed, hbounds, hrows⟩ :=
        hfollows.finalizeIntervals measurementElapsed_le_horizon hr
      split at hwritten
      · next artifact hartifact =>
        obtain rfl := Option.some.inj hwritten
        obtain ⟨hcount, hfragment⟩ := IntervalRecorder.artifact_ok hartifact
        refine ⟨setup, r, hnew, hbounds, hhist ▸ hclosed, hcount, hfragment, ?_⟩
        have hnone := @recordAll_histogram fromSlice quantile begun run.arrivals
        rw [hfinish] at hnone
        constructor
        · intro hnil
          -- no rows hold no samples, so nothing was recorded
          have hzero : r.intervalCount = 0 := by
            simp only [IntervalRecorder.intervalCount]
            rw [hnil]
            rfl
          have hhist' := List.length_eq_zero_iff.mp (hhist ▸ hcount.symm.trans hzero)
          exact ⟨(hrows hhist').mp hnil, (hnone.mp hhist').2⟩
        · rintro ⟨helapsed, hskipped⟩
          exact (hrows (hnone.mpr ⟨hempty, hskipped⟩)).mpr helapsed
      · cases hwritten
  · cases hfinished

end SubscriberRun

end Messages

end Wafer
