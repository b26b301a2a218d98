import Wafer.Eval.IntervalMetrics
import Wafer.Loadgen.IntervalRows

/-!
# Writer and readers of the interval artifact

What the validators of the evaluation harness make of a fragment the subscriber
writes, and of the document composed from it.

## Main results

- `SubscriberRun.readers_accept_iff` — which written fragments pass all readers
-/

namespace Wafer.IntervalMetrics

open Lib

variable {origin : ℕ} {row : IntervalLatencyRow} {rows : List IntervalLatencyRow} {fragment : Dict}

@[simp] theorem raiseIf_false (message : String) : raiseIf false message = .ok () := rfl

theorem ok_bind {α β : Type} (a : α) (f : α → Except ReadError β) :
    (Except.ok a >>= f) = f a := rfl

/-- The integers a reader finds in a row. -/
theorem intItem_members :
    Dict.intItem row.members "interval_start_ns" = .ok row.intervalStartNs ∧
    Dict.intItem row.members "interval_end_ns" = .ok row.intervalEndNs ∧
    Dict.intItem row.members "interval_start_unix_epoch_ns" = .ok row.intervalStartUnixEpochNs ∧
    Dict.intItem row.members "interval_end_unix_epoch_ns" = .ok row.intervalEndUnixEpochNs ∧
    Dict.intItem row.members "latency_count" = .ok row.latencyCount ∧
    Dict.intItem row.members "received_events" = .ok row.receivedEvents ∧
    Dict.intItem row.members "throughput_messages" = .ok row.throughputMessages ∧
    Dict.intItem row.members "duplicates" = .ok row.duplicates :=
  ⟨rfl, rfl, rfl, rfl, rfl, rfl, rfl, rfl⟩

/-- A tiling's window fits behind the one before it. -/
theorem fits_of_tiles {lo hi : ℕ}
    (h : Tiles intervalWidthNs lo ((row :: rows).map (·.window)) hi) :
    fits row.intervalStartNs row.intervalEndNs lo rows.isEmpty = true := by
  obtain ⟨hstart, hpos, hle, hlast, -⟩ := h.head (by decide)
  have hs : row.intervalStartNs = lo := hstart
  have hp : lo < row.intervalEndNs := hpos
  have hw : row.intervalEndNs ≤ lo + intervalWidthNs := hle
  unfold fits
  rw [hs]
  simp only [decide_true, Bool.true_and, Bool.and_eq_true, Bool.or_eq_true, decide_eq_true_eq]
  refine ⟨⟨by omega, by omega⟩, ?_⟩
  rcases hlast with hnil | hfull
  · exact .inl (by simpa using hnil)
  · have hf : row.intervalEndNs = lo + intervalWidthNs := hfull
    exact .inr (by omega)

theorem emptyHasPercentile_members (h : row.Sound origin) :
    emptyHasPercentile row.members row.latencyCount = .ok false := by
  unfold emptyHasPercentile
  split
  · next hzero =>
    obtain ⟨h50, h95, h99⟩ := h.empty (by exact_mod_cast hzero)
    unfold IntervalLatencyRow.members
    rw [h50, h95, h99]
    rfl
  · rfl

theorem validateFragmentRow_ok {previousEnd : ℕ} {last : Bool}
    (horigin : Dict.intItem fragment "measurement_start_unix_epoch_ns" = .ok (origin : ℤ))
    (h : row.Sound origin)
    (hfits : fits row.intervalStartNs row.intervalEndNs previousEnd last = true) :
    validateFragmentRow fragment previousEnd last (.obj row.members) =
      .ok ((row.intervalEndNs : ℤ), (row.latencyCount : ℤ)) := by
  obtain ⟨hstart, hend, hstartUnix, hendUnix, hcount, hevents, hunique, hduplicates⟩ :=
    @intItem_members row
  have hforbidden : (forbiddenFields.any fun field => (row.members.get? field).isSome) = false :=
    rfl
  have hstarts : decide ((row.intervalStartUnixEpochNs : ℤ) ≠ origin + row.intervalStartNs) =
      false := by simp [h.startUnix]
  have hends : decide ((row.intervalEndUnixEpochNs : ℤ) ≠ origin + row.intervalEndNs) = false := by
    simp [h.endUnix]
  have hsum : decide ((row.receivedEvents : ℤ) ≠ row.throughputMessages + row.duplicates) =
      false := by simp [h.events]
  have hbound : (decide ((row.latencyCount : ℤ) < 0) ||
      decide ((row.receivedEvents : ℤ) < row.latencyCount)) = false := by simp [h.counted]
  unfold validateFragmentRow
  dsimp only
  rw [hforbidden, raiseIf_false, ok_bind, hstart, ok_bind, hend, ok_bind, hfits]
  rw [Bool.not_true, raiseIf_false, ok_bind, hstartUnix, ok_bind, horigin, ok_bind, hstarts,
    raiseIf_false, ok_bind, hendUnix, ok_bind, hends, raiseIf_false, ok_bind, hcount, ok_bind]
  rw [emptyHasPercentile_members h, ok_bind, raiseIf_false, ok_bind, hevents, ok_bind, hunique,
    ok_bind, hduplicates, ok_bind, hsum, raiseIf_false, ok_bind, hbound, raiseIf_false, ok_bind]
  rfl

theorem validateFragmentRows_ok {lo hi : ℕ} {total : ℤ}
    (horigin : Dict.intItem fragment "measurement_start_unix_epoch_ns" = .ok (origin : ℤ))
    (hsound : ∀ row ∈ rows, row.Sound origin)
    (htiles : Tiles intervalWidthNs lo (rows.map (·.window)) hi) :
    validateFragmentRows fragment (rows.map fun row => .obj row.members) lo total =
      .ok (total + ((rows.map (·.latencyCount)).sum : ℕ)) := by
  induction rows generalizing lo total with
  | nil => simp [validateFragmentRows]
  | cons row rest ih =>
    have hfits := fits_of_tiles htiles
    have hrest : Tiles intervalWidthNs row.intervalEndNs (rest.map (·.window)) hi :=
      (htiles.head (by decide)).2.2.2.2
    rw [List.map_cons, validateFragmentRows, List.isEmpty_map,
      validateFragmentRow_ok horigin (hsound row (by simp)) hfits, ok_bind]
    dsimp only
    rw [ih (fun later hlater => hsound later (by simp [hlater])) hrest, List.map_cons,
      List.sum_cons, Nat.cast_add, add_assoc]

theorem raiseIf_bind_eq_ok {α : Type} {bad : Bool} {message : String}
    {f : Unit → Except ReadError α} {a : α} :
    (raiseIf bad message >>= f) = .ok a ↔ bad = false ∧ f () = .ok a := by
  cases bad with
  | false => exact ⟨fun h => ⟨rfl, h⟩, fun h => h.2⟩
  | true =>
    constructor
    · intro h
      cases h
    · intro h
      cases h.1

section Fragment

variable {r : IntervalRecorder} {n : ℕ}

/-- The integers a reader finds in a fragment. -/
theorem intItem_fragment :
    Dict.intItem (r.fragment n) "measurement_start_unix_epoch_ns" =
        .ok (r.measurementStartUnixEpochNs : ℤ) ∧
      Dict.intItem (r.fragment n) "declared_measurement_duration_ns" =
        .ok (r.declaredMeasurementDurationNs : ℤ) ∧
      Dict.intItem (r.fragment n) "maximum_rows" = .ok (r.maximumRows : ℤ) ∧
      Dict.intItem (r.fragment n) "aggregate_latency_count" = .ok (n : ℤ) ∧
      Dict.intItem (r.fragment n) "late_arrivals" = .ok (r.lateArrivals : ℤ) :=
  ⟨rfl, rfl, rfl, rfl, rfl⟩

/-- The row bound a reader derives from the declared times. -/
def expectedRows (r : IntervalRecorder) : ℤ :=
  ceilSeconds r.declaredMeasurementDurationNs +
    (ceilSeconds r.publisherDrainNs + ceilSeconds r.drainGraceNs) + 2

theorem countedRows_fragment {message : String} :
    countedRows (r.fragment n) message = .ok (r.rows.map fun row => .obj row.members) := by
  unfold countedRows
  rw [show (r.fragment n).get? "rows" = some (.arr (r.rows.map fun row => .obj row.members))
      from rfl,
    show (r.fragment n).get? "row_count" = some (.int r.rows.length) from rfl]
  simp [Json.isInt]

/-- Up to its rows, a fragment passes. -/
theorem validateFragment_header (hpos : 0 < r.declaredMeasurementDurationNs) :
    ∃ rest, validateFragment (r.fragment n) n =
        (raiseIf r.rows.isEmpty "interval latency fragment has no interval rows" >>= rest) ∧
      ((r.Closed n ∧ r.intervalCount = n) → rest () =
        (raiseIf (r.maximumRows ≠ expectedRows r)
          "interval latency cardinality exceeds its declared bound" >>= fun _ =>
        .ok (r.rows.map fun row => .obj row.members))) := by
  obtain ⟨hstart, hduration, hmaximum, hdeclared, hlate⟩ := @intItem_fragment r n
  have hkeys : (r.fragment n).hasKeys fragmentFields = true := rfl
  have hlabels : hasLabels (r.fragment n) = true := rfl
  have hexpected : IntervalMetrics.maximumRows r.declaredMeasurementDurationNs (r.fragment n) =
      .ok (expectedRows r) := rfl
  have hnone : decide ((r.declaredMeasurementDurationNs : ℤ) ≤ 0) = false := by
    rw [decide_eq_false_iff_not]
    omega
  have hsome : (decide ((r.declaredMeasurementDurationNs : ℤ) > 0) &&
      (r.rows.map fun row => Json.obj row.members).isEmpty) = r.rows.isEmpty := by
    rw [decide_eq_true (by omega), Bool.true_and, List.isEmpty_map]
  unfold validateFragment
  rw [hkeys, Bool.not_true, raiseIf_false, ok_bind, hlabels, Bool.not_true, raiseIf_false, ok_bind,
    hduration, ok_bind, hnone, raiseIf_false, ok_bind, hexpected, ok_bind, hmaximum, ok_bind,
    countedRows_fragment, ok_bind, hsome]
  refine ⟨_, rfl, ?_⟩
  rintro ⟨hclosed, hcount⟩
  have hzero : r.lateArrivals = 0 := by
    have := hclosed.counted
    omega
  have hbounded : (decide ((r.maximumRows : ℤ) ≠ expectedRows r) || decide ((r.maximumRows : ℤ) <
      (r.rows.map fun row => Json.obj row.members).length)) =
      decide ((r.maximumRows : ℤ) ≠ expectedRows r) := by
    have hfull : ¬ (r.maximumRows : ℤ) < r.rows.length := by
      have := hclosed.bounded
      omega
    rw [List.length_map, decide_eq_false hfull, Bool.or_false]
  obtain ⟨hi, htiles⟩ := hclosed.tiled
  have hrows : validateFragmentRows (r.fragment n) (r.rows.map fun row => .obj row.members) 0 0 =
      .ok (n : ℤ) := by
    have hsum := @validateFragmentRows_ok _ _ _ 0 hi 0 hstart hclosed.sound htiles
    rw [zero_add, show (r.rows.map (·.latencyCount)).sum = n from hcount] at hsum
    exact hsum
  have hsame : decide ((n : ℤ) ≠ n) = false := by simp
  rw [hbounded]
  refine congrArg _ (funext fun _ => ?_)
  rw [hlate, ok_bind, hzero, show decide (((0 : ℕ) : ℤ) ≠ 0) = false from rfl, raiseIf_false,
    ok_bind, hrows, ok_bind, hdeclared, ok_bind, hsame, raiseIf_false, ok_bind, raiseIf_false,
    ok_bind]
  rfl

theorem validateFragment_of_no_rows (hpos : 0 < r.declaredMeasurementDurationNs)
    (hrows : r.rows = []) : validateFragment (r.fragment n) n =
      .error (.value "interval latency fragment has no interval rows") := by
  obtain ⟨rest, heq, -⟩ := @validateFragment_header r n hpos
  rw [heq, hrows]
  rfl

/-- A fragment of closed rows passes its validator exactly if it has rows and the derived row bound
is the declared one. -/
theorem validateFragment_ok_iff {v : List Json} (hclosed : r.Closed n)
    (hcount : r.intervalCount = n) (hpos : 0 < r.declaredMeasurementDurationNs) :
    validateFragment (r.fragment n) n = .ok v ↔
      (r.rows ≠ [] ∧ (r.maximumRows : ℤ) = expectedRows r) ∧
        v = r.rows.map fun row => .obj row.members := by
  obtain ⟨rest, heq, hrest⟩ := @validateFragment_header r n hpos
  rw [heq, raiseIf_bind_eq_ok, hrest ⟨hclosed, hcount⟩, raiseIf_bind_eq_ok, and_assoc,
    List.isEmpty_eq_false_iff, decide_eq_false_iff_not, not_not, Except.ok.injEq, @eq_comm _ v]

end Fragment

section Metrics

/-- A reason that says something and spells no forbidden field. -/
def plainReason (reason : String) : Bool :=
  reason ≠ "" && forbiddenFields.all fun field => !Json.spells field reason

/-- A number with the status available, or a plain reason why there is none. -/
inductive IsMetric : Json → Prop
  | int (n : ℤ) : IsMetric (available (.int n))
  | float (q : ℚ) : IsMetric (available (.float q))
  | missing {reason : String} (plain : plainReason reason = true) : IsMetric (unavailable reason)

theorem IsMetric.maximumOr {values : List ℤ} {reason : String} (h : plainReason reason = true) :
    IsMetric (maximumOr values reason) := by
  unfold IntervalMetrics.maximumOr
  split
  · exact .int _
  · exact .missing h

theorem IsMetric.cpuPercent {rows live : List ResourceSample} {startNs endNs : ℤ} {ticks : ℕ} :
    IsMetric (cpuPercent rows live startNs endNs ticks) := by
  unfold IntervalMetrics.cpuPercent
  dsimp only
  split
  · exact .missing (by decide +kernel)
  · split
    · exact .missing (by decide +kernel)
    · exact .float _

theorem IsMetric.hostMetrics {rows : List HostSample} {startNs endNs : ℤ} :
    IsMetric (hostMetrics rows startNs endNs).1 ∧ IsMetric (hostMetrics rows startNs endNs).2 := by
  unfold IntervalMetrics.hostMetrics
  dsimp only
  split
  · exact ⟨.missing (by decide +kernel), .missing (by decide +kernel)⟩
  · refine ⟨?_, .maximumOr (by decide +kernel)⟩
    dsimp only
    split
    · exact .missing (by decide +kernel)
    · exact .float _

theorem IsMetric.cpuAndRss {s : Samples} {startNs endNs : ℤ} :
    IsMetric (cpuAndRss s startNs endNs).1 ∧ IsMetric (cpuAndRss s startNs endNs).2 := by
  unfold IntervalMetrics.cpuAndRss
  split
  · exact ⟨.missing (by decide +kernel), .missing (by decide +kernel)⟩
  · exact ⟨.cpuPercent, .maximumOr (by decide +kernel)⟩

theorem IsMetric.rssOrFallback {s : Samples} {rss : Json} {startNs endNs : ℤ} (h : IsMetric rss) :
    IsMetric (rssOrFallback s rss startNs endNs) := by
  unfold IntervalMetrics.rssOrFallback
  split
  · cases s.memoryClock with
    | some clock => exact .maximumOr (by decide +kernel)
    | none => exact .missing (by decide +kernel)
  · exact h

theorem IsMetric.powerAndTemperature {s : Samples} {startNs endNs : ℤ} :
    IsMetric (powerAndTemperature s startNs endNs).1 ∧
      IsMetric (powerAndTemperature s startNs endNs).2 := by
  unfold IntervalMetrics.powerAndTemperature
  split
  · exact ⟨.missing (by decide +kernel), .missing (by decide +kernel)⟩
  · exact IsMetric.hostMetrics

theorem IsMetric.queueDepth {s : Samples} {startNs endNs : ℤ} :
    IsMetric (queueDepth s startNs endNs) := by
  unfold IntervalMetrics.queueDepth
  split
  · exact .missing (by decide +kernel)
  · cases s.queueClock with
    | some clock => exact .maximumOr (by decide +kernel)
    | none => exact .missing (by decide +kernel)

/-- Whatever the samples, every observation is a metric. -/
theorem observe_isMetric (s : Samples) (startNs endNs : ℤ) :
    IsMetric (observe s startNs endNs).cpu ∧ IsMetric (observe s startNs endNs).rss ∧
      IsMetric (observe s startNs endNs).power ∧ IsMetric (observe s startNs endNs).temperature ∧
      IsMetric (observe s startNs endNs).queue :=
  ⟨IsMetric.cpuAndRss.1, IsMetric.cpuAndRss.2.rssOrFallback, IsMetric.powerAndTemperature.1,
    IsMetric.powerAndTemperature.2, .queueDepth⟩

theorem validateMetric_ok {members : Dict} {field : String} {metric : Json}
    (hget : members.get? field = some metric) (h : IsMetric metric) :
    validateMetric members field = .ok () := by
  unfold validateMetric
  rw [hget]
  cases h with
  | int n => rfl
  | float q => rfl
  | @missing reason plain =>
    have hne : reason ≠ "" := of_decide_eq_true (Bool.and_eq_true_iff.mp plain).1
    show raiseIf (!decide (reason ≠ "")) _ = .ok ()
    rw [decide_eq_true hne]
    rfl

theorem IsMetric.not_mentions {field : String} {metric : Json} (hf : field ∈ forbiddenFields)
    (h : IsMetric metric) : Json.mentions field metric = false := by
  have hplain : ∀ word ∈ ["status", "value", "available", "unavailable", "reason"],
      ∀ f ∈ forbiddenFields, Json.spells f word = false := by
    decide +kernel
  have hword := fun word hw => hplain word hw field hf
  cases h with
  | int n => simp [available, Json.mentions, Json.anyMemberMentions, hword]
  | float q => simp [available, Json.mentions, Json.anyMemberMentions, hword]
  | missing plain =>
    have hreason := List.all_eq_true.mp (Bool.and_eq_true_iff.mp plain).2 field hf
    simpa [unavailable, Json.mentions, Json.anyMemberMentions, hword] using hreason

/-- A document row composed from `row`, for a measurement that began at `origin`. -/
structure ComposedFrom (origin : ℕ) (row : IntervalLatencyRow) (members : Dict) : Prop where
  keys : members.hasKeys requiredRowFields = true
  start : Dict.intItem members "interval_start_ns" = .ok (row.intervalStartNs : ℤ)
  stop : Dict.intItem members "interval_end_ns" = .ok (row.intervalEndNs : ℤ)
  startUnix : Dict.intItem members "interval_start_unix_epoch_ns" =
    .ok ((origin : ℤ) + row.intervalStartNs)
  stopUnix : Dict.intItem members "interval_end_unix_epoch_ns" =
    .ok ((origin : ℤ) + row.intervalEndNs)
  count : Dict.intItem members "latency_count" = .ok (row.latencyCount : ℤ)
  events : Dict.intItem members "received_events" = .ok (row.receivedEvents : ℤ)
  unique : Dict.intItem members "throughput_messages" = .ok (row.throughputMessages : ℤ)
  duplicates : Dict.intItem members "duplicates" = .ok (row.duplicates : ℤ)
  metrics : validateMetrics members metricFields = .ok ()
  silent : ∀ field ∈ forbiddenFields, Json.mentions field (.obj members) = false

theorem percentile_members (h : row.Sound origin) :
    ∃ p50 p95 p99, percentile row.members row.latencyCount "latency_p50_ns" = .ok p50 ∧
      percentile row.members row.latencyCount "latency_p95_ns" = .ok p95 ∧
      percentile row.members row.latencyCount "latency_p99_ns" = .ok p99 ∧
      IsMetric p50 ∧ IsMetric p95 ∧ IsMetric p99 := by
  have hmissing : IsMetric (unavailable "empty-latency-interval") := .missing (by decide +kernel)
  unfold percentile
  by_cases hzero : row.latencyCount = 0
  · have hcount : ¬ (row.latencyCount : ℤ) ≠ 0 := by simp [hzero]
    simp only [if_neg hcount]
    exact ⟨_, _, _, rfl, rfl, rfl, hmissing, hmissing, hmissing⟩
  · have hcount : (row.latencyCount : ℤ) ≠ 0 := by exact_mod_cast hzero
    obtain ⟨p50, p95, p99, h50, h95, h99⟩ := h.present hzero
    simp only [if_pos hcount]
    unfold IntervalLatencyRow.members
    rw [h50, h95, h99]
    exact ⟨_, _, _, rfl, rfl, rfl, .int p50, .int p95, .int p99⟩

theorem composeRow_ok (s : Samples) (h : row.Sound origin) :
    ∃ members, composeRow s origin (.obj row.members) = .ok (.obj members) ∧
      ComposedFrom origin row members := by
  obtain ⟨hstart, hend, -, -, hcount, hevents, hunique, hduplicates⟩ := @intItem_members row
  obtain ⟨p50, p95, p99, h50, h95, h99, m50, m95, m99⟩ := percentile_members h
  obtain ⟨mcpu, mrss, mpower, mtemperature, mqueue⟩ :=
    observe_isMetric s (origin + row.intervalStartNs) (origin + row.intervalEndNs)
  unfold composeRow
  dsimp only
  rw [hstart, ok_bind, hend, ok_bind, hcount, ok_bind, h50, ok_bind, h95, ok_bind, h99, ok_bind,
    hevents, ok_bind, hunique, ok_bind, hduplicates, ok_bind]
  refine ⟨_, rfl, ⟨rfl, rfl, rfl, rfl, rfl, rfl, rfl, rfl, rfl, ?_, ?_⟩⟩
  · unfold metricFields
    simp only [validateMetrics]
    rw [validateMetric_ok rfl m50, ok_bind, validateMetric_ok rfl m95, ok_bind,
      validateMetric_ok rfl m99, ok_bind, validateMetric_ok rfl mcpu, ok_bind,
      validateMetric_ok rfl mrss, ok_bind, validateMetric_ok rfl mpower, ok_bind,
      validateMetric_ok rfl mtemperature, ok_bind, validateMetric_ok rfl mqueue]
    rfl
  · intro field hf
    have hplain : ∀ name ∈ requiredRowFields, ∀ f ∈ forbiddenFields,
        Json.spells f name = false := by decide +kernel
    refine Json.anyMemberMentions_eq_false (fun name hn => hplain name hn field hf) ?_
    simp only [List.map_cons, List.map_nil, List.forall_mem_cons]
    exact ⟨rfl, rfl, rfl, rfl, rfl, m50.not_mentions hf, m95.not_mentions hf, m99.not_mentions hf,
      rfl, rfl, rfl, rfl, mcpu.not_mentions hf, mrss.not_mentions hf, mpower.not_mentions hf,
      mtemperature.not_mentions hf, mqueue.not_mentions hf, List.forall_mem_nil _⟩

theorem composeRows_ok (s : Samples) (h : ∀ row ∈ rows, row.Sound origin) :
    ∃ composed, composeRows s origin (rows.map fun row => .obj row.members) =
        .ok (composed.map Json.obj) ∧ List.Forall₂ (ComposedFrom origin) rows composed := by
  induction rows with
  | nil => exact ⟨[], rfl, .nil⟩
  | cons row rest ih =>
    obtain ⟨members, hmembers, hfrom⟩ := composeRow_ok s (h row (by simp))
    obtain ⟨composed, hcomposed, hall⟩ := ih fun later hlater => h later (by simp [hlater])
    refine ⟨members :: composed, ?_, .cons hfrom hall⟩
    rw [List.map_cons, composeRows, hmembers, ok_bind, hcomposed, ok_bind]
    rfl

theorem composed_silent {composed : List Dict}
    (hall : List.Forall₂ (ComposedFrom origin) rows composed) :
    ∀ members ∈ composed, ∀ field ∈ forbiddenFields,
      Json.mentions field (.obj members) = false := by
  induction hall with
  | nil => exact List.forall_mem_nil _
  | cons hfrom _ ih => exact List.forall_mem_cons.mpr ⟨hfrom.silent, ih⟩

theorem validateMetricsRow_ok {value members : Dict} {previousEnd : ℕ} {last : Bool}
    (horigin : Dict.intItem value "measurement_start_unix_epoch_ns" = .ok (origin : ℤ))
    (h : row.Sound origin) (hfrom : ComposedFrom origin row members)
    (hfits : fits row.intervalStartNs row.intervalEndNs previousEnd last = true) :
    validateMetricsRow value previousEnd last (.obj members) =
      .ok ((row.intervalEndNs : ℤ), (row.latencyCount : ℤ)) := by
  have haligned : (decide ((origin : ℤ) + row.intervalStartNs ≠ origin + row.intervalStartNs) ||
      decide ((origin : ℤ) + row.intervalEndNs ≠ origin + row.intervalEndNs)) = false := by simp
  have hsum : decide ((row.receivedEvents : ℤ) ≠ row.throughputMessages + row.duplicates) =
      false := by simp [h.events]
  unfold validateMetricsRow
  dsimp only
  rw [hfrom.keys, Bool.not_true, raiseIf_false, ok_bind, hfrom.start, ok_bind, hfrom.stop, ok_bind,
    hfits, Bool.not_true, raiseIf_false, ok_bind, horigin, ok_bind, hfrom.startUnix, ok_bind,
    hfrom.stopUnix, ok_bind, haligned, raiseIf_false, ok_bind]
  rw [hfrom.events, ok_bind, hfrom.unique, ok_bind, hfrom.duplicates, ok_bind, hsum, raiseIf_false,
    ok_bind, hfrom.metrics, ok_bind, hfrom.count, ok_bind]
  rfl

theorem validateMetricsRows_ok {value : Dict} {composed : List Dict} {lo hi : ℕ} {total : ℤ}
    (horigin : Dict.intItem value "measurement_start_unix_epoch_ns" = .ok (origin : ℤ))
    (hsound : ∀ row ∈ rows, row.Sound origin)
    (hall : List.Forall₂ (ComposedFrom origin) rows composed)
    (htiles : Tiles intervalWidthNs lo (rows.map (·.window)) hi) :
    validateMetricsRows value (composed.map Json.obj) lo total =
      .ok (total + ((rows.map (·.latencyCount)).sum : ℕ)) := by
  induction hall generalizing lo total with
  | nil => simp [validateMetricsRows]
  | @cons row members rest composedRest hfrom hall ih =>
    have hfits := fits_of_tiles htiles
    have hrest : Tiles intervalWidthNs row.intervalEndNs (rest.map (·.window)) hi :=
      (htiles.head (by decide)).2.2.2.2
    have hempty : (composedRest.map Json.obj).isEmpty = rest.isEmpty := by
      rw [List.isEmpty_map]
      cases hall with
      | nil => rfl
      | cons _ _ => rfl
    rw [List.map_cons, validateMetricsRows, hempty,
      validateMetricsRow_ok horigin (hsound row (by simp)) hfrom hfits, ok_bind]
    dsimp only
    rw [ih (fun later hlater => hsound later (by simp [hlater])) hrest, List.map_cons,
      List.sum_cons, Nat.cast_add, add_assoc]

end Metrics

section Document

variable {r : IntervalRecorder} {n : ℕ}

/-- The document composed from a fragment, around its rows. -/
def document (s : Samples) (r : IntervalRecorder) (n : ℕ) (rows : List Json) : Dict := [
  ("schema_version", .int 1),
  ("interval_clock", .str "monotonic-elapsed"),
  ("alignment_clock", .str "unix-epoch"),
  ("alignment_clock_purpose", .str "cross-process-alignment-only"),
  ("measurement_start_unix_epoch_ns", .int r.measurementStartUnixEpochNs),
  ("declared_measurement_duration_ns", .int r.declaredMeasurementDurationNs),
  ("bucket_width_ns", .int intervalWidthNs),
  ("maximum_rows", .int r.maximumRows),
  ("row_count", .int r.rows.length),
  ("aggregate_latency_count", .int n),
  ("late_arrivals", .int r.lateArrivals),
  ("publisher_drain_ns", .int r.publisherDrainNs),
  ("drain_grace_ns", .int r.drainGraceNs),
  ("sample_unit", .str "interval-within-run"),
  ("sources", .obj (sources s)),
  ("estimators", .obj estimators),
  ("rows", .arr rows)]

theorem composeArtifact_ok (s : Samples) (hsound : ∀ row ∈ r.rows,
    row.Sound r.measurementStartUnixEpochNs) :
    ∃ composed, composeArtifact s (r.fragment n) (r.rows.map fun row => .obj row.members) =
        .ok (document s r n (composed.map Json.obj)) ∧
      List.Forall₂ (ComposedFrom r.measurementStartUnixEpochNs) r.rows composed := by
  obtain ⟨hstart, -, -, -, -⟩ := @intItem_fragment r n
  obtain ⟨composed, hcomposed, hall⟩ := composeRows_ok s hsound
  refine ⟨composed, ?_, hall⟩
  unfold composeArtifact
  rw [hstart, ok_bind, hcomposed, ok_bind]
  rfl

theorem sources_silent (s : Samples) {field : String} (hf : field ∈ forbiddenFields) :
    Json.mentions field (.obj (sources s)) = false := by
  have hplain : ∀ word ∈ ["latency_throughput", "process", "rss_fallback", "host", "queue",
      "interval-latency.json", "resource-usage.csv", "memory.csv", "pi-telemetry.csv",
      "queue-depth.csv"], ∀ f ∈ forbiddenFields, Json.spells f word = false := by
    decide +kernel
  have hmember : ∀ member ∈ sources s, ∃ name text, member = (name, Json.str text) ∧
      name ∈ ["latency_throughput", "process", "rss_fallback", "host", "queue"] ∧
      text ∈ ["interval-latency.json", "resource-usage.csv", "memory.csv", "pi-telemetry.csv",
        "queue-depth.csv"] := by
    intro member hm
    unfold sources at hm
    simp only [List.mem_append, List.mem_singleton] at hm
    rcases hm with (((rfl | hm) | hm) | hm) | hm
    · exact ⟨_, _, rfl, by decide, by decide⟩
    all_goals
      split at hm
      · cases hm
      · obtain rfl := List.mem_singleton.mp hm
        exact ⟨_, _, rfl, by decide, by decide⟩
  refine Json.anyMemberMentions_eq_false ?_ ?_
  · intro name hn
    obtain ⟨member, hm, rfl⟩ := List.mem_map.mp hn
    obtain ⟨name, text, rfl, hname, -⟩ := hmember member hm
    exact hplain name (List.mem_append_left _ hname) field hf
  · intro value hv
    obtain ⟨member, hm, rfl⟩ := List.mem_map.mp hv
    obtain ⟨name, text, rfl, -, htext⟩ := hmember member hm
    exact hplain text (List.mem_append_right
      ["latency_throughput", "process", "rss_fallback", "host", "queue"] htext) field hf

/-- No string of the document but those of its rows could be taken for a forbidden field. -/
theorem document_silent (s : Samples) {rows : List Json} {field : String}
    (hf : field ∈ forbiddenFields) (hrows : ∀ row ∈ rows, Json.mentions field row = false) :
    Json.mentions field (.obj (document s r n rows)) = false := by
  have hlabels : ∀ word ∈ ["monotonic-elapsed", "unix-epoch", "cross-process-alignment-only",
      "interval-within-run"], ∀ f ∈ forbiddenFields, Json.spells f word = false := by
    decide +kernel
  have hestimators : ∀ f ∈ forbiddenFields, Json.mentions f (.obj estimators) = false := by
    decide +kernel
  have hnames : ∀ name ∈ (document s r n rows).map Prod.fst, ∀ f ∈ forbiddenFields,
      Json.spells f name = false := by
    show ∀ name ∈ ["schema_version", "interval_clock", "alignment_clock",
      "alignment_clock_purpose", "measurement_start_unix_epoch_ns",
      "declared_measurement_duration_ns", "bucket_width_ns", "maximum_rows", "row_count",
      "aggregate_latency_count", "late_arrivals", "publisher_drain_ns", "drain_grace_ns",
      "sample_unit", "sources", "estimators", "rows"], _
    decide +kernel
  refine Json.anyMemberMentions_eq_false (fun name hn => hnames name hn field hf) ?_
  unfold document
  simp only [List.map_cons, List.map_nil, List.forall_mem_cons]
  exact ⟨rfl, hlabels _ (by simp) field hf, hlabels _ (by simp) field hf,
    hlabels _ (by simp) field hf, rfl, rfl, rfl, rfl, rfl, rfl, rfl, rfl, rfl,
    hlabels _ (by simp) field hf, sources_silent s hf, hestimators field hf,
    Json.anyMentions_eq_false hrows, List.forall_mem_nil _⟩

theorem rejectForbidden_ok {value : Dict} {fields : List String}
    (h : ∀ field ∈ fields, Json.mentions field (.obj value) = false) :
    rejectForbidden value fields = .ok () := by
  induction fields with
  | nil => rfl
  | cons field rest ih =>
    rw [rejectForbidden, h field (by simp), if_neg Bool.false_ne_true]
    exact ih fun f hf => h f (by simp [hf])

theorem validateIntervalMetrics_ok (s : Samples) {composed : List Dict} (hclosed : r.Closed n)
    (hcount : r.intervalCount = n) (hrows : r.rows ≠ [])
    (hmaximum : (r.maximumRows : ℤ) = expectedRows r)
    (hall : List.Forall₂ (ComposedFrom r.measurementStartUnixEpochNs) r.rows composed) :
    validateIntervalMetrics (document s r n (composed.map Json.obj)) (some (n : ℤ)) = .ok () := by
  let value := document s r n (composed.map Json.obj)
  have hkeys : value.hasKeys requiredTopLevel = true := rfl
  have hlabels : (!hasLabels value ||
      !(value.get? "sample_unit").any (Json.isStr "interval-within-run")) = false := rfl
  have hexpected : IntervalMetrics.maximumRows r.declaredMeasurementDurationNs value =
      .ok (expectedRows r) := rfl
  have hlength : composed.length = r.rows.length := hall.length_eq.symm
  have hcounted : countedRows value "interval-metrics row count differs" =
      .ok (composed.map Json.obj) := by
    unfold countedRows
    rw [show value.get? "rows" = some (.arr (composed.map Json.obj)) from rfl,
      show value.get? "row_count" = some (.int r.rows.length) from rfl]
    simp [Json.isInt, hlength]
  have hzero : r.lateArrivals = 0 := by
    have := hclosed.counted
    omega
  have hsilent : rejectForbidden value forbiddenFields = .ok () := by
    refine rejectForbidden_ok fun field hf => document_silent s hf ?_
    intro row hrow
    obtain ⟨members, hm, rfl⟩ := List.mem_map.mp hrow
    exact composed_silent hall members hm field hf
  obtain ⟨hi, htiles⟩ := hclosed.tiled
  have htotal : validateMetricsRows value (composed.map Json.obj) 0 0 = .ok (n : ℤ) := by
    have hsum := @validateMetricsRows_ok _ _ value composed 0 hi 0 rfl hclosed.sound hall htiles
    rw [zero_add, show (r.rows.map (·.latencyCount)).sum = n from hcount] at hsum
    exact hsum
  have hsame : decide ((n : ℤ) ≠ n) = false := by simp
  have hbounded : decide ((r.maximumRows : ℤ) < (composed.map Json.obj).length) = false := by
    have := hclosed.bounded
    rw [List.length_map, hlength, decide_eq_false_iff_not]
    omega
  have hnonempty : (decide ((r.declaredMeasurementDurationNs : ℤ) > 0) &&
      (composed.map Json.obj).isEmpty) = false := by
    rw [List.isEmpty_map, Bool.and_eq_false_iff]
    refine .inr (List.isEmpty_eq_false_iff.mpr fun hnil => hrows ?_)
    exact List.length_eq_zero_iff.mp (hlength ▸ hnil ▸ rfl)
  have hagree : decide ((r.maximumRows : ℤ) ≠ expectedRows r) = false := by simp [hmaximum]
  show validateIntervalMetrics value (some (n : ℤ)) = .ok ()
  unfold validateIntervalMetrics
  rw [hkeys, Bool.not_true, raiseIf_false, ok_bind, hlabels, raiseIf_false, ok_bind,
    show intOr value "declared_measurement_duration_ns" (-1) =
      .ok (r.declaredMeasurementDurationNs : ℤ) from rfl, ok_bind,
    show intOr value "maximum_rows" (-1) = .ok (r.maximumRows : ℤ) from rfl, ok_bind,
    hexpected, ok_bind, hagree, raiseIf_false, ok_bind,
    show intOr value "late_arrivals" (-1) = .ok (r.lateArrivals : ℤ) from rfl, ok_bind, hzero,
    show decide (((0 : ℕ) : ℤ) ≠ 0) = false from rfl, raiseIf_false, ok_bind]
  rw [hcounted, ok_bind, hnonempty, raiseIf_false, ok_bind, hbounded, raiseIf_false, ok_bind,
    hsilent, ok_bind, show intOr value "aggregate_latency_count" (-1) = .ok (n : ℤ) from rfl,
    ok_bind]
  dsimp only [Option.getD_some]
  rw [hsame, raiseIf_false, ok_bind, htotal, ok_bind, hsame, raiseIf_false]

end Document

section Seconds

/-- The longest time, in seconds, that `u64` nanoseconds round up to. -/
def longestSecs : ℕ := 18446744074

theorem ceilSeconds_mul {secs : ℕ} (h : secs ≤ longestSecs) :
    ceilSeconds ((secs * intervalWidthNs : ℕ) : ℤ) = secs := by
  have hwidth : (intervalWidthNs : ℚ) ≠ 0 := by norm_num [intervalWidthNs]
  have hquot : (((secs * intervalWidthNs : ℕ) : ℤ) : ℚ) / intervalWidthNs = ((secs : ℤ) : ℚ) := by
    push_cast
    exact mul_div_cancel_right₀ _ hwidth
  have hsmall : |(secs : ℤ)| < 2 ^ 53 := by
    unfold longestSecs at h
    rw [abs_of_nonneg (by omega)]
    omega
  unfold ceilSeconds trueDiv
  rw [hquot, toDouble_intCast hsmall, Int.ceil_intCast]

/-- The quotient of the largest `u64` is no whole number of seconds, and its double is not
either. -/
theorem ceilSeconds_max : ceilSeconds ((2 ^ 64 - 1 : ℕ) : ℤ) = longestSecs := by
  have hne : (((2 ^ 64 - 1 : ℕ) : ℤ) : ℚ) / intervalWidthNs ≠ 0 := by
    norm_num [intervalWidthNs]
  have herror := abs_toDouble_sub_le hne
  unfold ceilSeconds trueDiv
  generalize hd : toDouble ((((2 ^ 64 - 1 : ℕ) : ℤ) : ℚ) / intervalWidthNs) = d at herror
  have hbounds := abs_le.mp herror
  norm_num [intervalWidthNs, longestSecs] at hbounds
  rw [Int.ceil_eq_iff]
  unfold longestSecs
  push_cast
  constructor
  · linarith [hbounds.1]
  · linarith [hbounds.2]

/-- The whole seconds a reader sees behind a saturated time. -/
theorem ceilSeconds_satMul (secs : ℕ) :
    ceilSeconds (satMul secs intervalWidthNs) = min secs longestSecs := by
  by_cases hfull : secs * intervalWidthNs ≤ 2 ^ 64 - 1
  · have hle : secs ≤ longestSecs := by
      unfold intervalWidthNs at hfull
      unfold longestSecs
      omega
    rw [show satMul secs intervalWidthNs = secs * intervalWidthNs from min_eq_left hfull,
      ceilSeconds_mul hle]
    omega
  · have hlong : longestSecs ≤ secs := by
      unfold intervalWidthNs at hfull
      unfold longestSecs
      omega
    rw [show satMul secs intervalWidthNs = 2 ^ 64 - 1 from min_eq_right (by omega),
      ceilSeconds_max]
    omega

theorem expectedRows_eq_iff {start secs drain grace : ℕ} {setup r : IntervalRecorder}
    (hnew : IntervalRecorder.new start secs drain grace = .ok setup) (h : setup.SameBounds r) :
    (r.maximumRows : ℤ) = expectedRows r ↔
      secs ≤ longestSecs ∧ drain ≤ longestSecs ∧ grace ≤ longestSecs := by
  obtain ⟨-, rfl⟩ := SubscriberRun.new_ok hnew
  unfold expectedRows
  rw [h.duration, h.drain, h.grace, h.maximumRows, ceilSeconds_satMul, ceilSeconds_satMul,
    ceilSeconds_satMul]
  push_cast
  omega

end Seconds

end Wafer.IntervalMetrics

namespace Wafer.SubscriberRun

open Lib IntervalMetrics

variable (fromSlice : List UInt8 → Option TimestampedMessage)

/-- The condition under which the readers take what the run writes: a message was recorded or some
time had passed, and no declared time is too long for 64 bits of nanoseconds. -/
def Readable (run : SubscriberRun) : Prop :=
  ((∃ a ∈ run.arrivals, Measures fromSlice run.sequenceEndExclusive a.payload) ∨
    run.measurementElapsedNs ≠ 0) ∧
  run.measurementSecs ≤ longestSecs ∧ run.publisherDrainSecs ≤ longestSecs ∧
  run.drainGraceSecs ≤ longestSecs

/-- An artifact a run writes passes the fragment validator, and the document composed from it, with
whatever samples, passes its own, exactly under that condition. -/
theorem readers_accept_iff {run : SubscriberRun} {quantile : List Latency → ℚ → ℕ}
    {recorder : LatencyRecorder} {fragment : Dict} (samples : Samples) (hfits : run.StampsFit)
    (hfinished : run.finished fromSlice quantile = .ok recorder)
    (hwritten : recorder.writeMeasurements.1 = some fragment) :
    ((∃ rows, validateFragment fragment recorder.histogram.length = .ok rows) ∧
      ∃ document, composeIntervalMetrics samples fragment recorder.histogram.length =
          .ok document ∧
        validateIntervalMetrics document (some (recorder.histogram.length : ℤ)) = .ok ()) ↔
      run.Readable fromSlice := by
  obtain ⟨setup, r, hnew, hbounds, hclosed, hcount, rfl, hrows⟩ :=
    written_closed hfits hfinished hwritten
  generalize recorder.histogram.length = n at hclosed hcount ⊢
  have hpos : 0 < r.declaredMeasurementDurationNs := by
    obtain ⟨hne, rfl⟩ := new_ok hnew
    rw [hbounds.duration]
    show 0 < satMul run.measurementSecs intervalWidthNs
    unfold satMul intervalWidthNs
    omega
  have hnonempty : r.rows ≠ [] ↔
      (∃ a ∈ run.arrivals, Measures fromSlice run.sequenceEndExclusive a.payload) ∨
        run.measurementElapsedNs ≠ 0 := by
    rw [Ne, hrows, not_and_or, or_comm]
    push Not
    exact Iff.rfl
  have hreadable : run.Readable fromSlice ↔
      r.rows ≠ [] ∧ (r.maximumRows : ℤ) = expectedRows r := by
    rw [hnonempty, expectedRows_eq_iff hnew hbounds]
    exact Iff.rfl
  rw [hreadable]
  constructor
  · rintro ⟨⟨rows, hvalid⟩, -⟩
    exact ((validateFragment_ok_iff hclosed hcount hpos).mp hvalid).1
  · intro hcond
    have hvalid := (validateFragment_ok_iff hclosed hcount hpos).mpr ⟨hcond, rfl⟩
    obtain ⟨composed, hcomposed, hall⟩ := composeArtifact_ok samples hclosed.sound
    have hdocument := validateIntervalMetrics_ok samples hclosed hcount hcond.1 hcond.2 hall
    refine ⟨⟨_, hvalid⟩, _, ?_, hdocument⟩
    unfold composeIntervalMetrics
    rw [hvalid, ok_bind, hcomposed, ok_bind, hdocument, ok_bind]
    rfl

/-- The bytes of a message, all of them ASCII. -/
def onePayload : List UInt8 := "\x7b\"ts\":1000000000,\"seq\":0\x7d".toList.map (·.toNat.toUInt8)

/-- A measurement of two seconds with one message, half a second in. -/
def oneMessage : SubscriberRun where
  measurementStartUnixEpochNs := 1000000000
  measurementSecs := 2
  publisherDrainSecs := 0
  drainGraceSecs := 0
  arrivals := [⟨onePayload, 1000010000, 500000000⟩]
  measurementElapsedNs := 2000000000

/-- The decoder and the percentiles of that message. -/
def decodeOne (payload : List UInt8) : Option TimestampedMessage :=
  if payload = onePayload then some ⟨1000000000, 0⟩ else none

theorem readers_accept_iff_one_message :
    ∃ recorder fragment, oneMessage.finished decodeOne (fun _ _ => 10239) = .ok recorder ∧
      recorder.writeMeasurements.1 = some fragment ∧
      (∃ rows, validateFragment fragment recorder.histogram.length = .ok rows) ∧
      ∃ document, composeIntervalMetrics { ticksPerSecond := 100 } fragment
          recorder.histogram.length = .ok document ∧
        validateIntervalMetrics document (some (recorder.histogram.length : ℤ)) = .ok () := by
  have hfits : oneMessage.StampsFit := by
    unfold StampsFit
    decide +kernel
  have hread : oneMessage.Readable decodeOne := by
    refine ⟨.inr (by decide), by decide, by decide, by decide⟩
  obtain ⟨recorder, hfinished, hsome⟩ :
      ∃ recorder, oneMessage.finished decodeOne (fun _ _ => 10239) = .ok recorder ∧
        recorder.writeMeasurements.1.isSome = true := ⟨_, rfl, by decide +kernel⟩
  obtain ⟨fragment, hwritten⟩ := Option.isSome_iff_exists.mp hsome
  exact ⟨recorder, fragment, hfinished, hwritten,
    (readers_accept_iff decodeOne _ hfits hfinished hwritten).mpr hread⟩

/-- A run that records nothing and is finalised at the instant it began writes an artifact without
rows, which the validator rejects. -/
theorem empty_artifact_rejected :
    let run : SubscriberRun :=
      { measurementStartUnixEpochNs := 1000000000, measurementSecs := 2, publisherDrainSecs := 0,
        drainGraceSecs := 0, arrivals := [], measurementElapsedNs := 0 }
    ∃ recorder fragment, run.finished decodeOne (fun _ _ => 10239) = .ok recorder ∧
      recorder.writeMeasurements.1 = some fragment ∧ recorder.partialReasons = [] ∧
      validateFragment fragment recorder.histogram.length =
        .error (.value "interval latency fragment has no interval rows") := by
  exact ⟨_, _, rfl, rfl, rfl, validateFragment_of_no_rows (by decide) rfl⟩

end Wafer.SubscriberRun
