import Wafer.Loadgen.Subscriber

/-!
# Runs of the subscriber

However the task of the event loop, the recording loop, the clock and the
signals take turns, a finished subscriber has recorded the messages in the order
they came, as the sequential `SubscriberRun` does: all of them after a signal,
and otherwise the shortest front of them with enough distinct numbers.

## Main definitions

- `Subscriber.Kept` — what has been recorded and what is still on the way
- `Subscriber.Concludes` — a finished run as a sequential one

## Main results

- `Subscriber.records_arrivals` — a finished run is a sequential one
- `Subscriber.comes_to_end` — a subscriber that is told to stop can always end
-/

namespace Wafer

open Lib

/-- The sequential run over some messages. -/
def SubscribeArgs.run (args : SubscribeArgs) (startUnixEpochNs : ℕ) (arrivals : List Arrival)
    (measurementElapsedNs : ℕ) : SubscriberRun where
  sequenceExampleLimit := args.sequenceExampleLimit
  sequenceEndExclusive := args.sequenceEndExclusive
  measurementStartUnixEpochNs := startUnixEpochNs
  measurementSecs := args.measurementSecs
  publisherDrainSecs := exitDrainSecs
  drainGraceSecs := args.drainGraceSecs
  arrivals := arrivals
  measurementElapsedNs := measurementElapsedNs

/-- A step of the task or the recording loop. -/
def SubscribeEvent.own : SubscribeEvent → Bool
  | .link _ | .subscriber _ => true
  | .advance _ | .signal _ => false

/-- What happens without the broker and the user. -/
def SubscribeEvent.expected : SubscribeEvent → Bool
  | .link (.poll _) | .signal _ => false
  | _ => true

def SubscriptionPc.rank : SubscriptionPc → ℕ
  | .ended => 0
  | .polling => 1
  | .subscribing | .pausing _ => 2
  | .sending _ => 3
  | .stamping _ => 4

def SubscriberPc.rank : SubscriberPc → ℕ
  | .returned _ => 0
  | .writing => 1
  | .joining => 2
  | .draining => 3
  | .recording => 4

namespace Subscriber

variable (fromSlice : List UInt8 → Option TimestampedMessage) (quantile : List Latency → ℚ → ℕ)

/-- The distinct numbers among the messages. -/
def unique (begun : LatencyRecorder) (messages : List Arrival) : ℕ :=
  (SubscriberRun.recordAll fromSlice quantile begun messages).sequence.unique

/-- No shorter front of the messages has `total` distinct numbers. -/
def Short (total : ℕ) (begun : LatencyRecorder) (messages : List Arrival) : Prop :=
  ∀ n < messages.length, unique fromSlice quantile begun (messages.take n) < total

/-- The channel is closed and empty. -/
def Emptied (s : Subscriber) : Prop := s.link = .ended ∧ s.queue = []

/-- What a run that began with `begun` has recorded of the messages that came: `taken`. -/
structure Kept (args : SubscribeArgs) (begun : LatencyRecorder) (taken came : List Arrival)
    (s : Subscriber) : Prop where
  front : taken <+: came
  recorder : (∀ result, s.pc ≠ .returned result) →
    s.recorder = SubscriberRun.recordAll fromSlice quantile begun taken
  underway : s.exitReason ≠ .totalMessages → came = taken ++ s.queue ++ s.link.held
  short : s.pc = .recording → 0 < args.totalMessages →
    Short fromSlice quantile args.totalMessages begun taken ∧
      unique fromSlice quantile begun taken < args.totalMessages
  reached : s.exitReason = .totalMessages → 0 < args.totalMessages ∧
    Short fromSlice quantile args.totalMessages begun taken ∧
      args.totalMessages ≤ unique fromSlice quantile begun taken
  shutdown : s.shutdown = true ↔ s.pc ≠ .recording
  exit : s.exitReason = .eof ↔ s.pc = .recording
  ended : s.link = .ended → s.shutdown = true
  emptied : s.pc ≠ .recording → s.pc ≠ .draining → s.Emptied
  returned : ∀ result, s.pc = .returned result → result = s.report quantile ∧
    s.recorder = ((SubscriberRun.recordAll fromSlice quantile begun taken).finalizeIntervals
      quantile s.measurementElapsedNs).writeMeasurements.2

/-- The stamps of the messages are those of a clock that never goes back. -/
structure Timed (came : List Arrival) (s : Subscriber) : Prop where
  sorted : (came.map (·.elapsedNs)).Pairwise (· ≤ ·)
  past : ∀ a ∈ came, a.elapsedNs ≤ durationNs s.elapsed
  bounded : s.measurementElapsedNs ≤ u64Max
  measured : (s.pc = .writing ∨ ∃ result, s.pc = .returned result) →
    ∀ a ∈ came, a.elapsedNs ≤ s.measurementElapsedNs

variable {fromSlice quantile} {args : SubscribeArgs} {begun : LatencyRecorder}
  {taken came : List Arrival} {s s' : Subscriber}

/-! ## Steps of the task -/

/-- A step of the task moves messages on, and reads the clocks for one at most. -/
theorem stepLink_spec {e : SubscriptionEvent} (h : s.stepLink e = some s') :
    s.link ≠ .ended ∧ ∃ link queue, s' = { s with link := link, queue := queue } ∧
      queue ++ link.held = s.queue ++ s.link.held ++ s.stamped (.link e) ∧
      (link = .ended → s.shutdown = true) := by
  unfold stepLink at h
  split at h
  · next hlink =>
    split_ifs at h with hdown
    obtain rfl := Option.some.inj h
    refine ⟨by simp [hlink], _, _, rfl, ?_, fun _ => hdown⟩
    simp [hlink, SubscriptionPc.held, stamped]
  · next hlink =>
    split_ifs at h with hdown
    split at h
    · obtain rfl := Option.some.inj h
      exact ⟨by simp [hlink], _, _, rfl, by simp [hlink, SubscriptionPc.held, stamped], by simp⟩
    · obtain rfl := Option.some.inj h
      exact ⟨by simp [hlink], _, _, rfl, by simp [hlink, SubscriptionPc.held, stamped], by simp⟩
    · obtain rfl := Option.some.inj h
      exact ⟨by simp [hlink], s.link, s.queue, rfl,
        by simp [hlink, SubscriptionPc.held, stamped], by simp [hlink]⟩
    · obtain rfl := Option.some.inj h
      exact ⟨by simp [hlink], _, _, rfl, by simp [hlink, SubscriptionPc.held, stamped], by simp⟩
  · next hlink =>
    obtain rfl := Option.some.inj h
    exact ⟨by simp [hlink], _, _, rfl, by simp [hlink, SubscriptionPc.held, stamped], by simp⟩
  · next payload receiveNs hlink =>
    obtain rfl := Option.some.inj h
    exact ⟨by simp [hlink], _, _, rfl, by simp [hlink, SubscriptionPc.held, stamped], by simp⟩
  · next arrival hlink =>
    split_ifs at h
    obtain rfl := Option.some.inj h
    exact ⟨by simp [hlink], _, _, rfl, by simp [hlink, SubscriptionPc.held, stamped], by simp⟩
  · next wake hlink =>
    split_ifs at h
    obtain rfl := Option.some.inj h
    exact ⟨by simp [hlink], _, _, rfl, by simp [hlink, SubscriptionPc.held, stamped], by simp⟩
  · cases h

theorem Kept.link {e : SubscriptionEvent} (h : s.Kept fromSlice quantile args begun taken came)
    (hs : s.stepLink e = some s') :
    s'.Kept fromSlice quantile args begun taken (came ++ s.stamped (.link e)) := by
  obtain ⟨hne, link, queue, rfl, hmoved, hended⟩ := stepLink_spec hs
  have hgone : s.pc ≠ .recording → s.pc ≠ .draining → False := fun hr hd =>
    hne (h.emptied hr hd).1
  refine ⟨h.front.trans (List.prefix_append _ _), h.recorder, fun hexit => ?_, h.short, h.reached,
    h.shutdown, h.exit, hended, fun hr hd => (hgone hr hd).elim, h.returned⟩
  show came ++ s.stamped (.link e) = taken ++ queue ++ link.held
  rw [h.underway hexit, List.append_assoc taken queue, hmoved]
  simp only [List.append_assoc]

/-! ## Steps of the recording loop -/

theorem recordAll_append (begun : LatencyRecorder) (taken : List Arrival) (a : Arrival) :
    SubscriberRun.recordAll fromSlice quantile begun (taken ++ [a]) =
      ((SubscriberRun.recordAll fromSlice quantile begun taken).recordJsonAt fromSlice quantile
        a.payload a.receiveNs a.elapsedNs).2 := by
  induction taken generalizing begun with
  | nil => rfl
  | cons b taken ih => exact ih _

/-- Messages that are short of the total are so with one more behind them. -/
theorem Short.append {total : ℕ} (h : Short fromSlice quantile total begun taken)
    (hu : unique fromSlice quantile begun taken < total) (a : Arrival) :
    Short fromSlice quantile total begun (taken ++ [a]) := by
  intro n hn
  rw [List.length_append, List.length_singleton] at hn
  rcases Nat.lt_succ_iff_lt_or_eq.mp hn with hn | rfl
  · rw [List.take_append_of_le_length hn.le]
    exact h n hn
  · rw [List.take_left']
    · exact hu
    · rfl

/-- Where the next message of the channel stands among those that came. -/
theorem Kept.next {a : Arrival} {queue : List Arrival}
    (h : s.Kept fromSlice quantile args begun taken came)
    (hexit : s.exitReason ≠ .totalMessages) (hq : s.queue = a :: queue) :
    came = (taken ++ [a]) ++ queue ++ s.link.held := by
  rw [h.underway hexit, hq]
  simp only [List.append_assoc, List.cons_append, List.nil_append]

theorem Kept.select (h : s.Kept fromSlice quantile args begun taken came)
    (hpc : s.pc = .recording) (hs : s.select fromSlice quantile args = some s') :
    ∃ taken', s'.Kept fromSlice quantile args begun taken' came := by
  have hexit : s.exitReason ≠ .totalMessages := by
    rw [h.exit.mpr hpc]
    exact SubscriberExit.noConfusion
  have hnret : ∀ result, s.pc ≠ .returned result := fun result => by simp [hpc]
  have hrec := h.recorder hnret
  unfold Subscriber.select at hs
  split at hs
  · obtain rfl := Option.some.inj hs
    exact ⟨taken, h.front, fun _ => hrec, fun _ => h.underway hexit, by simp [leave],
      by simp [leave], by simp [leave], by simp [leave], fun _ => rfl, by simp [leave],
      by simp [leave]⟩
  · split at hs
    · next a queue hq =>
      dsimp only at hs
      have hcame := h.next hexit hq
      have hfront : taken ++ [a] <+: came := by
        rw [hcame, List.append_assoc]
        exact List.prefix_append _ _
      have hrec' : (recordMessage fromSlice quantile { s with queue := queue } a).recorder =
          SubscriberRun.recordAll fromSlice quantile begun (taken ++ [a]) := by
        rw [recordAll_append, ← hrec]
        rfl
      split_ifs at hs with hfull
      · obtain rfl := Option.some.inj hs
        obtain ⟨hpos, hle⟩ := hfull
        obtain ⟨hshort, hlt⟩ := h.short hpc hpos
        refine ⟨taken ++ [a], hfront, fun _ => hrec', by simp [leave], by simp [leave],
          fun _ => ⟨hpos, hshort.append hlt a, ?_⟩, by simp [leave], by simp [leave], fun _ => rfl,
          by simp [leave], by simp [leave]⟩
        rw [unique, ← hrec']
        exact hle
      · obtain rfl := Option.some.inj hs
        refine ⟨taken ++ [a], hfront, fun _ => hrec', fun _ => hcame, fun _ hpos => ?_,
          fun hr => absurd hr hexit, h.shutdown, h.exit, h.ended, fun hr => absurd hpc hr,
          fun result hr => absurd hr (hnret result)⟩
        obtain ⟨hshort, hlt⟩ := h.short hpc hpos
        refine ⟨hshort.append hlt a, Nat.lt_of_not_le fun hle => hfull ⟨hpos, ?_⟩⟩
        rw [hrec']
        exact hle
    · split_ifs at hs with hended
      exact absurd hpc (h.shutdown.mp (h.ended hended))

theorem Kept.drain (h : s.Kept fromSlice quantile args begun taken came)
    (hpc : s.pc = .draining) (hs : s.drain fromSlice quantile = some s') :
    ∃ taken', s'.Kept fromSlice quantile args begun taken' came := by
  have hnret : ∀ result, s.pc ≠ .returned result := fun result => by simp [hpc]
  have hnrec : s.pc ≠ .recording := by simp [hpc]
  have hrec := h.recorder hnret
  have hdown := h.shutdown.mpr hnrec
  have hneof : s.exitReason ≠ .eof := fun he => hnrec (h.exit.mp he)
  unfold Subscriber.drain at hs
  split at hs
  · next a queue hq =>
    dsimp only at hs
    split_ifs at hs with htotal
    · obtain rfl := Option.some.inj hs
      exact ⟨taken, h.front, fun _ => hrec, fun hne => absurd htotal hne,
        fun hr => absurd hr hnrec, h.reached, h.shutdown, h.exit, h.ended,
        fun _ hd => absurd hpc hd, fun result hr => absurd hr (hnret result)⟩
    · obtain rfl := Option.some.inj hs
      have hcame := h.next htotal hq
      refine ⟨taken ++ [a], ?_, fun _ => ?_, fun _ => hcame, fun hr => absurd hr hnrec,
        fun hr => absurd hr htotal, h.shutdown, h.exit, h.ended, fun _ hd => absurd hpc hd,
        fun result hr => absurd hr (hnret result)⟩
      · rw [hcame, List.append_assoc]
        exact List.prefix_append _ _
      · rw [recordAll_append, ← hrec]
        rfl
  · next hq =>
    split_ifs at hs with hended
    obtain rfl := Option.some.inj hs
    exact ⟨taken, h.front, fun _ => hrec, h.underway, by simp, h.reached, by simp [hdown],
      by simp [hneof], h.ended, fun _ _ => ⟨hended, hq⟩, by simp⟩

/-- The steps behind the channel keep what was recorded. -/
theorem Kept.stepSubscriber {e : SubscriberEvent}
    (h : s.Kept fromSlice quantile args begun taken came)
    (hs : s.stepSubscriber fromSlice quantile args e = some s') :
    ∃ taken', s'.Kept fromSlice quantile args begun taken' came := by
  unfold Subscriber.stepSubscriber at hs
  split at hs
  · next hpc => exact h.select hpc hs
  · next hpc => exact h.drain hpc hs
  · next hpc =>
    have hdown := h.shutdown.mpr (by simp [hpc])
    have hneof : s.exitReason ≠ .eof := fun he => by cases hpc.symm.trans (h.exit.mp he)
    have hempty := h.emptied (by simp [hpc]) (by simp [hpc])
    split_ifs at hs with hended
    obtain rfl := Option.some.inj hs
    exact ⟨taken, h.front, fun _ => h.recorder fun result => by simp [hpc], h.underway, by simp,
      h.reached, by simp [hdown], by simp [hneof], h.ended, fun _ _ => hempty, by simp⟩
  · next hpc =>
    have hdown := h.shutdown.mpr (by simp [hpc])
    have hneof : s.exitReason ≠ .eof := fun he => by cases hpc.symm.trans (h.exit.mp he)
    have hempty := h.emptied (by simp [hpc]) (by simp [hpc])
    have hrec := h.recorder fun result => by simp [hpc]
    obtain rfl := Option.some.inj hs
    refine ⟨taken, h.front, fun hne => absurd rfl (hne _), h.underway, by simp [finish],
      h.reached, by simp [finish, hdown], by simp [finish, hneof], h.ended, fun _ _ => hempty, ?_⟩
    intro result hr
    obtain rfl := SubscriberPc.returned.inj hr
    refine ⟨rfl, ?_⟩
    rw [← hrec]
    rfl
  · cases hs

theorem step_running {e : SubscribeEvent} (h : s.step fromSlice quantile args e = some s') :
    s.exited = none := by
  by_contra hx
  unfold Subscriber.step at h
  rw [if_pos (Option.isSome_iff_ne_none.mpr hx)] at h
  cases h

theorem Kept.step {e : SubscribeEvent} (h : s.Kept fromSlice quantile args begun taken came)
    (hs : s.step fromSlice quantile args e = some s') :
    ∃ taken', s'.Kept fromSlice quantile args begun taken' (came ++ s.stamped e) := by
  have hx := step_running hs
  cases e with
  | advance ns =>
    simp only [Subscriber.step, hx] at hs
    obtain rfl := Option.some.inj hs
    refine ⟨taken, ?_⟩
    rw [show s.stamped (.advance ns) = [] from rfl, List.append_nil]
    exact ⟨h.front, h.recorder, h.underway, h.short, h.reached, h.shutdown, h.exit, h.ended,
      h.emptied, h.returned⟩
  | signal reason =>
    refine ⟨taken, ?_⟩
    rw [show s.stamped (.signal reason) = [] from rfl, List.append_nil]
    cases hsig : s.signal with
    | none =>
      simp only [Subscriber.step, hx, hsig] at hs
      obtain rfl := Option.some.inj hs
      exact ⟨h.front, h.recorder, h.underway, h.short, h.reached, h.shutdown, h.exit, h.ended,
        h.emptied, h.returned⟩
    | some first =>
      simp only [Subscriber.step, hx, hsig] at hs
      obtain rfl := Option.some.inj hs
      exact ⟨h.front, h.recorder, h.underway, h.short, h.reached, h.shutdown, h.exit, h.ended,
        h.emptied, h.returned⟩
  | link e =>
    simp only [Subscriber.step, hx] at hs
    exact ⟨taken, h.link hs⟩
  | subscriber e =>
    simp only [Subscriber.step, hx] at hs
    rw [show s.stamped (.subscriber e) = [] from rfl, List.append_nil]
    exact h.stepSubscriber hs

/-! ## The clock -/

/-- The recording loop leaves the clock alone, and reads the end of the measurement off it once the
channel is closed. -/
theorem stepSubscriber_measured {e : SubscriberEvent}
    (h : s.stepSubscriber fromSlice quantile args e = some s') :
    s'.elapsed = s.elapsed ∧ s'.exited = s.exited ∧
      (s'.measurementElapsedNs = durationNs s.elapsed ∨
        s'.measurementElapsedNs = s.measurementElapsedNs ∧
          ((s'.pc = .writing ∨ ∃ result, s'.pc = .returned result) → s.pc = .writing)) := by
  unfold Subscriber.stepSubscriber at h
  split at h
  · next hpc =>
    unfold Subscriber.select at h
    split at h
    · obtain rfl := Option.some.inj h
      simp [leave]
    · split at h
      · dsimp only at h
        split_ifs at h <;> obtain rfl := Option.some.inj h <;> simp [leave, recordMessage, hpc]
      · split_ifs at h
        obtain rfl := Option.some.inj h
        simp [leave]
  · next hpc =>
    unfold Subscriber.drain at h
    split at h
    · dsimp only at h
      split_ifs at h <;> obtain rfl := Option.some.inj h <;> simp [recordMessage, hpc]
    · split_ifs at h
      obtain rfl := Option.some.inj h
      simp
  · split_ifs at h
    obtain rfl := Option.some.inj h
    exact ⟨rfl, rfl, .inl rfl⟩
  · next hpc =>
    obtain rfl := Option.some.inj h
    exact ⟨rfl, rfl, .inr ⟨rfl, fun _ => hpc⟩⟩
  · cases h

theorem Timed.step {e : SubscribeEvent} (ht : s.Timed came)
    (h : s.Kept fromSlice quantile args begun taken came)
    (hs : s.step fromSlice quantile args e = some s') : s'.Timed (came ++ s.stamped e) := by
  have hx := step_running hs
  cases e with
  | advance ns =>
    simp only [Subscriber.step, hx] at hs
    obtain rfl := Option.some.inj hs
    rw [show s.stamped (.advance ns) = [] from rfl, List.append_nil]
    exact ⟨ht.sorted, fun a ha => (ht.past a ha).trans
      (min_le_min_right u64Max (Nat.le_add_right s.elapsed ns)), ht.bounded, ht.measured⟩
  | signal reason =>
    rw [show s.stamped (.signal reason) = [] from rfl, List.append_nil]
    cases hsig : s.signal with
    | none =>
      simp only [Subscriber.step, hx, hsig] at hs
      obtain rfl := Option.some.inj hs
      exact ⟨ht.sorted, ht.past, ht.bounded, ht.measured⟩
    | some first =>
      simp only [Subscriber.step, hx, hsig] at hs
      obtain rfl := Option.some.inj hs
      exact ⟨ht.sorted, ht.past, ht.bounded, ht.measured⟩
  | link e =>
    simp only [Subscriber.step, hx] at hs
    obtain ⟨hne, link, queue, rfl, -, -⟩ := stepLink_spec hs
    have hstamped : ∀ a ∈ s.stamped (.link e), a.elapsedNs = durationNs s.elapsed := by
      intro a ha
      unfold stamped at ha
      split at ha
      · split at ha
        · obtain rfl := List.mem_singleton.mp ha
          rfl
        · cases ha
      · cases ha
    have hone : (s.stamped (.link e)).length ≤ 1 := by
      unfold stamped
      split
      · split <;> simp
      · simp
    refine ⟨?_, fun a ha => ?_, ht.bounded, fun hpc => ?_⟩
    · rw [List.map_append, List.pairwise_append]
      refine ⟨ht.sorted, ?_, ?_⟩
      · match hst : s.stamped (.link e), hone with
        | [], _ => exact List.Pairwise.nil
        | [a], _ => exact List.pairwise_singleton _ _
      · intro x hx y hy
        obtain ⟨a, ha, rfl⟩ := List.mem_map.mp hx
        obtain ⟨b, hb, rfl⟩ := List.mem_map.mp hy
        rw [hstamped b hb]
        exact ht.past a ha
    · rcases List.mem_append.mp ha with ha | ha
      · exact ht.past a ha
      · exact (hstamped a ha).le
    · -- the channel is not closed yet
      refine absurd (h.emptied ?_ ?_).1 hne
      · rcases hpc with hpc | ⟨result, hpc⟩ <;> simp [show s.pc = _ from hpc]
      · rcases hpc with hpc | ⟨result, hpc⟩ <;> simp [show s.pc = _ from hpc]
  | subscriber e =>
    simp only [Subscriber.step, hx] at hs
    obtain ⟨helapsed, -, hmeasured⟩ := stepSubscriber_measured hs
    rw [show s.stamped (.subscriber e) = [] from rfl, List.append_nil]
    refine ⟨ht.sorted, fun a ha => helapsed ▸ ht.past a ha, ?_, fun hpc a ha => ?_⟩
    · rcases hmeasured with hnow | ⟨hsame, -⟩
      · rw [hnow]
        exact min_le_right _ _
      · rw [hsame]
        exact ht.bounded
    rcases hmeasured with hnow | ⟨hsame, hwriting⟩
    · rw [hnow]
      exact ht.past a ha
    · rw [hsame]
      exact ht.measured (.inl (hwriting hpc)) a ha

/-! ## Finished runs -/

/-- A subscriber that has returned has done what a sequential run over the messages `taken` does:
all that came if a signal stopped it, and otherwise no more than it takes to reach the total. -/
structure Concludes (fromSlice : List UInt8 → Option TimestampedMessage)
    (quantile : List Latency → ℚ → ℕ) (args : SubscribeArgs) (startUnixEpochNs : ℕ)
    (begun : LatencyRecorder) (taken came : List Arrival) (s : Subscriber) : Prop where
  exit : s.exitReason = .totalMessages ∨ ∃ reason, s.exitReason = .stopped reason
  all : s.exitReason ≠ .totalMessages → taken = came
  front : taken <+: came
  reached : s.exitReason = .totalMessages → 0 < args.totalMessages ∧
    Short fromSlice quantile args.totalMessages begun taken ∧
      args.totalMessages ≤ unique fromSlice quantile begun taken
  finished : ∃ finished,
    (args.run startUnixEpochNs taken s.measurementElapsedNs).finished fromSlice quantile =
      .ok finished ∧ s.recorder = finished.writeMeasurements.2
  sorted : (taken.map (·.elapsedNs)).Pairwise (· ≤ ·)
  measured : ∀ a ∈ taken, a.elapsedNs ≤ s.measurementElapsedNs
  bounded : s.measurementElapsedNs ≤ u64Max

theorem start_ok {startUnixEpochNs : ℕ} (h : start args startUnixEpochNs = .ok s) :
    s = { recorder := s.recorder } ∧ s.recorder.sequence.unique = 0 ∧
      ∀ arrivals measurementElapsedNs,
        (args.run startUnixEpochNs arrivals measurementElapsedNs).started = .ok s.recorder := by
  unfold start at h
  split_ifs at h
  dsimp only at h
  split at h
  · next recorder hrec =>
    obtain rfl := Except.ok.inj h
    refine ⟨rfl, ?_, fun arrivals measurementElapsedNs => ?_⟩
    · simp only [LatencyRecorder.enableIntervals] at hrec
      split at hrec
      · obtain rfl := Except.ok.inj hrec
        cases hfinish : args.sequenceEndExclusive <;> rfl
      · cases hrec
    · simp only [SubscriberRun.started, SubscribeArgs.run, hrec]
  · cases h

/-- The messages that came in a run, and those recorded of them. -/
theorem kept {startUnixEpochNs : ℕ} {s₀ : Subscriber} {events : List SubscribeEvent}
    (hstart : start args startUnixEpochNs = .ok s₀)
    (h : exec (step fromSlice quantile args) s₀ events = some s) :
    (∃ taken, s.Kept fromSlice quantile args s₀.recorder taken
      (s₀.arrivals fromSlice quantile args events)) ∧
      s.Timed (s₀.arrivals fromSlice quantile args events) := by
  obtain ⟨hs₀, hzero, -⟩ := start_ok hstart
  generalize hbegun : s₀.recorder = begun at hs₀ hzero
  subst hs₀
  refine exec_leftBehind (P := fun came u => (∃ taken, u.Kept fromSlice quantile args begun taken
    came) ∧ u.Timed came) ⟨⟨[], ?_⟩, ?_⟩ ?_ h
  · refine ⟨List.prefix_rfl, fun _ => rfl, fun _ => rfl, fun _ hpos => ⟨?_, ?_⟩, by simp,
      by simp, by simp, by simp, by simp, by simp⟩
    · intro n hn
      cases hn
    · show begun.sequence.unique < args.totalMessages
      rwa [hzero]
  · exact ⟨List.Pairwise.nil, List.forall_mem_nil _, Nat.zero_le _, fun _ => List.forall_mem_nil _⟩
  · rintro came u e v ⟨⟨taken, hu⟩, ht⟩ hstep
    exact ⟨hu.step hstep, ht.step hu hstep⟩

/-- However the task, the recording loop, the clock and the signals take turns, what a subscriber
has recorded and reports in the end is the work of a sequential run over the messages in the order
they came. -/
theorem records_arrivals {startUnixEpochNs : ℕ} {s₀ : Subscriber} {events : List SubscribeEvent}
    {result : Except String SubscriberReport} (hstart : start args startUnixEpochNs = .ok s₀)
    (h : exec (step fromSlice quantile args) s₀ events = some s) (hend : s.pc = .returned result) :
    result = s.report quantile ∧ ∃ taken, s.Concludes fromSlice quantile args startUnixEpochNs
      s₀.recorder taken (s₀.arrivals fromSlice quantile args events) := by
  obtain ⟨⟨taken, hk⟩, ht⟩ := kept hstart h
  obtain ⟨hresult, hrec⟩ := hk.returned result hend
  obtain ⟨hended, hempty⟩ := hk.emptied (by simp [hend]) (by simp [hend])
  have hsub := hk.front.sublist
  refine ⟨hresult, taken, ?_, fun hne => ?_, hk.front, hk.reached, ?_,
    ht.sorted.sublist (hsub.map _), fun a ha => ?_, ht.bounded⟩
  · cases hx : s.exitReason with
    | eof => cases hend.symm.trans (hk.exit.mp hx)
    | stopped reason => exact .inr ⟨reason, rfl⟩
    | totalMessages => exact .inl rfl
  · have hheld : s.link.held = [] := by rw [hended]; rfl
    rw [hk.underway hne, hempty, hheld, List.append_nil, List.append_nil]
  · refine ⟨_, ?_, hrec⟩
    rw [SubscriberRun.finished, (start_ok hstart).2.2]
    rfl
  · exact ht.measured (.inr ⟨result, hend⟩) a (hsub.subset ha)

/-- A decoder that numbers a message by its length. -/
def decodeLength (payload : List UInt8) : Option TimestampedMessage := some ⟨0, payload.length⟩

/-- A signal that comes while a message is in the channel and another one is being polled. -/
def interruptedRun : List SubscribeEvent := [.link (.poll .connAck), .link .subscribed,
  .link (.poll (.publish [7])), .advance 500, .link (.stamp 900), .link .send,
  .link (.poll (.publish [7, 7])), .signal .sigint, .subscriber .select, .advance 100,
  .link (.stamp 1000), .subscriber .drain, .link .send, .link .cancelled, .subscriber .drain,
  .subscriber .drain, .subscriber .join, .subscriber .finish]

theorem records_arrivals_interrupted : ∃ s₀ s taken, start { measurementSecs := 2 } 400 = .ok s₀ ∧
    exec (step decodeLength (fun _ _ => 1023) { measurementSecs := 2 }) s₀ interruptedRun =
      some s ∧
    s.exitReason = .stopped .sigint ∧ taken.map (·.elapsedNs) = [500, 600] ∧
    s.Concludes decodeLength (fun _ _ => 1023) { measurementSecs := 2 } 400 s₀.recorder taken
      (s₀.arrivals decodeLength (fun _ _ => 1023) { measurementSecs := 2 } interruptedRun) := by
  obtain ⟨s₀, hstart, s, h, hexit, result, hend, htimes⟩ : ∃ s₀,
      start { measurementSecs := 2 } 400 = .ok s₀ ∧ ∃ s,
        exec (step decodeLength (fun _ _ => 1023) { measurementSecs := 2 }) s₀ interruptedRun =
          some s ∧ s.exitReason = .stopped .sigint ∧ ∃ result, s.pc = .returned result ∧
        (s₀.arrivals decodeLength (fun _ _ => 1023) { measurementSecs := 2 } interruptedRun).map
          (·.elapsedNs) = [500, 600] := by
    refine ⟨_, rfl, _, rfl, ?_⟩
    exact ⟨rfl, _, rfl, rfl⟩
  obtain ⟨-, taken, hc⟩ := records_arrivals hstart h hend
  refine ⟨s₀, s, taken, hstart, h, hexit, ?_, hc⟩
  rw [hc.all (by simp [hexit]), htimes]

/-! ## The way to the end -/

/-- The steps that are left once the token is cancelled. -/
def work (s : Subscriber) : ℕ := s.pc.rank + s.link.rank + s.queue.length

theorem link_work {e : SubscriptionEvent} (hdown : s.shutdown = true)
    (h : s.stepLink e = some s') : s'.work < s.work ∧ s'.shutdown = true := by
  unfold stepLink at h
  split at h
  · next hlink =>
    rw [if_pos hdown] at h
    obtain rfl := Option.some.inj h
    exact ⟨by simp [work, hlink, SubscriptionPc.rank], hdown⟩
  · rw [if_pos hdown] at h
    cases h
  · next hlink =>
    obtain rfl := Option.some.inj h
    exact ⟨by simp [work, hlink, SubscriptionPc.rank], hdown⟩
  · next hlink =>
    obtain rfl := Option.some.inj h
    exact ⟨by simp [work, hlink, SubscriptionPc.rank], hdown⟩
  · next arrival hlink =>
    split_ifs at h
    obtain rfl := Option.some.inj h
    refine ⟨?_, hdown⟩
    simp only [work, hlink, SubscriptionPc.rank, List.length_append, List.length_singleton]
    omega
  · next wake hlink =>
    split_ifs at h
    obtain rfl := Option.some.inj h
    exact ⟨by simp [work, hlink, SubscriptionPc.rank], hdown⟩
  · cases h

theorem subscriber_work {e : SubscriberEvent} (hpc : s.pc ≠ .recording)
    (hdown : s.shutdown = true) (h : s.stepSubscriber fromSlice quantile args e = some s') :
    s'.work < s.work ∧ s'.shutdown = true := by
  unfold Subscriber.stepSubscriber at h
  split at h
  · next hrec => exact absurd hrec hpc
  · next hdrain =>
    unfold Subscriber.drain at h
    split at h
    · next a queue hq =>
      dsimp only at h
      split_ifs at h <;> obtain rfl := Option.some.inj h <;>
        exact ⟨by simp [work, hq, recordMessage], hdown⟩
    · next hq =>
      split_ifs at h
      obtain rfl := Option.some.inj h
      exact ⟨by simp [work, hdrain, SubscriberPc.rank], hdown⟩
  · next hjoin =>
    split_ifs at h
    obtain rfl := Option.some.inj h
    exact ⟨by simp [work, hjoin, SubscriberPc.rank], hdown⟩
  · next hwrite =>
    obtain rfl := Option.some.inj h
    exact ⟨by simp [work, finish, hwrite, SubscriberPc.rank], hdown⟩
  · cases h

/-- Time and signals are no work. -/
theorem other_work {e : SubscribeEvent} (he : e.own = false)
    (h : s.step fromSlice quantile args e = some s') :
    s'.work = s.work ∧ s'.shutdown = s.shutdown := by
  have hx := step_running h
  cases e with
  | advance ns =>
    simp only [Subscriber.step, hx] at h
    obtain rfl := Option.some.inj h
    exact ⟨rfl, rfl⟩
  | signal reason =>
    cases hsig : s.signal with
    | none =>
      simp only [Subscriber.step, hx, hsig] at h
      obtain rfl := Option.some.inj h
      exact ⟨rfl, rfl⟩
    | some first =>
      simp only [Subscriber.step, hx, hsig] at h
      obtain rfl := Option.some.inj h
      exact ⟨rfl, rfl⟩
  | link e => cases he
  | subscriber e => cases he

theorem own_work {e : SubscribeEvent} (h : s.Kept fromSlice quantile args begun taken came)
    (hdown : s.shutdown = true) (he : e.own = true)
    (hs : s.step fromSlice quantile args e = some s') : s'.work < s.work ∧ s'.shutdown = true := by
  have hx := step_running hs
  cases e with
  | advance ns => cases he
  | signal reason => cases he
  | link e =>
    simp only [Subscriber.step, hx] at hs
    exact link_work hdown hs
  | subscriber e =>
    simp only [Subscriber.step, hx] at hs
    exact subscriber_work (h.shutdown.mp hdown) hdown hs

/-- The subscriber some time later. -/
def later (s : Subscriber) (ns : ℕ) : Subscriber := { s with elapsed := s.elapsed + ns }

/-- With the token cancelled there is always a next step, after a while at most. -/
theorem goes_on (h : s.Kept fromSlice quantile args begun taken came) (hx : s.exited = none)
    (hdown : s.shutdown = true) (hend : ∀ result, s.pc ≠ .returned result) :
    ∃ ns e, e.own = true ∧ e.expected = true ∧
      ((s.later ns).step fromSlice quantile args e).isSome := by
  have hstep : ∀ ns e, ((s.later ns).stepLink e).isSome →
      ((s.later ns).step fromSlice quantile args (.link e)).isSome := by
    intro ns e hlink
    unfold Subscriber.step
    rw [if_neg (by simp [later, hx])]
    exact hlink
  have hmain : ∀ e, ((s.later 0).stepSubscriber fromSlice quantile args e).isSome →
      ((s.later 0).step fromSlice quantile args (.subscriber e)).isSome := by
    intro e hsub
    unfold Subscriber.step
    rw [if_neg (by simp [later, hx])]
    exact hsub
  cases hpc : s.pc with
  | recording => exact absurd hpc (h.shutdown.mp hdown)
  | draining =>
    cases hq : s.queue with
    | cons a queue =>
      refine ⟨0, .subscriber .drain, rfl, rfl, hmain _ ?_⟩
      simp only [Subscriber.stepSubscriber, later, hpc, Subscriber.drain, hq]
      split_ifs <;> rfl
    | nil =>
      cases hlink : s.link with
      | ended =>
        refine ⟨0, .subscriber .drain, rfl, rfl, hmain _ ?_⟩
        simp [Subscriber.stepSubscriber, later, hpc, Subscriber.drain, hq, hlink]
      | polling =>
        exact ⟨0, .link .cancelled, rfl, rfl,
          hstep _ _ (by simp [stepLink, later, hlink, hdown])⟩
      | subscribing =>
        exact ⟨0, .link .subscribed, rfl, rfl, hstep _ _ (by simp [stepLink, later, hlink])⟩
      | stamping payload =>
        exact ⟨0, .link (.stamp 0), rfl, rfl, hstep _ _ (by simp [stepLink, later, hlink])⟩
      | sending arrival =>
        exact ⟨0, .link .send, rfl, rfl,
          hstep _ _ (by simp [stepLink, later, hlink, hq, arrivalsAhead])⟩
      | pausing wake =>
        exact ⟨wake, .link .wake, rfl, rfl, hstep _ _ (by simp [stepLink, later, hlink])⟩
  | joining =>
    obtain ⟨hended, -⟩ := h.emptied (by simp [hpc]) (by simp [hpc])
    refine ⟨0, .subscriber .join, rfl, rfl, hmain _ ?_⟩
    simp [Subscriber.stepSubscriber, later, hpc, hended]
  | writing =>
    refine ⟨0, .subscriber .finish, rfl, rfl, hmain _ ?_⟩
    simp [Subscriber.stepSubscriber, later, hpc]
  | returned result => exact absurd hpc (hend result)

theorem exited_of_own {e : SubscribeEvent} (he : e.own = true)
    (hs : s.step fromSlice quantile args e = some s') : s'.exited = none := by
  have hx := step_running hs
  cases e with
  | advance ns => cases he
  | signal reason => cases he
  | link e =>
    simp only [Subscriber.step, hx] at hs
    obtain ⟨-, link, queue, rfl, -, -⟩ := stepLink_spec hs
    exact hx
  | subscriber e =>
    simp only [Subscriber.step, hx] at hs
    exact (stepSubscriber_measured hs).2.1.trans hx

/-- A signal gets the subscriber out of the recording loop. -/
theorem select_of_signal {reason : StopReason} (hpc : s.pc = .recording) (hx : s.exited = none)
    (hsig : s.signal = some reason) :
    s.step fromSlice quantile args (.subscriber .select) = some (s.leave (.stopped reason)) := by
  simp only [Subscriber.step, hx, Subscriber.stepSubscriber, hpc, Subscriber.select, hsig]
  rfl

/-- A subscriber that is told to stop, or has enough, takes no more steps than there are messages
in the channel, and seven. Until a second signal ends the process, it can always be brought to its
end without the broker. -/
theorem comes_to_end {startUnixEpochNs : ℕ} {s₀ : Subscriber} {events : List SubscribeEvent}
    (hstart : start args startUnixEpochNs = .ok s₀)
    (h : exec (step fromSlice quantile args) s₀ events = some s) :
    (s.shutdown = true → ∀ more t, exec (step fromSlice quantile args) s more = some t →
      more.countP SubscribeEvent.own ≤ s.queue.length + 7) ∧
    (s.exited = none → s.signal ≠ none ∨ s.shutdown = true →
      ∃ more t, (∀ e ∈ more, SubscribeEvent.expected e = true) ∧
        exec (step fromSlice quantile args) s more = some t ∧
        ∃ result, t.pc = .returned result) := by
  obtain ⟨⟨taken, hk⟩, -⟩ := kept hstart h
  have hkept : ∀ (u : Subscriber) e (v : Subscriber),
      (∃ taken came, u.Kept fromSlice quantile args s₀.recorder taken came) →
      u.step fromSlice quantile args e = some v →
      ∃ taken came, v.Kept fromSlice quantile args s₀.recorder taken came := by
    rintro u e v ⟨taken, came, hu⟩ hs
    obtain ⟨taken', hv⟩ := hu.step hs
    exact ⟨taken', _, hv⟩
  constructor
  · intro hdown more t hmore
    have hstep : ∀ (u : Subscriber) e (v : Subscriber),
        ((∃ taken came, u.Kept fromSlice quantile args s₀.recorder taken came) ∧
          u.shutdown = true) → u.step fromSlice quantile args e = some v →
        (∃ taken came, v.Kept fromSlice quantile args s₀.recorder taken came) ∧
          v.shutdown = true := by
      rintro u e v ⟨hu, hd⟩ hs
      refine ⟨hkept u e v hu hs, ?_⟩
      cases he : e.own with
      | true =>
        obtain ⟨taken, came, hu⟩ := hu
        exact (own_work hu hd he hs).2
      | false => exact (other_work he hs).2.trans hd
    have hcount : more.countP SubscribeEvent.own + t.work ≤ s.work := by
      refine exec_countP_le hstep ?_ (fun _ _ _ _ hs he => (other_work he hs).1.le) hmore
        ⟨⟨taken, _, hk⟩, hdown⟩
      rintro u e v ⟨⟨taken, came, hu⟩, hd⟩ hs he
      exact (own_work hu hd he hs).1
    have hpc : s.pc.rank ≤ 3 := by
      have hne := hk.shutdown.mp hdown
      cases hp : s.pc <;> simp [SubscriberPc.rank]
      exact hne hp
    have hlink : s.link.rank ≤ 4 := by
      cases s.link <;> simp [SubscriptionPc.rank]
    have hwork : s.work = s.pc.rank + s.link.rank + s.queue.length := rfl
    omega
  · intro hx hstop
    have hreach : ∃ more t, exec (step fromSlice quantile args) s more = some t ∧
        (∀ e ∈ more, SubscribeEvent.expected e = true) ∧ ∃ result, t.pc = .returned result := by
      refine exec_reaches (P := fun u => (∃ taken came,
        u.Kept fromSlice quantile args s₀.recorder taken came) ∧ u.exited = none ∧
          (u.signal ≠ none ∨ u.shutdown = true)) (μ := work) ?_ ⟨⟨taken, _, hk⟩, hx, hstop⟩
      rintro u ⟨⟨taken, came, hu⟩, hux, hustop⟩ hend
      by_cases hdown : u.shutdown = true
      · obtain ⟨ns, e, hown, hexp, hstep⟩ := goes_on hu hux hdown fun r hr => hend ⟨r, hr⟩
        obtain ⟨v, hv⟩ := Option.isSome_iff_exists.mp hstep
        have hns : u.step fromSlice quantile args (.advance ns) = some (u.later ns) := by
          unfold Subscriber.step
          rw [if_neg (by simp [hux])]
          rfl
        obtain ⟨taken', came', hlater⟩ := hkept _ _ _ ⟨taken, came, hu⟩ hns
        obtain ⟨hless, hdown'⟩ := own_work hlater hdown hown hv
        refine ⟨[.advance ns, e], v, ?_, ?_, ⟨hkept _ _ _ ⟨taken', came', hlater⟩ hv,
          exited_of_own hown hv, .inr hdown'⟩, hless⟩
        · simp only [exec_cons, hns, Option.bind_some, hv, exec_nil]
        · exact List.forall_mem_cons.mpr ⟨rfl, List.forall_mem_singleton.mpr hexp⟩
      · have hpc : u.pc = .recording := not_not.mp (mt hu.shutdown.mpr hdown)
        obtain ⟨reason, hsig⟩ := Option.ne_none_iff_exists'.mp (hustop.resolve_right hdown)
        have hselect : u.step fromSlice quantile args (.subscriber .select) =
            some (u.leave (.stopped reason)) := select_of_signal hpc hux hsig
        refine ⟨[.subscriber .select], _, ?_, List.forall_mem_singleton.mpr rfl,
          ⟨hkept _ _ _ ⟨taken, came, hu⟩ hselect, hux, .inr rfl⟩, ?_⟩
        · simp only [exec_cons, hselect, Option.bind_some, exec_nil]
        · simp [work, leave, hpc, SubscriberPc.rank]
    obtain ⟨more, t, hmore, hexp, hend⟩ := hreach
    exact ⟨more, t, hexp, hmore, hend⟩

theorem comes_to_end_interrupted : ∃ s₀ s, start { measurementSecs := 2 } 400 = .ok s₀ ∧
    exec (step decodeLength (fun _ _ => 1023) { measurementSecs := 2 }) s₀
      (interruptedRun.take 9) = some s ∧ s.queue.length = 1 ∧
    (∀ more t, exec (step decodeLength (fun _ _ => 1023) { measurementSecs := 2 }) s more =
      some t → more.countP SubscribeEvent.own ≤ 8) ∧
    ∃ more t, exec (step decodeLength (fun _ _ => 1023) { measurementSecs := 2 }) s more =
      some t ∧ ∃ result, t.pc = .returned result := by
  obtain ⟨s₀, hstart, s, h, hx, hdown, hlen⟩ : ∃ s₀,
      start { measurementSecs := 2 } 400 = .ok s₀ ∧ ∃ s,
        exec (step decodeLength (fun _ _ => 1023) { measurementSecs := 2 }) s₀
          (interruptedRun.take 9) = some s ∧ s.exited = none ∧ s.shutdown = true ∧
        s.queue.length = 1 := by
    refine ⟨_, rfl, _, rfl, ?_⟩
    exact ⟨rfl, rfl, rfl⟩
  obtain ⟨hbound, hgo⟩ := comes_to_end hstart h
  obtain ⟨more, t, -, hmore, hend⟩ := hgo hx (.inr hdown)
  refine ⟨s₀, s, hstart, h, hlen, ?_, more, t, hmore, hend⟩
  intro more t hmore
  have hle := hbound hdown more t hmore
  rwa [hlen] at hle

end Subscriber

end Wafer
