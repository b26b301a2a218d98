import Wafer.Loadgen.Publisher

/-!
# The schedule of a publisher

The pacer sends the ticks of the schedule one after the other, each when its time
has come, and the publish loop takes them out of the channel in that order. What
has been offered is therefore at any time the first part of the schedule, however
far the two are apart, and nothing is handed to the client before it is due.

## Main definitions

- `PublishArgs.tick`, `PublishArgs.message` — what the schedule asks for
- `Publisher.Kept` — how far the pacer and the publish loop are in it
- `Publisher.Timely` — what the client was handed, and when

## Main results

- `Publisher.offers_schedule` — what a report counts
- `Publisher.completed_steady` — the population of one rate
- `Publisher.never_early` — when messages are handed to the client
-/

namespace Wafer

namespace PublishArgs

variable (args : PublishArgs)

/-- When message `i` is due. -/
def offset (i : ℕ) : ℕ := (Scheduler.new args.shape).offset i

def tick (i : ℕ) : ℕ × ℕ := (args.offset i, args.offset (i + 1))

/-- Message `i` of a run with this start of the measurement. -/
def message (startedNs i : ℕ) : Message where
  seq := min (args.sequenceStart + i) u64Max
  ts := satAdd startedNs (durationNs (args.offset i))

end PublishArgs

namespace Publisher

variable {args : PublishArgs} {s s' : Publisher} {n m k r h : ℕ}

/-- The offset has come, or no instant stands for it. -/
def Due (s : Publisher) (offset : ℕ) : Prop :=
  s.start + offset ≤ s.now ∨ instantEnd ≤ s.start + offset

/-- Where the pacer is that has sent `n` ticks. -/
def PacerAt (args : PublishArgs) (s : Publisher) (n : ℕ) : PacerPc → Prop
  | .unborn => n = 0 ∧ s.scheduler = .new args.shape
  | .computing => s.scheduler = (Scheduler.new args.shape).behind n
  | .sleeping offset => offset = args.offset n ∧ args.offset n < s.duration ∧
      s.scheduler = (Scheduler.new args.shape).behind (n + 1)
  | .sending tick => tick = args.tick n ∧ args.offset n < s.duration ∧ s.Due (args.offset n) ∧
      s.scheduler = (Scheduler.new args.shape).behind (n + 1)
  | .returned => s.dueClosed = true ∨ s.duration ≤ args.offset n

/-- `n` ticks are sent, and `m` of them taken. -/
structure Paced (args : PublishArgs) (s : Publisher) (n m : ℕ) : Prop where
  pacer : s.PacerAt args n s.pacer
  sent : ∀ i < n, args.offset i < s.duration ∧ s.Due (args.offset i)
  taken : m ≤ n
  due : s.dueClosed = false → s.due = (List.range' m (n - m)).map args.tick

/-- The counters are at message `k`, with `r` rows and `h` answers of the client. -/
structure Booked (args : PublishArgs) (s : Publisher) (r h k : ℕ) : Prop where
  trace : s.trace = (List.range r).map (args.message s.startedNs)
  answered : s.handed.length + s.errors = h
  offered : s.offered = k
  seq : s.seq = min (args.sequenceStart + k) u64Max

/-- The loop is not left yet. -/
structure Inside (s : Publisher) : Prop where
  dueOpen : s.dueClosed = false
  stopped : ∀ reason, s.exitReason = .stopped reason → s.signal = some reason
  notLost : s.exitReason ≠ .brokerLost

/-- The rows of a loop left after `k` messages: the `break` on a lost broker leaves one that is
not counted. -/
def rowsOf (exitReason : ExitReason) (k : ℕ) : ℕ := if exitReason = .brokerLost then k + 1 else k

/-- The loop is left after `k` messages. -/
structure Left (args : PublishArgs) (s : Publisher) (m k : ℕ) : Prop where
  dueClosed : s.dueClosed = true
  booked : s.Booked args (rowsOf s.exitReason k) k k
  taken : rowsOf s.exitReason k ≤ m
  complete : s.exitReason = .duration → s.duration ≤ args.offset k
  stopped : ∀ reason, s.exitReason = .stopped reason → s.signal = some reason
  lost : s.exitReason = .brokerLost → s.linkGone = true

/-- Where the publisher is that has taken `m` ticks. -/
def At (args : PublishArgs) (s : Publisher) (m : ℕ) : PublisherPc → Prop
  | .connecting _ | .returned (.error _) =>
    m = 0 ∧ s.pacer = .unborn ∧ s.Inside ∧ s.Booked args 0 0 0
  | .waiting => s.Inside ∧ s.Booked args m m m
  | .publishing tick message => ∃ k, m = k + 1 ∧ tick = args.tick k ∧
      message = args.message s.startedNs k ∧ s.Inside ∧ s.Booked args k k k
  | .enqueued tick message accepted => ∃ k, m = k + 1 ∧ tick = args.tick k ∧
      message = args.message s.startedNs k ∧ s.Inside ∧ s.Booked args k (k + accepted.toNat) k
  | .checking tick accepted => ∃ k, m = k + 1 ∧ tick = args.tick k ∧ s.Inside ∧
      s.Booked args (k + 1) (k + accepted.toNat) k
  | .flushing | .draining _ | .drained | .disconnecting _ => ∃ k, s.Left args m k
  | .returned (.ok report) => (∃ k, s.Left args m k) ∧
      ∃ now stats, report = { s with now := now }.report stats

/-- How far a run is in the schedule. -/
def Kept (args : PublishArgs) (s : Publisher) : Prop :=
  ∃ n m, s.Paced args n m ∧ s.At args m s.pc

/-- Message `i` was not handed over before its time. -/
def InTime (args : PublishArgs) (s : Publisher) (handed : Handed) (i : ℕ) : Prop :=
  handed.message = args.message s.startedNs i ∧ handed.offset = args.offset i ∧
    (args.offset i ≤ handed.elapsed ∨ instantEnd ≤ s.start + args.offset i)

/-- The recorded lag does not hide that the message was late. -/
def Late (handed : Handed) (lag : ℕ) : Prop := durationNs (handed.elapsed - handed.offset) ≤ lag

/-- Every message the client has accepted has its lag, but for the one that is not booked. -/
def LagsAt (s : Publisher) : PublisherPc → Prop
  | .enqueued tick _ true => ∃ before last, s.handed = before ++ [last] ∧
      List.Forall₂ Late before s.lags ∧ last.offset = tick.1 ∧ last.elapsed ≤ s.now - s.start
  | _ => List.Forall₂ Late s.handed s.lags

/-- The schedule is as long as asked for, unless the run was stopped before it began. -/
def WholeAt (args : PublishArgs) (s : Publisher) : PublisherPc → Prop
  | .connecting _ | .returned (.error _) => True
  | _ => s.pacer ≠ .unborn ∧ s.duration ≤ args.durationSecs * nanosPerSec ∧
      (s.exitReason = .duration → s.duration = args.durationSecs * nanosPerSec)

/-- The drain window has passed since every message. -/
def DrainedBy (args : PublishArgs) (s : Publisher) (instant : ℕ) : Prop :=
  ∀ i < s.trace.length,
    s.start + args.offset i + drainTimeout ≤ instant ∨ instantEnd ≤ s.start + args.offset i

/-- A schedule that ran to its end is drained. -/
def DrainedAt (args : PublishArgs) (s : Publisher) : PublisherPc → Prop
  | .draining deadline => s.DrainedBy args deadline
  | .drained => s.exitReason = .duration →
      s.enqueued ≤ s.link.acked ∨ s.linkGone = true ∨ s.DrainedBy args s.now
  | .disconnecting stats => s.exitReason = .duration →
      s.enqueued ≤ stats.acked ∨ s.linkGone = true ∨ s.DrainedBy args s.now
  | .returned (.ok report) => report.exitReason = .duration →
      report.unackedAtExit = 0 ∨ s.linkGone = true ∨ s.DrainedBy args s.now
  | _ => True

/-- What a run has handed to the client, and when. -/
structure Timely (args : PublishArgs) (s : Publisher) : Prop where
  handed : ∀ x ∈ s.handed, ∃ i, s.InTime args x i
  inOrder : (s.handed.map Handed.message).Sublist (s.trace ++ s.pc.unbooked)
  lags : s.LagsAt s.pc
  whole : s.WholeAt args s.pc
  drained : s.DrainedAt args s.pc

theorem init_kept (args : PublishArgs) (now : ℕ) : (init args now).Kept args := by
  refine ⟨0, 0, ⟨⟨rfl, rfl⟩, ?_, le_rfl, fun _ => rfl⟩, rfl, rfl, ⟨rfl, ?_, ?_⟩, rfl, rfl, rfl, ?_⟩
  · intro i hi
    exact absurd hi (Nat.not_lt_zero i)
  · rintro reason ⟨⟩
  · rintro ⟨⟩
  · exact (min_eq_left args.sequenceStart_le).symm

/-! ## Steps around the publish loop -/

theorem Booked.background (hb : s.Booked args r h k) (hs : s.Background s') :
    s'.Booked args r h k where
  trace := by rw [hs.trace, hs.startedNs, hb.trace]
  answered := by rw [hs.handed, hs.errors, hb.answered]
  offered := hs.offered.trans hb.offered
  seq := hs.seq.trans hb.seq

theorem Inside.background (hi : s.Inside) (hs : s.Background s') : s'.Inside where
  dueOpen := hs.dueClosed.trans hi.dueOpen
  stopped reason hr := hs.signal reason (hi.stopped reason (hs.exitReason.symm.trans hr))
  notLost := by rw [hs.exitReason]; exact hi.notLost

theorem Left.background (hl : s.Left args m k) (hs : s.Background s') : s'.Left args m k where
  dueClosed := hs.dueClosed.trans hl.dueClosed
  booked := by
    rw [hs.exitReason]
    exact hl.booked.background hs
  taken := by
    rw [hs.exitReason]
    exact hl.taken
  complete := by
    rw [hs.exitReason, hs.duration]
    exact hl.complete
  stopped reason hr := hs.signal reason (hl.stopped reason (hs.exitReason.symm.trans hr))
  lost hr := hs.linkGone (hl.lost (hs.exitReason.symm.trans hr))

theorem report_background (hs : s.Background s') (now : ℕ) (stats : LinkStats) :
    { s' with now := now }.report stats = { s with now := now }.report stats := by
  simp only [report, enqueued, hs.offered, hs.errors, hs.duration, hs.deadlineMisses, hs.start,
    hs.exitReason]

theorem At.background (ha : s.At args m s.pc) (hs : s.Background s') : s'.At args m s'.pc := by
  rw [hs.pc]
  revert ha
  generalize s.pc = pc
  intro ha
  have hstart : (m = 0 ∧ s.pacer = .unborn ∧ s.Inside ∧ s.Booked args 0 0 0) →
      m = 0 ∧ s'.pacer = .unborn ∧ s'.Inside ∧ s'.Booked args 0 0 0 :=
    fun ⟨hm, hp, hi, hb⟩ => ⟨hm, hs.unborn.mpr hp, hi.background hs, hb.background hs⟩
  have hleft : (∃ k, s.Left args m k) → ∃ k, s'.Left args m k :=
    fun ⟨k, hl⟩ => ⟨k, hl.background hs⟩
  cases pc with
  | connecting => exact hstart ha
  | waiting => exact ⟨ha.1.background hs, ha.2.background hs⟩
  | publishing =>
    obtain ⟨k, hm, ht, hmsg, hi, hb⟩ := ha
    exact ⟨k, hm, ht, hs.startedNs ▸ hmsg, hi.background hs, hb.background hs⟩
  | enqueued =>
    obtain ⟨k, hm, ht, hmsg, hi, hb⟩ := ha
    exact ⟨k, hm, ht, hs.startedNs ▸ hmsg, hi.background hs, hb.background hs⟩
  | checking =>
    obtain ⟨k, hm, ht, hi, hb⟩ := ha
    exact ⟨k, hm, ht, hi.background hs, hb.background hs⟩
  | flushing | draining | drained | disconnecting => exact hleft ha
  | returned result =>
    cases result with
    | error => exact hstart ha
    | ok report =>
      obtain ⟨hl, now, stats, hr⟩ := ha
      exact ⟨hleft hl, now, stats, hr.trans (report_background hs now stats).symm⟩

/-! ## The pacer -/

/-- The pacer and its channel are as they were; the clock may have gone on. -/
structure SamePace (s t : Publisher) : Prop where
  now : s.now ≤ t.now
  start : t.start = s.start
  duration : t.duration = s.duration
  scheduler : t.scheduler = s.scheduler
  pacer : t.pacer = s.pacer
  due : t.due = s.due
  dueClosed : t.dueClosed = s.dueClosed

theorem Due.later {offset : ℕ} (hd : s.Due offset) (hnow : s.now ≤ s'.now)
    (hstart : s'.start = s.start) : s'.Due offset := by
  unfold Due at hd ⊢
  omega

theorem PacerAt.later {pacer : PacerPc} (hp : s.PacerAt args n pacer) (hnow : s.now ≤ s'.now)
    (hstart : s'.start = s.start) (hduration : s'.duration = s.duration)
    (hscheduler : s'.scheduler = s.scheduler)
    (hclosed : s.dueClosed = true → s'.dueClosed = true) : s'.PacerAt args n pacer := by
  cases pacer with
  | unborn => exact ⟨hp.1, hscheduler.trans hp.2⟩
  | computing => exact hscheduler.trans hp
  | sleeping offset => exact ⟨hp.1, hduration ▸ hp.2.1, hscheduler.trans hp.2.2⟩
  | sending tick =>
    exact ⟨hp.1, hduration ▸ hp.2.1, hp.2.2.1.later hnow hstart, hscheduler.trans hp.2.2.2⟩
  | returned => exact hp.imp hclosed fun hd => hduration ▸ hd

theorem Paced.same (hp : s.Paced args n m) (hs : s.SamePace s') : s'.Paced args n m where
  pacer := by
    rw [hs.pacer]
    exact hp.pacer.later hs.now hs.start hs.duration hs.scheduler hs.dueClosed.trans
  sent i hi := ⟨hs.duration ▸ (hp.sent i hi).1, (hp.sent i hi).2.later hs.now hs.start⟩
  taken := hp.taken
  due := by
    rw [hs.dueClosed, hs.due]
    exact hp.due

/-- Dropping the receiver leaves what was sent. -/
theorem Paced.leave (hp : s.Paced args n m) (exitReason : ExitReason) :
    (s.leave exitReason).Paced args n m where
  pacer := hp.pacer.later le_rfl rfl rfl rfl fun _ => rfl
  sent i hi := ⟨(hp.sent i hi).1, (hp.sent i hi).2.later le_rfl rfl⟩
  taken := hp.taken
  due := by rintro ⟨⟩

/-- The next tick in the channel is tick `m`. -/
theorem Paced.head {tick : ℕ × ℕ} {due : List (ℕ × ℕ)} (hp : s.Paced args n m)
    (ho : s.dueClosed = false) (hd : s.due = tick :: due) :
    m < n ∧ tick = args.tick m ∧ due = (List.range' (m + 1) (n - (m + 1))).map args.tick := by
  have hdue := hd.symm.trans (hp.due ho)
  obtain ⟨d, hn⟩ : ∃ d, n = m + d := ⟨n - m, by have := hp.taken; omega⟩
  subst hn
  cases d with
  | zero => simp at hdue
  | succ d =>
    have hd : m + (d + 1) - m = d + 1 := by omega
    have hd' : m + (d + 1) - (m + 1) = d := by omega
    rw [hd, List.range'_succ, List.map_cons] at hdue
    obtain ⟨rfl, rfl⟩ := List.cons.inj hdue
    exact ⟨by omega, rfl, by rw [hd']⟩

theorem Paced.take {tick : ℕ × ℕ} {due : List (ℕ × ℕ)} (hp : s.Paced args n m)
    (ho : s.dueClosed = false) (hd : s.due = tick :: due) (pc : PublisherPc) :
    { s with due := due, pc := pc }.Paced args n (m + 1) where
  pacer := hp.pacer.later le_rfl rfl rfl rfl id
  sent := hp.sent
  taken := (hp.head ho hd).1
  due _ := (hp.head ho hd).2.2

/-- A closed channel has been emptied of the whole schedule. -/
theorem Paced.complete (hp : s.Paced args n m) (ho : s.dueClosed = false) (hd : s.due = [])
    (hr : s.pacer = .returned) : s.duration ≤ args.offset m := by
  have hnil := hd.symm.trans (hp.due ho)
  have hlen := congrArg List.length hnil
  simp only [List.length_nil, List.length_map, List.length_range'] at hlen
  have hnm : n = m := by
    have := hp.taken
    omega
  have hpacer := hp.pacer
  rw [hr] at hpacer
  rw [← hnm]
  exact hpacer.resolve_left (by simp [ho])

theorem Paced.stepPacer (hp : s.Paced args n m) (h : s.stepPacer = some s') :
    ∃ n, s'.Paced args n m := by
  have hpacer := hp.pacer
  unfold Publisher.stepPacer at h
  cases hpc : s.pacer with
  | unborn => simp [hpc] at h
  | returned => simp [hpc] at h
  | computing =>
    rw [hpc] at hpacer
    have hs : s.scheduler = (Scheduler.new args.shape).behind n := hpacer
    simp only [hpc, hs, Scheduler.step_behind] at h
    split_ifs at h with hend hwait
    · obtain rfl := Option.some.inj h
      exact ⟨n, .inr hend, hp.sent, hp.taken, hp.due⟩
    · obtain rfl := Option.some.inj h
      exact ⟨n, ⟨rfl, not_le.mp hend, rfl⟩, hp.sent, hp.taken, hp.due⟩
    · obtain rfl := Option.some.inj h
      refine ⟨n, ⟨rfl, not_le.mp hend, ?_, rfl⟩, hp.sent, hp.taken, hp.due⟩
      show s.start + args.offset n ≤ s.now ∨ instantEnd ≤ s.start + args.offset n
      unfold PublishArgs.offset
      omega
  | sleeping offset =>
    rw [hpc] at hpacer
    obtain ⟨rfl, hlt, hs⟩ := hpacer
    simp only [hpc] at h
    split_ifs at h with hnow
    obtain rfl := Option.some.inj h
    refine ⟨n, ⟨?_, hlt, .inl hnow, hs⟩, hp.sent, hp.taken, hp.due⟩
    rw [hs, Scheduler.peek_behind]
    rfl
  | sending tick =>
    rw [hpc] at hpacer
    obtain ⟨rfl, hlt, hdue, hs⟩ := hpacer
    simp only [hpc] at h
    split_ifs at h with hclosed hfull
    · obtain rfl := Option.some.inj h
      exact ⟨n, .inl hclosed, hp.sent, hp.taken, hp.due⟩
    · obtain rfl := Option.some.inj h
      refine ⟨n + 1, hs, ?_, hp.taken.trans (Nat.le_succ n), fun ho => ?_⟩
      · intro i hi
        obtain hi | rfl := Nat.lt_succ_iff_lt_or_eq.mp hi
        · exact hp.sent i hi
        · exact ⟨hlt, hdue⟩
      · have hle := hp.taken
        have hlen : n + 1 - m = n - m + 1 := by omega
        show s.due ++ [args.tick n] = _
        rw [hp.due ho, hlen, List.range'_1_concat, List.map_append]
        congr 3
        omega

theorem Paced.background {e : PublishEvent} (hp : s.Paced args n m)
    (h : step args s e = some s') (he : ∀ x, e ≠ .publisher x) : ∃ n, s'.Paced args n m := by
  have hs := step_background h he
  have hx := step_running h
  cases e with
  | pacer =>
    simp only [step, hx] at h
    exact hp.stepPacer h
  | publisher x => exact absurd rfl (he x)
  | advance ns =>
    simp only [step, hx] at h
    obtain rfl := Option.some.inj h
    exact ⟨n, hp.same ⟨hs.now, rfl, rfl, rfl, rfl, rfl, rfl⟩⟩
  | signal reason =>
    refine ⟨n, hp.same ⟨hs.now, hs.start, hs.duration, ?_, ?_, ?_, hs.dueClosed⟩⟩ <;>
    · simp only [step, hx] at h
      cases hsig : s.signal <;> simp only [hsig] at h <;> obtain rfl := Option.some.inj h <;> rfl
  | link e =>
    simp only [step, hx, Option.isSome_none, Bool.false_eq_true, if_false] at h
    split_ifs at h
    obtain rfl := Option.some.inj h
    exact ⟨n, hp.same (by cases e <;> exact ⟨le_rfl, rfl, rfl, rfl, rfl, rfl, rfl⟩)⟩

/-! ## The publish loop -/

/-- `connect`, when it goes on to the loop, starts the pacer. -/
theorem begin_kept {deadline startedNs durationSecs : ℕ} {exitReason : ExitReason}
    (hp : s.Paced args n m) (ha : s.At args m (.connecting deadline))
    (he : exitReason = .duration ∨
      ∃ reason, exitReason = .stopped reason ∧ s.signal = some reason) :
    (s.begin startedNs durationSecs exitReason).Kept args := by
  obtain ⟨rfl, hunborn, hi, hb⟩ := ha
  have hpacer := hp.pacer
  rw [hunborn] at hpacer
  obtain ⟨rfl, hs⟩ := hpacer
  refine ⟨0, 0, ⟨hs, ?_, le_rfl, hp.due⟩, ⟨hi.dueOpen, ?_, ?_⟩, ?_⟩
  · intro i hi
    exact absurd hi (Nat.not_lt_zero i)
  · intro reason hr
    obtain rfl | ⟨_, rfl, hsig⟩ := he
    · cases hr
    · cases hr
      exact hsig
  · obtain rfl | ⟨_, rfl, -⟩ := he <;> rintro ⟨⟩
  · exact ⟨hb.trace, hb.answered, hb.offered, hb.seq⟩

theorem connect_kept {deadline startedNs : ℕ} (hp : s.Paced args n m)
    (ha : s.At args m (.connecting deadline)) (h : s.connect args deadline startedNs = some s') :
    s'.Kept args := by
  have hfail : ∀ err, { s with pc := .returned (.error err) }.Kept args := by
    intro err
    obtain ⟨hm, hu, hi, hb⟩ := ha
    exact ⟨n, m, hp.same ⟨le_rfl, rfl, rfl, rfl, rfl, rfl, rfl⟩, hm, hu,
      ⟨hi.dueOpen, hi.stopped, hi.notLost⟩, hb.trace, hb.answered, hb.offered, hb.seq⟩
  unfold connect at h
  split at h
  · next reason hsig =>
    obtain rfl := Option.some.inj h
    exact begin_kept hp ha (.inr ⟨reason, rfl, hsig⟩)
  · split_ifs at h
    · split at h
      · obtain rfl := Option.some.inj h
        exact hfail _
      · obtain rfl := Option.some.inj h
        exact begin_kept hp ha (.inl rfl)
    · obtain rfl := Option.some.inj h
      exact hfail _
    · obtain rfl := Option.some.inj h
      exact hfail _

/-- The loop is left after `k` messages, for a reason that holds. -/
theorem leave_kept {exitReason : ExitReason} (hp : s.Paced args n m) (hk : k ≤ m)
    (hb : s.Booked args k k k) (hc : exitReason = .duration → s.duration ≤ args.offset k)
    (hs : ∀ reason, exitReason = .stopped reason → s.signal = some reason)
    (hl : exitReason ≠ .brokerLost) : (s.leave exitReason).Kept args := by
  have hrows : rowsOf exitReason k = k := if_neg hl
  refine ⟨n, m, hp.leave exitReason, k, rfl, ?_, hrows.trans_le hk, hc, hs, fun h => absurd h hl⟩
  show (s.leave exitReason).Booked args (rowsOf exitReason k) k k
  rw [hrows]
  exact ⟨hb.trace, hb.answered, hb.offered, hb.seq⟩

/-- The signal is seen at a `select!`. -/
theorem stopped_kept {reason : StopReason} (hp : s.Paced args n m) (hk : k ≤ m)
    (hb : s.Booked args k k k) (hs : s.signal = some reason) :
    (s.leave (.stopped reason)).Kept args := by
  refine leave_kept hp hk hb ?_ ?_ ?_
  · rintro ⟨⟩
  · rintro _ ⟨⟩
    exact hs
  · rintro ⟨⟩

theorem receive_kept (hp : s.Paced args n m) (ha : s.At args m .waiting)
    (h : s.receive = some s') : s'.Kept args := by
  obtain ⟨hi, hb⟩ := ha
  unfold receive at h
  split at h
  · next reason hsig =>
    obtain rfl := Option.some.inj h
    exact stopped_kept hp le_rfl hb hsig
  · split at h
    · next tick due hd =>
      obtain rfl := Option.some.inj h
      obtain ⟨-, rfl, -⟩ := hp.head hi.dueOpen hd
      refine ⟨n, m + 1, hp.take hi.dueOpen hd _, m, rfl, rfl, ?_,
        ⟨hi.dueOpen, hi.stopped, hi.notLost⟩, hb.trace, hb.answered, hb.offered, hb.seq⟩
      rw [hb.seq]
      rfl
    · next hd =>
      split_ifs at h with hr
      obtain rfl := Option.some.inj h
      exact leave_kept hp le_rfl hb (fun _ => hp.complete hi.dueOpen hd hr) hi.stopped hi.notLost

theorem answer_kept {tick : ℕ × ℕ} {message : Message} (hp : s.Paced args n m)
    (ha : s.At args m (.publishing tick message)) (accepted : Bool) :
    (s.answer tick message accepted).Kept args := by
  obtain ⟨k, rfl, rfl, rfl, hi, hb⟩ := ha
  unfold answer
  split
  · next reason hsig => exact stopped_kept hp (Nat.le_succ k) hb hsig
  · refine ⟨n, k + 1, hp.same ⟨le_rfl, rfl, rfl, rfl, rfl, rfl, rfl⟩, k, rfl, rfl, rfl,
      ⟨hi.dueOpen, hi.stopped, hi.notLost⟩, hb.trace, ?_, hb.offered, hb.seq⟩
    have hanswered := hb.answered
    cases accepted with
    | false => exact hanswered
    | true =>
      simp only [if_true, List.length_append, List.length_singleton, Bool.toNat_true]
      omega

theorem book_kept {tick : ℕ × ℕ} {message : Message} {accepted : Bool} (hp : s.Paced args n m)
    (ha : s.At args m (.enqueued tick message accepted)) :
    (s.book tick message accepted).Kept args := by
  obtain ⟨k, rfl, rfl, rfl, hi, hb⟩ := ha
  refine ⟨n, k + 1, hp.same ⟨le_rfl, rfl, rfl, rfl, rfl, rfl, rfl⟩, k, rfl, rfl,
    ⟨hi.dueOpen, hi.stopped, hi.notLost⟩, ?_, hb.answered, hb.offered, hb.seq⟩
  show s.trace ++ [args.message s.startedNs k] = _
  rw [hb.trace, List.range_succ, List.map_append, List.map_singleton]
  rfl

theorem check_kept {tick : ℕ × ℕ} {accepted lost : Bool} (hp : s.Paced args n m)
    (ha : s.At args m (.checking tick accepted)) (hg : lost → s.linkGone) :
    (s.check tick accepted lost).Kept args := by
  obtain ⟨k, rfl, rfl, hi, hb⟩ := ha
  unfold check
  by_cases hlost : accepted = false ∧ lost
  · rw [if_pos hlost]
    obtain ⟨rfl, hlost⟩ := hlost
    refine ⟨n, k + 1, hp.leave _, k, rfl, ⟨hb.trace, hb.answered, hb.offered, hb.seq⟩, le_rfl,
      ?_, ?_, fun _ => hg hlost⟩
    · rintro ⟨⟩
    · rintro _ ⟨⟩
  · rw [if_neg hlost]
    refine ⟨n, k + 1, hp.same ⟨le_rfl, rfl, rfl, rfl, rfl, rfl, rfl⟩,
      ⟨hi.dueOpen, hi.stopped, hi.notLost⟩, hb.trace, ?_, ?_, ?_⟩
    · have hanswered := hb.answered
      cases accepted with
      | false => exact congrArg (· + 1) hanswered
      | true => exact hanswered
    · exact congrArg (· + 1) hb.offered
    · show satAdd s.seq 1 = _
      rw [hb.seq]
      simp only [satAdd, u64Max]
      omega

/-- Behind the loop only the exit reason may still change, to a signal. -/
theorem Left.after (hl : s.Left args m k) (hc : s'.dueClosed = s.dueClosed)
    (ht : s'.trace = s.trace) (hh : s'.handed = s.handed)
    (he : s'.errors = s.errors) (ho : s'.offered = s.offered) (hq : s'.seq = s.seq)
    (hn : s'.startedNs = s.startedNs) (hd : s'.duration = s.duration) (hs : s'.signal = s.signal)
    (hg : s'.linkGone = s.linkGone)
    (hr : s'.exitReason = s.exitReason ∨ s.exitReason = .duration ∧
      ∃ reason, s'.exitReason = .stopped reason ∧ s.signal = some reason) : s'.Left args m k := by
  have hbooked : ∀ r, s.Booked args r k k → s'.Booked args r k k := fun r hb =>
    ⟨by rw [ht, hn, hb.trace], by rw [hh, he, hb.answered], ho.trans hb.offered, hq.trans hb.seq⟩
  obtain hr | ⟨hdur, reason, hr, hsig⟩ := hr
  · refine ⟨hc.trans hl.dueClosed, ?_, ?_, by rw [hr, hd]; exact hl.complete,
      by rw [hr, hs]; exact hl.stopped,
      by rw [hr, hg]; exact hl.lost⟩
    · rw [hr]
      exact hbooked _ hl.booked
    · rw [hr]
      exact hl.taken
  · -- neither reason leaves a row that is not counted
    have hrows : rowsOf s'.exitReason k = rowsOf s.exitReason k := by
      rw [hr, hdur]
      rfl
    refine ⟨hc.trans hl.dueClosed, ?_, hrows.trans_le hl.taken, ?_, ?_, ?_⟩
    · rw [hrows]
      exact hbooked _ hl.booked
    · rintro h
      cases hr.symm.trans h
    · rintro _ h
      cases hr.symm.trans h
      rw [hs, hsig]
    · rintro h
      cases hr.symm.trans h

theorem drain_kept {deadline : ℕ} (hp : s.Paced args n m) (ha : s.At args m (.draining deadline))
    (h : s.drain deadline = some s') : s'.Kept args := by
  obtain ⟨k, hl⟩ := ha
  unfold drain at h
  by_cases hdur : s.exitReason = .duration
  · rw [if_pos hdur] at h
    split at h
    · next reason hsig =>
      obtain rfl := Option.some.inj h
      exact ⟨n, m, hp.same ⟨le_rfl, rfl, rfl, rfl, rfl, rfl, rfl⟩, k,
        hl.after rfl rfl rfl rfl rfl rfl rfl rfl rfl rfl (.inr ⟨hdur, reason, rfl, hsig⟩)⟩
    · split_ifs at h
      obtain rfl := Option.some.inj h
      exact ⟨n, m, hp.same ⟨le_rfl, rfl, rfl, rfl, rfl, rfl, rfl⟩, k,
        hl.after rfl rfl rfl rfl rfl rfl rfl rfl rfl rfl (.inl rfl)⟩
  · rw [if_neg hdur] at h
    obtain rfl := Option.some.inj h
    exact ⟨n, m, hp.same ⟨le_rfl, rfl, rfl, rfl, rfl, rfl, rfl⟩, k,
      hl.after rfl rfl rfl rfl rfl rfl rfl rfl rfl rfl (.inl rfl)⟩

theorem stepPublisher_kept {e : PublisherEvent} (hp : s.Paced args n m) (ha : s.At args m s.pc)
    (h : s.stepPublisher args e = some s') : s'.Kept args := by
  have hsame : ∀ pc, s.SamePace { s with pc := pc } := fun _ =>
    ⟨le_rfl, rfl, rfl, rfl, rfl, rfl, rfl⟩
  unfold stepPublisher at h
  split at h
  · next hpc => exact connect_kept hp (hpc ▸ ha) h
  · next hpc => exact receive_kept hp (hpc ▸ ha) h
  · next hpc =>
    obtain rfl := Option.some.inj h
    exact answer_kept hp (hpc ▸ ha) _
  · next hpc =>
    obtain rfl := Option.some.inj h
    exact book_kept hp (hpc ▸ ha)
  · next hpc =>
    split_ifs at h with hg
    obtain rfl := Option.some.inj h
    exact check_kept hp (hpc ▸ ha) hg
  · next hpc =>
    obtain rfl := Option.some.inj h
    rw [hpc] at ha
    obtain ⟨k, hl⟩ := ha
    exact ⟨n, m, hp.same (hsame _), k, hl.after rfl rfl rfl rfl rfl rfl rfl rfl rfl rfl (.inl rfl)⟩
  · next hpc => exact drain_kept hp (hpc ▸ ha) h
  · next hpc =>
    obtain rfl := Option.some.inj h
    rw [hpc] at ha
    obtain ⟨k, hl⟩ := ha
    exact ⟨n, m, hp.same (hsame _), k, hl.after rfl rfl rfl rfl rfl rfl rfl rfl rfl rfl (.inl rfl)⟩
  · next hpc =>
    obtain rfl := Option.some.inj h
    rw [hpc] at ha
    obtain ⟨k, hl⟩ := ha
    exact ⟨n, m, hp.same (hsame _),
      ⟨k, hl.after rfl rfl rfl rfl rfl rfl rfl rfl rfl rfl (.inl rfl)⟩, s.now, _, rfl⟩
  · cases h

theorem Kept.step {e : PublishEvent} (hk : s.Kept args) (h : step args s e = some s') :
    s'.Kept args := by
  obtain ⟨n, m, hp, ha⟩ := hk
  by_cases he : ∃ x, e = .publisher x
  · obtain ⟨x, rfl⟩ := he
    have hx := step_running h
    simp only [Publisher.step, hx] at h
    exact stepPublisher_kept hp ha h
  · have he' : ∀ x, e ≠ .publisher x := fun x hx => he ⟨x, hx⟩
    obtain ⟨n, hp⟩ := hp.background h he'
    exact ⟨n, m, hp, ha.background (step_background h he')⟩

/-! ## What is handed to the client -/

theorem DrainedBy.background {a b : ℕ} (hd : s.DrainedBy args a) (hs : s.Background s')
    (hab : a ≤ b) : s'.DrainedBy args b := by
  intro i hi
  rw [hs.trace] at hi
  rw [hs.start]
  exact (hd i hi).imp_left hab.trans'

theorem Timely.background (ht : s.Timely args) (hs : s.Background s') : s'.Timely args where
  handed := by
    rw [hs.handed]
    unfold InTime
    rw [hs.startedNs, hs.start]
    exact ht.handed
  inOrder := by
    rw [hs.handed, hs.trace, hs.pc]
    exact ht.inOrder
  lags := by
    have hlags := ht.lags
    rw [hs.pc]
    revert hlags
    generalize s.pc = pc
    intro hlags
    cases pc with
    | enqueued tick message accepted =>
      cases accepted with
      | false => simpa only [LagsAt, hs.handed, hs.lags] using hlags
      | true =>
        obtain ⟨before, last, hh, hf, ho, he⟩ := hlags
        refine ⟨before, last, hs.handed.trans hh, hs.lags ▸ hf, ho, he.trans ?_⟩
        rw [hs.start]
        exact Nat.sub_le_sub_right hs.now _
    | _ => simpa only [LagsAt, hs.handed, hs.lags] using hlags
  whole := by
    have hwhole := ht.whole
    rw [hs.pc]
    unfold WholeAt at hwhole ⊢
    rwa [hs.exitReason, hs.duration, Ne, hs.unborn]
  drained := by
    have hdrained := ht.drained
    rw [hs.pc]
    revert hdrained
    generalize s.pc = pc
    intro hd
    cases pc with
    | draining deadline => exact DrainedBy.background hd hs le_rfl
    | drained =>
      intro hr
      refine (hd (hs.exitReason.symm.trans hr)).imp (fun ha => ?_) (Or.imp hs.linkGone fun hb =>
        hb.background hs hs.now)
      rw [enqueued, hs.offered, hs.errors]
      exact ha.trans hs.acked
    | disconnecting stats =>
      intro hr
      refine (hd (hs.exitReason.symm.trans hr)).imp (fun ha => ?_) (Or.imp hs.linkGone fun hb =>
        hb.background hs hs.now)
      rw [enqueued, hs.offered, hs.errors]
      exact ha
    | returned result =>
      cases result with
      | error => trivial
      | ok report =>
        intro hr
        exact (hd hr).imp_right (Or.imp hs.linkGone fun hb => hb.background hs hs.now)
    | _ => trivial

theorem lagsAt_iff {pc : PublisherPc} (h : pc.unbooked = []) :
    s.LagsAt pc ↔ List.Forall₂ Late s.handed s.lags := by
  cases pc with
  | enqueued => cases h
  | _ => exact Iff.rfl

/-- A step that neither hands over nor books a message. -/
theorem Timely.quiet (ht : s.Timely args) (hpc : s.pc.unbooked = []) (hpc' : s'.pc.unbooked = [])
    (hh : s'.handed = s.handed) (htr : s'.trace = s.trace) (hl : s'.lags = s.lags)
    (hs : s'.start = s.start) (hn : s'.startedNs = s.startedNs) (hw : s'.WholeAt args s'.pc)
    (hd : s'.DrainedAt args s'.pc) : s'.Timely args where
  handed := by
    rw [hh]
    unfold InTime
    rw [hn, hs]
    exact ht.handed
  inOrder := by
    have hinOrder := ht.inOrder
    rwa [hpc, ← hh, ← htr, ← hpc'] at hinOrder
  lags := by
    have hlags := (lagsAt_iff hpc).mp ht.lags
    rw [lagsAt_iff hpc', hh, hl]
    exact hlags
  whole := hw
  drained := hd

theorem begin_timely {deadline startedNs durationSecs : ℕ} {exitReason : ExitReason}
    (ha : s.At args m (.connecting deadline)) (hpc : s.pc = .connecting deadline)
    (ht : s.Timely args) (hd : durationSecs = args.durationSecs ∨ durationSecs = 0 ∧
      exitReason ≠ .duration) : (s.begin startedNs durationSecs exitReason).Timely args := by
  obtain ⟨-, -, -, hb⟩ := ha
  have hnil : s.handed = [] := by
    have hanswered := hb.answered
    exact List.eq_nil_of_length_eq_zero (by omega)
  refine ⟨?_, ?_, ?_, ?_, trivial⟩
  · intro x hx
    have hx : x ∈ s.handed := hx
    rw [hnil] at hx
    cases hx
  · have hinOrder := ht.inOrder
    rw [hpc] at hinOrder
    exact hinOrder
  · have hlags := ht.lags
    rw [hpc] at hlags
    exact hlags
  · obtain rfl | ⟨rfl, he⟩ := hd
    · exact ⟨by rintro ⟨⟩, le_rfl, fun _ => rfl⟩
    · exact ⟨by rintro ⟨⟩, (Nat.zero_mul _).trans_le (Nat.zero_le _), fun h => absurd h he⟩

theorem connect_timely {deadline startedNs : ℕ} (ha : s.At args m (.connecting deadline))
    (hpc : s.pc = .connecting deadline) (ht : s.Timely args)
    (h : s.connect args deadline startedNs = some s') : s'.Timely args := by
  have hquiet : s.pc.unbooked = [] := by rw [hpc]; rfl
  have hfail : ∀ err, { s with pc := .returned (.error err) }.Timely args := fun err =>
    ht.quiet hquiet rfl rfl rfl rfl rfl rfl trivial trivial
  unfold connect at h
  split at h
  · next reason hsig =>
    obtain rfl := Option.some.inj h
    refine begin_timely ha hpc ht (.inr ⟨rfl, ?_⟩)
    rintro ⟨⟩
  · split_ifs at h
    · split at h
      · obtain rfl := Option.some.inj h
        exact hfail _
      · obtain rfl := Option.some.inj h
        exact begin_timely ha hpc ht (.inl rfl)
    · obtain rfl := Option.some.inj h
      exact hfail _
    · obtain rfl := Option.some.inj h
      exact hfail _

/-- The loop is left, with a new reason only where the schedule is cut short. -/
theorem leave_timely {exitReason : ExitReason} (ht : s.Timely args) (hpc : s.pc.unbooked = [])
    (hw : s.WholeAt args .waiting) (he : exitReason = .duration → s.exitReason = .duration) :
    (s.leave exitReason).Timely args :=
  ht.quiet hpc rfl rfl rfl rfl rfl rfl ⟨hw.1, hw.2.1, fun h => hw.2.2 (he h)⟩ trivial

theorem receive_timely (hpc : s.pc = .waiting) (ht : s.Timely args) (h : s.receive = some s') :
    s'.Timely args := by
  have hquiet : s.pc.unbooked = [] := by rw [hpc]; rfl
  have hwhole := ht.whole
  rw [hpc] at hwhole
  unfold receive at h
  split at h
  · obtain rfl := Option.some.inj h
    refine leave_timely ht hquiet hwhole ?_
    rintro ⟨⟩
  · split at h
    · obtain rfl := Option.some.inj h
      exact ht.quiet hquiet rfl rfl rfl rfl rfl rfl hwhole trivial
    · split_ifs at h
      obtain rfl := Option.some.inj h
      exact leave_timely ht hquiet hwhole id

theorem answer_timely {tick : ℕ × ℕ} {message : Message} (hp : s.Paced args n m)
    (ha : s.At args m (.publishing tick message)) (hpc : s.pc = .publishing tick message)
    (ht : s.Timely args) (accepted : Bool) : (s.answer tick message accepted).Timely args := by
  have hquiet : s.pc.unbooked = [] := by rw [hpc]; rfl
  have hlags := (lagsAt_iff hquiet).mp ht.lags
  have hinOrder := ht.inOrder
  rw [hquiet, List.append_nil] at hinOrder
  have hwhole := ht.whole
  rw [hpc] at hwhole
  obtain ⟨k, rfl, rfl, rfl, hi, hb⟩ := ha
  have hdue := (hp.sent k (Nat.lt_of_succ_le hp.taken)).2
  unfold answer
  split
  · refine leave_timely ht hquiet hwhole ?_
    rintro ⟨⟩
  · cases accepted with
    | false =>
      exact ⟨ht.handed, hinOrder.trans (List.sublist_append_left _ _), hlags, hwhole, trivial⟩
    | true =>
      refine ⟨?_, ?_, ⟨s.handed, _, rfl, hlags, rfl, le_rfl⟩, hwhole, trivial⟩
      · intro x hx
        obtain hx | hx := List.mem_append.mp hx
        · exact ht.handed x hx
        · obtain rfl := List.mem_singleton.mp hx
          refine ⟨k, rfl, rfl, ?_⟩
          unfold Due at hdue
          show args.offset k ≤ s.now - s.start ∨ instantEnd ≤ s.start + args.offset k
          omega
      · show ((s.handed ++ [_]).map Handed.message).Sublist (s.trace ++ [_])
        rw [List.map_append]
        exact hinOrder.append (List.Sublist.refl _)

theorem book_timely {tick : ℕ × ℕ} {message : Message} {accepted : Bool}
    (hpc : s.pc = .enqueued tick message accepted) (ht : s.Timely args) :
    (s.book tick message accepted).Timely args := by
  have hinOrder := ht.inOrder
  rw [hpc] at hinOrder
  have hlags := ht.lags
  rw [hpc] at hlags
  have hwhole := ht.whole
  rw [hpc] at hwhole
  refine ⟨ht.handed, ?_, ?_, hwhole, trivial⟩
  · show (s.handed.map Handed.message).Sublist (s.trace ++ [message] ++ [])
    rwa [List.append_nil]
  · cases accepted with
    | false => exact hlags
    | true =>
      obtain ⟨before, last, hh, hf, ho, he⟩ := hlags
      show List.Forall₂ Late s.handed (s.lags ++ [_])
      rw [hh]
      refine List.rel_append hf (.cons ?_ .nil)
      unfold Late durationNs
      omega

theorem check_timely {tick : ℕ × ℕ} {accepted lost : Bool} (hpc : s.pc = .checking tick accepted)
    (ht : s.Timely args) : (s.check tick accepted lost).Timely args := by
  have hquiet : s.pc.unbooked = [] := by rw [hpc]; rfl
  have hwhole := ht.whole
  rw [hpc] at hwhole
  unfold check
  by_cases hlost : accepted = false ∧ lost
  · rw [if_pos hlost]
    refine leave_timely ht hquiet hwhole ?_
    rintro ⟨⟩
  · rw [if_neg hlost]
    exact ht.quiet hquiet rfl rfl rfl rfl rfl rfl hwhole trivial

/-- Every row is due when the loop is left. -/
theorem flush_timely (hp : s.Paced args n m) (ha : s.At args m .flushing) (hpc : s.pc = .flushing)
    (ht : s.Timely args) : { s with pc := .draining (s.now + drainTimeout) }.Timely args := by
  have hquiet : s.pc.unbooked = [] := by rw [hpc]; rfl
  have hwhole := ht.whole
  rw [hpc] at hwhole
  obtain ⟨k, hl⟩ := ha
  have hrows : s.trace.length ≤ n := by
    rw [hl.booked.trace, List.length_map, List.length_range]
    exact hl.taken.trans hp.taken
  refine ht.quiet hquiet rfl rfl rfl rfl rfl rfl hwhole fun i hi => ?_
  exact (hp.sent i (hi.trans_le hrows)).2.imp_left fun hdue => Nat.add_le_add_right hdue _

theorem drain_timely {deadline : ℕ} (hpc : s.pc = .draining deadline) (ht : s.Timely args)
    (h : s.drain deadline = some s') : s'.Timely args := by
  have hquiet : s.pc.unbooked = [] := by rw [hpc]; rfl
  have hwhole := ht.whole
  rw [hpc] at hwhole
  have hdrained := ht.drained
  rw [hpc] at hdrained
  unfold drain at h
  by_cases hdur : s.exitReason = .duration
  · rw [if_pos hdur] at h
    split at h
    · obtain rfl := Option.some.inj h
      refine ht.quiet hquiet rfl rfl rfl rfl rfl rfl ⟨hwhole.1, hwhole.2.1, ?_⟩ ?_ <;> rintro ⟨⟩
    · split_ifs at h with hover
      obtain rfl := Option.some.inj h
      refine ht.quiet hquiet rfl rfl rfl rfl rfl rfl hwhole fun _ => ?_
      exact hover.imp_right (Or.imp_right fun hnow i hi => (hdrained i hi).imp_left hnow.trans')
  · rw [if_neg hdur] at h
    obtain rfl := Option.some.inj h
    exact ht.quiet hquiet rfl rfl rfl rfl rfl rfl hwhole fun hr => absurd hr hdur

theorem stepPublisher_timely {e : PublisherEvent} (hp : s.Paced args n m)
    (ha : s.At args m s.pc) (ht : s.Timely args) (h : s.stepPublisher args e = some s') :
    s'.Timely args := by
  unfold stepPublisher at h
  split at h
  · next hpc => exact connect_timely (hpc ▸ ha) hpc ht h
  · next hpc => exact receive_timely hpc ht h
  · next hpc =>
    obtain rfl := Option.some.inj h
    exact answer_timely hp (hpc ▸ ha) hpc ht _
  · next hpc =>
    obtain rfl := Option.some.inj h
    exact book_timely hpc ht
  · next hpc =>
    split_ifs at h
    obtain rfl := Option.some.inj h
    exact check_timely hpc ht
  · next hpc =>
    obtain rfl := Option.some.inj h
    exact flush_timely hp (hpc ▸ ha) hpc ht
  · next hpc => exact drain_timely hpc ht h
  · next hpc =>
    obtain rfl := Option.some.inj h
    have hwhole := ht.whole
    have hdrained := ht.drained
    rw [hpc] at hwhole hdrained
    exact ht.quiet (by rw [hpc]; rfl) rfl rfl rfl rfl rfl rfl hwhole hdrained
  · next hpc =>
    obtain rfl := Option.some.inj h
    have hwhole := ht.whole
    have hdrained := ht.drained
    rw [hpc] at hwhole hdrained
    refine ht.quiet (by rw [hpc]; rfl) rfl rfl rfl rfl rfl rfl hwhole fun hr => ?_
    exact (hdrained hr).imp_left Nat.sub_eq_zero_of_le
  · cases h

theorem init_timely (args : PublishArgs) (now : ℕ) : (init args now).Timely args where
  handed := List.forall_mem_nil _
  inOrder := .slnil
  lags := .nil
  whole := trivial
  drained := trivial

theorem Timely.step {e : PublishEvent} (hk : s.Kept args) (ht : s.Timely args)
    (h : Publisher.step args s e = some s') : s'.Timely args := by
  by_cases he : ∃ x, e = .publisher x
  · obtain ⟨x, rfl⟩ := he
    obtain ⟨n, m, hp, ha⟩ := hk
    have hx := step_running h
    simp only [Publisher.step, hx] at h
    exact stepPublisher_timely hp ha ht h
  · exact ht.background (step_background h fun x hx => he ⟨x, hx⟩)

theorem kept {now : ℕ} {events : List PublishEvent} (h : run args now events = some s) :
    s.Kept args ∧ s.Timely args :=
  Lib.exec_invariant (P := fun s => s.Kept args ∧ s.Timely args)
    (fun _ _ _ hk hs => ⟨hk.1.step hs, hk.2.step hk.1 hs⟩) h
    ⟨init_kept args now, init_timely args now⟩

/-! ## What a report says -/

/-- The report is of the first `k` messages of the schedule. -/
structure Offers (args : PublishArgs) (s : Publisher) (report : PublisherReport) (k : ℕ) :
    Prop where
  published : report.published = k ∧ report.intended = k
  enqueued : report.enqueued = s.handed.length ∧ report.enqueued + report.errors = k ∧
    report.rejected = report.errors
  trace : s.trace = (List.range (rowsOf report.exitReason k)).map (args.message s.startedNs)
  scheduled : ∀ i < s.trace.length, args.offset i < args.durationSecs * nanosPerSec
  /-- the last offset of the schedule in front of the end, if the schedule ran to its end -/
  last : ∀ message ∈ s.trace.getLast?, ∃ i, message = args.message s.startedNs i ∧
    i + 1 = rowsOf report.exitReason k ∧ args.offset i < args.durationSecs * nanosPerSec ∧
    (report.exitReason = .duration → args.durationSecs * nanosPerSec ≤ args.offset (i + 1))
  complete : report.exitReason = .duration → args.durationSecs * nanosPerSec ≤ args.offset k
  drained : report.exitReason = .duration →
    report.unackedAtExit = 0 ∨ s.linkGone = true ∨ s.DrainedBy args s.now
  stopped : ∀ reason, report.exitReason = .stopped reason → s.signal = some reason
  lost : report.exitReason = .brokerLost → s.linkGone = true

theorem offers {report : PublisherReport} (hk : s.Kept args) (ht : s.Timely args)
    (hr : s.pc = .returned (.ok report)) : ∃ k, s.Offers args report k := by
  obtain ⟨n, m, hp, ha⟩ := hk
  have hwhole := ht.whole
  have hdrained := ht.drained
  rw [hr] at ha hwhole hdrained
  obtain ⟨⟨k, hl⟩, now, stats, rfl⟩ := ha
  have hoffered := hl.booked.offered
  have hrows : s.trace.length = rowsOf s.exitReason k := by
    rw [hl.booked.trace, List.length_map, List.length_range]
  have henqueued : s.enqueued = s.handed.length := by
    have hanswered := hl.booked.answered
    rw [Publisher.enqueued]
    omega
  have hscheduled : ∀ i < s.trace.length, args.offset i < args.durationSecs * nanosPerSec := by
    intro i hi
    have hsent : i < n := hi.trans_le (hrows.trans_le (hl.taken.trans hp.taken))
    exact (hp.sent i hsent).1.trans_le hwhole.2.1
  have hcomplete : s.exitReason = .duration →
      args.durationSecs * nanosPerSec ≤ args.offset k := by
    intro he
    rw [← hwhole.2.2 he]
    exact hl.complete he
  refine ⟨k, ⟨hoffered, hoffered⟩, ⟨henqueued, ?_, rfl⟩, hl.booked.trace, hscheduled, ?_,
    hcomplete, hdrained, hl.stopped, hl.lost⟩
  · show s.enqueued + s.errors = k
    rw [henqueued]
    exact hl.booked.answered
  · intro message hlast
    obtain ⟨i, hi⟩ : ∃ i, rowsOf s.exitReason k = i + 1 := by
      refine Nat.exists_eq_succ_of_ne_zero fun hzero => ?_
      rw [hl.booked.trace, hzero] at hlast
      cases hlast
    rw [hl.booked.trace, hi, List.range_succ, List.map_append, List.map_singleton,
      List.getLast?_concat, Option.mem_some_iff] at hlast
    refine ⟨i, hlast.symm, hi.symm, hscheduled i (by omega), fun he => ?_⟩
    have hcounted : rowsOf s.exitReason k = k := if_neg fun hlost => by cases he.symm.trans hlost
    rw [← hi, hcounted]
    exact hcomplete he

/-- In every interleaving a report counts, and the trace has row by row, the messages of the
schedule from the first on: all of them when the schedule has run to its end, and on a lost broker
one row more than the counts. -/
theorem offers_schedule {now : ℕ} {events : List PublishEvent} {report : PublisherReport}
    (h : run args now events = some s) (hr : s.pc = .returned (.ok report)) :
    ∃ k, s.Offers args report k := by
  obtain ⟨hk, ht⟩ := kept h
  exact offers hk ht hr

/-- Two messages a second, for a second. -/
def twoMessages : PublishArgs where
  shape := .steady 2
  durationSecs := 1
  sequenceStart := 5
  sequenceStart_le := Nat.le_of_ble_eq_true rfl

/-- The client accepts the first message and refuses the second. -/
def refusedRun : List PublishEvent :=
  [.link .connAck, .publisher (.connect 1000), .pacer, .pacer, .pacer, .publisher .receive,
    .publisher (.answer true), .publisher .book, .publisher (.check false), .pacer,
    .advance 500000000, .pacer, .pacer, .publisher .receive, .publisher (.answer false),
    .publisher .book, .publisher (.check false), .pacer, .publisher .receive, .publisher .flush,
    .link .pubAck, .publisher .drain, .publisher .borrow, .publisher .finish]

theorem refusedRun_ends : ∃ s report, run twoMessages 0 refusedRun = some s ∧
    s.pc = .returned (.ok report) ∧ report.exitReason = .duration ∧ s.handed.length = 1 :=
  ⟨_, _, rfl, rfl, rfl, rfl⟩

theorem offers_schedule_refused : ∃ s report k, run twoMessages 0 refusedRun = some s ∧
    s.Offers twoMessages report k := by
  obtain ⟨s, report, h, hr, -⟩ := refusedRun_ends
  obtain ⟨k, ho⟩ := offers_schedule h hr
  exact ⟨s, report, k, h, ho⟩

/-- A schedule of one rate that has run to its end has offered as many messages as the rate says,
however late the publisher was. -/
theorem completed_steady {now rate : ℕ} {events : List PublishEvent} {report : PublisherReport}
    (h : run args now events = some s) (hr : s.pc = .returned (.ok report))
    (he : report.exitReason = .duration) (hrate : args.shape.constantRate = some rate) :
    report.published = max rate 1 * args.durationSecs ∧
      report.enqueued + report.errors = max rate 1 * args.durationSecs ∧
      s.trace = (List.range (max rate 1 * args.durationSecs)).map (args.message s.startedNs) := by
  obtain ⟨hk, ht⟩ := kept h
  obtain ⟨k, ho⟩ := offers hk ht hr
  have hrows : rowsOf report.exitReason k = k := if_neg fun hlost => by cases he.symm.trans hlost
  have htrace := ho.trace
  rw [hrows] at htrace
  have hoffset : ∀ i, args.offset i = Scheduler.constantOffset rate (min i u64Max) :=
    Scheduler.offset_constant hrate
  have hend := ho.complete he
  rw [hoffset] at hend
  -- offsets saturate, so an end that was reached is a 64-bit number
  have hlimit : args.durationSecs * nanosPerSec ≤ u64Max := hend.trans (min_le_right _ _)
  have hlt : ∀ i, args.offset i < args.durationSecs * nanosPerSec ↔
      min i u64Max < max rate 1 * args.durationSecs := fun i => by
    rw [hoffset, Scheduler.constantOffset_lt_iff (min_le_right _ _) hlimit]
  have hle : max rate 1 * args.durationSecs ≤ min k u64Max :=
    not_lt.mp fun hshort => not_lt.mpr (ho.complete he) ((hlt k).mpr hshort)
  have hpopulation : k = max rate 1 * args.durationSecs := by
    refine le_antisymm (not_lt.mp fun hlong => ?_) (hle.trans (min_le_left _ _))
    have hi := ho.scheduled (max rate 1 * args.durationSecs)
      (by rw [htrace, List.length_map, List.length_range]; exact hlong)
    rw [hlt, min_eq_left (hle.trans (min_le_right _ _))] at hi
    exact lt_irrefl _ hi
  subst hpopulation
  exact ⟨ho.published.1, ho.enqueued.2.1, htrace⟩

theorem completed_steady_refused : ∃ s report, run twoMessages 0 refusedRun = some s ∧
    s.pc = .returned (.ok report) ∧ report.published = 2 ∧ report.enqueued + report.errors = 2 ∧
      s.trace = (List.range 2).map (twoMessages.message s.startedNs) := by
  obtain ⟨s, report, h, hr, he, -⟩ := refusedRun_ends
  exact ⟨s, report, h, hr, completed_steady h hr he rfl⟩

/-- The rows, with the one still to be written, are the schedule from its first message on. -/
theorem Kept.rows (hk : s.Kept args) : ∃ r,
    s.trace ++ s.pc.unbooked = (List.range r).map (args.message s.startedNs) := by
  obtain ⟨n, m, -, ha⟩ := hk
  have hquiet : ∀ {r h k}, s.Booked args r h k →
      ∃ r, s.trace ++ [] = (List.range r).map (args.message s.startedNs) :=
    fun hb => ⟨_, (List.append_nil _).trans hb.trace⟩
  revert ha
  generalize s.pc = pc
  intro ha
  cases pc with
  | connecting => exact hquiet ha.2.2.2
  | waiting => exact hquiet ha.2
  | publishing =>
    obtain ⟨k, -, -, -, -, hb⟩ := ha
    exact hquiet hb
  | enqueued tick message accepted =>
    obtain ⟨k, -, -, rfl, -, hb⟩ := ha
    refine ⟨k + 1, ?_⟩
    rw [PublisherPc.unbooked, hb.trace, List.range_succ, List.map_append, List.map_singleton]
  | checking =>
    obtain ⟨k, -, -, -, hb⟩ := ha
    exact hquiet hb
  | flushing | draining | drained | disconnecting =>
    obtain ⟨k, hl⟩ := ha
    exact hquiet hl.booked
  | returned result =>
    cases result with
    | error => exact hquiet ha.2.2.2
    | ok =>
      obtain ⟨⟨k, hl⟩, -⟩ := ha
      exact hquiet hl.booked

/-- In every reachable state the rows are the schedule from its first message on, the accepted
messages are in order some of them, none was handed over before it was due, and no recorded lag is
smaller than how late its message was. -/
theorem never_early {now : ℕ} {events : List PublishEvent} (h : run args now events = some s) :
    (∃ r, s.trace ++ s.pc.unbooked = (List.range r).map (args.message s.startedNs)) ∧
      (s.handed.map Handed.message).Sublist (s.trace ++ s.pc.unbooked) ∧
      (∀ x ∈ s.handed, ∃ i, s.InTime args x i) ∧ s.LagsAt s.pc :=
  have hk := kept h
  ⟨hk.1.rows, hk.2.inOrder, hk.2.handed, hk.2.lags⟩

theorem never_early_refused : ∃ s, run twoMessages 0 refusedRun = some s ∧ s.handed.length = 1 ∧
    (∃ r, s.trace ++ s.pc.unbooked = (List.range r).map (twoMessages.message s.startedNs)) ∧
    ∀ x ∈ s.handed, ∃ i, s.InTime twoMessages x i := by
  obtain ⟨s, -, h, -, -, hlen⟩ := refusedRun_ends
  have hearly := never_early h
  exact ⟨s, h, hlen, hearly.1, hearly.2.2.1⟩

end Publisher

end Wafer
