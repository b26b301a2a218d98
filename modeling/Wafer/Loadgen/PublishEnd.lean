import Wafer.Loadgen.PublishSchedule

/-!
# The end of a publisher

The pacer and the publish loop use up a finite schedule: their steps make a
measure smaller that no other step makes larger. Neither waits for the other for
good, so a run can be brought to its end by them and the clock.

## Main definitions

- `Publisher.work` — what the pacer and the publish loop still have to do

## Main results

- `Publisher.finishes` — the steps of a run are bounded, and it can end
-/

namespace Wafer

/-- A step of the pacer or of the publish loop. -/
def PublishEvent.own : PublishEvent → Bool
  | pacer | publisher _ => true
  | _ => false

/-- Time goes by, or one of the two takes a step. -/
def PublishEvent.expected : PublishEvent → Bool
  | advance _ => true
  | e => e.own

/-- Ticks taken out of the channel that do not count as offered. -/
def PublisherPc.taken : PublisherPc → ℕ
  | .publishing .. | .enqueued .. | .checking .. => 1
  | _ => 0

namespace Publisher

variable {args : PublishArgs} {s s' : Publisher} {n m k limit : ℕ}

/-- The ticks that have been sent into an open channel. -/
def sent (s : Publisher) : ℕ := s.offered + s.pc.taken + s.due.length

/-- Ticks of a schedule of `limit` that are still to be sent. -/
def unsent (limit : ℕ) (s : Publisher) : ℕ := if s.dueClosed then 0 else limit - s.sent

/-- Steps left to the pacer. -/
def pacerWork (limit : ℕ) (s : Publisher) : ℕ :=
  match s.pacer with
  | .unborn => 3 * limit + 4
  | .computing => 3 * s.unsent limit + 3
  | .sleeping _ => 3 * s.unsent limit + 2
  | .sending _ => 3 * s.unsent limit + 1
  | .returned => 0

/-- Steps left to the publish loop. -/
def loopWork (limit : ℕ) (s : Publisher) : ℕ :=
  match s.pc with
  | .connecting _ => 4 * limit + 7
  | .waiting => 4 * (limit - s.offered) + 6
  | .publishing .. => 4 * (limit - (s.offered + 1)) + 9
  | .enqueued .. => 4 * (limit - (s.offered + 1)) + 8
  | .checking .. => 4 * (limit - (s.offered + 1)) + 7
  | .flushing => 4
  | .draining _ => 3
  | .drained => 2
  | .disconnecting _ => 1
  | .returned _ => 0

def work (limit : ℕ) (s : Publisher) : ℕ := s.pacerWork limit + s.loopWork limit

/-- In an open channel the pacer is where the channel says. -/
theorem sent_eq (hp : s.Paced args n m) (ha : s.At args m s.pc) (ho : s.dueClosed = false) :
    s.sent = n := by
  have hlen : s.due.length = n - m := by
    rw [hp.due ho, List.length_map, List.length_range']
  have hm : s.offered + s.pc.taken = m := by
    revert ha
    cases hpc : s.pc with
    | connecting =>
      rintro ⟨rfl, -, -, hb⟩
      exact hb.offered
    | waiting => exact fun ha => ha.2.offered
    | publishing =>
      rintro ⟨k, rfl, -, -, -, hb⟩
      exact congrArg (· + 1) hb.offered
    | enqueued =>
      rintro ⟨k, rfl, -, -, -, hb⟩
      exact congrArg (· + 1) hb.offered
    | checking =>
      rintro ⟨k, rfl, -, -, hb⟩
      exact congrArg (· + 1) hb.offered
    | flushing | draining | drained | disconnecting =>
      rintro ⟨k, hl⟩
      cases ho.symm.trans hl.dueClosed
    | returned result =>
      cases result with
      | error =>
        rintro ⟨rfl, -, -, hb⟩
        exact hb.offered
      | ok =>
        rintro ⟨⟨k, hl⟩, -⟩
        cases ho.symm.trans hl.dueClosed
  have hle := hp.taken
  rw [sent, hm, hlen]
  omega

/-- Before the end of the schedule, the next tick is one of the `limit`. -/
theorem lt_limit {i : ℕ} (hlimit : args.durationSecs * nanosPerSec ≤ args.offset limit)
    (hp : s.Paced args n m) (hd : s.duration ≤ args.durationSecs * nanosPerSec) (hi : i ≤ n)
    (h : args.offset i < s.duration) : i < limit := by
  refine lt_of_le_of_ne ?_ ?_
  · by_contra hlt
    have hs := (hp.sent limit ((not_le.mp hlt).trans_le hi)).1
    omega
  · rintro rfl
    omega

theorem duration_le (ha : s.At args m s.pc) (ht : s.Timely args) (hu : s.pacer ≠ .unborn) :
    s.duration ≤ args.durationSecs * nanosPerSec := by
  have hwhole := ht.whole
  revert ha hwhole
  cases s.pc with
  | connecting => exact fun ha _ => absurd ha.2.1 hu
  | returned result =>
    cases result with
    | error => exact fun ha _ => absurd ha.2.1 hu
    | ok => exact fun _ hw => hw.2.1
  | _ => exact fun _ hw => hw.2.1

theorem sent_le (hlimit : args.durationSecs * nanosPerSec ≤ args.offset limit)
    (hp : s.Paced args n m) (hd : s.duration ≤ args.durationSecs * nanosPerSec) : n ≤ limit := by
  cases n with
  | zero => exact Nat.zero_le _
  | succ n => exact lt_limit hlimit hp hd (Nat.le_succ n) (hp.sent n (Nat.lt_succ_self n)).1

theorem stepPacer_work (hlimit : args.durationSecs * nanosPerSec ≤ args.offset limit)
    (hp : s.Paced args n m) (ha : s.At args m s.pc) (ht : s.Timely args)
    (h : s.stepPacer = some s') : s'.work limit < s.work limit := by
  have hd := duration_le ha ht (stepPacer_frame h).1
  have hpacer := hp.pacer
  unfold stepPacer at h
  cases hpc : s.pacer with
  | unborn => simp [hpc] at h
  | returned => simp [hpc] at h
  | computing =>
    simp only [hpc] at h
    have hwork : s.work limit = 3 * s.unsent limit + 3 + s.loopWork limit := by
      rw [work, pacerWork, hpc]
    rw [hwork]
    split_ifs at h
    · obtain rfl := Option.some.inj h
      exact Nat.add_lt_add_right (Nat.succ_pos _) _
    · obtain rfl := Option.some.inj h
      exact Nat.add_lt_add_right (Nat.lt_succ_self (3 * s.unsent limit + 2)) _
    · obtain rfl := Option.some.inj h
      exact Nat.add_lt_add_right (Nat.lt_add_of_pos_right (n := 3 * s.unsent limit + 1)
        (Nat.succ_pos 1)) _
  | sleeping offset =>
    simp only [hpc] at h
    have hwork : s.work limit = 3 * s.unsent limit + 2 + s.loopWork limit := by
      rw [work, pacerWork, hpc]
    rw [hwork]
    split_ifs at h
    obtain rfl := Option.some.inj h
    exact Nat.add_lt_add_right (Nat.lt_succ_self (3 * s.unsent limit + 1)) _
  | sending tick =>
    rw [hpc] at hpacer
    simp only [hpc] at h
    have hwork : s.work limit = 3 * s.unsent limit + 1 + s.loopWork limit := by
      rw [work, pacerWork, hpc]
    rw [hwork]
    by_cases hc : s.dueClosed = true
    · rw [if_pos hc] at h
      obtain rfl := Option.some.inj h
      exact Nat.add_lt_add_right (Nat.succ_pos _) _
    · rw [if_neg hc] at h
      split_ifs at h
      obtain rfl := Option.some.inj h
      have hopen : s.dueClosed = false := Bool.eq_false_iff.mpr hc
      have hn : s.sent = n := sent_eq hp ha hopen
      have hlt : n < limit := lt_limit hlimit hp hd le_rfl hpacer.2.1
      have hunsent : s.unsent limit = limit - n := by
        rw [unsent, if_neg hc, hn]
      have hsent : s.offered + s.pc.taken + (s.due ++ [tick]).length = n + 1 := by
        rw [List.length_append, ← hn]
        rfl
      refine Nat.add_lt_add_right ?_ _
      show 3 * (if s.dueClosed then 0 else limit - (s.offered + s.pc.taken +
        (s.due ++ [tick]).length)) + 3 < 3 * s.unsent limit + 1
      rw [if_neg hc, hsent, hunsent]
      omega

/-- The pacer has less to do when nobody listens. -/
theorem leave_work {exitReason : ExitReason} (hl : 4 < s.loopWork limit) :
    (s.leave exitReason).work limit < s.work limit := by
  have hunsent : (s.leave exitReason).unsent limit = 0 := if_pos rfl
  have hpacer : (s.leave exitReason).pacer = s.pacer := rfl
  refine Nat.add_lt_add_of_le_of_lt ?_ hl
  unfold pacerWork
  rw [hunsent, hpacer]
  split <;> omega

/-- A step of the publish loop that leaves the channel alone. -/
theorem loop_work (hp : s'.pacer = s.pacer) (hc : s'.dueClosed = s.dueClosed)
    (hs : s'.sent = s.sent) (hl : s'.loopWork limit < s.loopWork limit) :
    s'.work limit < s.work limit := by
  have hpacer : s'.pacerWork limit = s.pacerWork limit := by
    simp only [pacerWork, unsent, hp, hc, hs]
  rw [work, work, hpacer]
  exact Nat.add_lt_add_left hl _

theorem sent_same (ho : s'.offered = s.offered) (hd : s'.due = s.due)
    (hp : s'.pc.taken = s.pc.taken) : s'.sent = s.sent := by
  rw [sent, sent, ho, hd, hp]

theorem begin_work {deadline startedNs durationSecs : ℕ} {exitReason : ExitReason}
    (hpc : s.pc = .connecting deadline) (ha : s.At args m (.connecting deadline)) :
    (s.begin startedNs durationSecs exitReason).work limit < s.work limit := by
  have hwork : s.work limit = 3 * limit + 4 + (4 * limit + 7) := by
    rw [work, pacerWork, loopWork, hpc, ha.2.1]
  have hunsent : (s.begin startedNs durationSecs exitReason).unsent limit ≤ limit := by
    unfold unsent
    split <;> omega
  rw [hwork]
  show 3 * (s.begin startedNs durationSecs exitReason).unsent limit + 3 +
    (4 * (limit - s.offered) + 6) < _
  omega

theorem connect_work {deadline startedNs : ℕ} (hpc : s.pc = .connecting deadline)
    (ha : s.At args m (.connecting deadline)) (h : s.connect args deadline startedNs = some s') :
    s'.work limit < s.work limit := by
  have hloop : s.loopWork limit = 4 * limit + 7 := by rw [loopWork, hpc]
  have hfail : ∀ err, { s with pc := .returned (.error err) }.work limit < s.work limit := by
    intro err
    refine loop_work rfl rfl (sent_same rfl rfl (by rw [hpc]; rfl)) ?_
    rw [hloop]
    exact Nat.succ_pos _
  unfold connect at h
  split at h
  · obtain rfl := Option.some.inj h
    exact begin_work hpc ha
  · split_ifs at h
    · split at h
      · obtain rfl := Option.some.inj h
        exact hfail _
      · obtain rfl := Option.some.inj h
        exact begin_work hpc ha
    · obtain rfl := Option.some.inj h
      exact hfail _
    · obtain rfl := Option.some.inj h
      exact hfail _

theorem receive_work (hlimit : args.durationSecs * nanosPerSec ≤ args.offset limit)
    (hp : s.Paced args n m) (hpc : s.pc = .waiting) (ha : s.At args m .waiting)
    (hd : s.duration ≤ args.durationSecs * nanosPerSec) (h : s.receive = some s') :
    s'.work limit < s.work limit := by
  have hloop : s.loopWork limit = 4 * (limit - s.offered) + 6 := by rw [loopWork, hpc]
  have hleave : ∀ exitReason, (s.leave exitReason).work limit < s.work limit := by
    intro exitReason
    refine leave_work ?_
    omega
  unfold receive at h
  split at h
  · obtain rfl := Option.some.inj h
    exact hleave _
  · split at h
    · next tick due hdue =>
      have hlt := (hp.head ha.1.dueOpen hdue).1
      have hle := sent_le hlimit hp hd
      have hm := ha.2.offered
      obtain rfl := Option.some.inj h
      refine loop_work rfl rfl ?_ ?_
      · show s.offered + 1 + due.length = s.offered + s.pc.taken + s.due.length
        rw [hpc, hdue, List.length_cons]
        exact Nat.add_right_comm _ 1 _
      · rw [hloop]
        show 4 * (limit - (s.offered + 1)) + 9 < _
        omega
    · split_ifs at h
      obtain rfl := Option.some.inj h
      exact hleave _

theorem answer_work {tick : ℕ × ℕ} {message : Message} (hpc : s.pc = .publishing tick message)
    (accepted : Bool) : (s.answer tick message accepted).work limit < s.work limit := by
  have hloop : s.loopWork limit = 4 * (limit - (s.offered + 1)) + 9 := by rw [loopWork, hpc]
  unfold answer
  split
  · refine leave_work ?_
    omega
  · refine loop_work rfl rfl (sent_same rfl rfl (by rw [hpc]; rfl)) ?_
    rw [hloop]
    exact Nat.lt_succ_self _

theorem check_work {tick : ℕ × ℕ} {accepted lost : Bool} (hpc : s.pc = .checking tick accepted) :
    (s.check tick accepted lost).work limit < s.work limit := by
  have hloop : s.loopWork limit = 4 * (limit - (s.offered + 1)) + 7 := by rw [loopWork, hpc]
  unfold check
  by_cases hlost : accepted = false ∧ lost
  · rw [if_pos hlost]
    refine leave_work ?_
    omega
  · rw [if_neg hlost]
    refine loop_work rfl rfl ?_ ?_
    · show s.offered + 1 + 0 + s.due.length = s.offered + s.pc.taken + s.due.length
      rw [hpc]
      rfl
    · rw [hloop]
      exact Nat.lt_succ_self _

theorem drain_work {deadline : ℕ} (hpc : s.pc = .draining deadline)
    (h : s.drain deadline = some s') : s'.work limit < s.work limit := by
  have hloop : s.loopWork limit = 3 := by rw [loopWork, hpc]
  have hdrained : ∀ exitReason,
      { s with exitReason := exitReason, pc := .drained }.work limit < s.work limit := by
    intro exitReason
    refine loop_work rfl rfl (sent_same rfl rfl (by rw [hpc]; rfl)) ?_
    rw [hloop]
    exact Nat.lt_succ_self 2
  unfold drain at h
  by_cases hdur : s.exitReason = .duration
  · rw [if_pos hdur] at h
    split at h
    · obtain rfl := Option.some.inj h
      exact hdrained _
    · split_ifs at h
      obtain rfl := Option.some.inj h
      exact hdrained s.exitReason
  · rw [if_neg hdur] at h
    obtain rfl := Option.some.inj h
    exact hdrained s.exitReason

theorem stepPublisher_work {e : PublisherEvent}
    (hlimit : args.durationSecs * nanosPerSec ≤ args.offset limit) (hp : s.Paced args n m)
    (ha : s.At args m s.pc) (ht : s.Timely args) (h : s.stepPublisher args e = some s') :
    s'.work limit < s.work limit := by
  have hmove : ∀ pc, pc.taken = s.pc.taken → { s with pc := pc }.loopWork limit < s.loopWork limit →
      { s with pc := pc }.work limit < s.work limit := fun pc hpc hl =>
    loop_work rfl rfl (sent_same rfl rfl hpc) hl
  unfold stepPublisher at h
  split at h
  · next hpc => exact connect_work hpc (hpc ▸ ha) h
  · next hpc =>
    have hwhole := ht.whole
    rw [hpc] at hwhole ha
    exact receive_work hlimit hp hpc ha hwhole.2.1 h
  · next hpc =>
    obtain rfl := Option.some.inj h
    exact answer_work hpc _
  · next hpc =>
    obtain rfl := Option.some.inj h
    refine loop_work rfl rfl (sent_same rfl rfl (by rw [hpc]; rfl)) ?_
    rw [loopWork, loopWork, hpc]
    exact Nat.lt_succ_self _
  · next hpc =>
    split_ifs at h
    obtain rfl := Option.some.inj h
    exact check_work hpc
  · next hpc =>
    obtain rfl := Option.some.inj h
    refine hmove _ (by rw [hpc]; rfl) ?_
    rw [loopWork, loopWork, hpc]
    exact Nat.lt_succ_self 3
  · next hpc => exact drain_work hpc h
  · next hpc =>
    obtain rfl := Option.some.inj h
    refine hmove _ (by rw [hpc]; rfl) ?_
    rw [loopWork, loopWork, hpc]
    exact Nat.lt_succ_self 1
  · next hpc =>
    obtain rfl := Option.some.inj h
    refine hmove _ (by rw [hpc]; rfl) ?_
    rw [loopWork, loopWork, hpc]
    exact Nat.lt_succ_self 0
  · cases h

/-- The clock, the signals and the event loop leave the two their work. -/
theorem other_work {e : PublishEvent} (h : step args s e = some s') (he : e.own = false) :
    s'.work limit = s.work limit := by
  have hx := step_running h
  cases e with
  | pacer => cases he
  | publisher e => cases he
  | advance ns =>
    simp only [step, hx] at h
    obtain rfl := Option.some.inj h
    rfl
  | signal reason =>
    simp only [step, hx] at h
    split at h
    · cases h
    · split at h <;> obtain rfl := Option.some.inj h <;> rfl
  | link e =>
    simp only [step, hx, Option.isSome_none, Bool.false_eq_true, if_false] at h
    split_ifs at h
    obtain rfl := Option.some.inj h
    cases e <;> rfl

theorem own_work {e : PublishEvent} (hlimit : args.durationSecs * nanosPerSec ≤ args.offset limit)
    (hk : s.Kept args) (ht : s.Timely args) (h : step args s e = some s') (he : e.own = true) :
    s'.work limit < s.work limit := by
  have hx := step_running h
  obtain ⟨n, m, hp, ha⟩ := hk
  cases e with
  | pacer =>
    simp only [step, hx] at h
    exact stepPacer_work hlimit hp ha ht h
  | publisher e =>
    simp only [step, hx] at h
    exact stepPublisher_work hlimit hp ha ht h
  | advance => cases he
  | signal => cases he
  | link => cases he

/-! ## Nobody waits for good -/

/-- The state when time has gone by. -/
def later (s : Publisher) (ns : ℕ) : Publisher := { s with now := s.now + ns }

/-- When the channel is empty, the pacer can go on or has returned. -/
theorem pacer_goes_on (ho : s.dueClosed = false) (hd : s.due = [])
    (hu : s.pacer ≠ .unborn) (hr : s.pacer ≠ .returned) :
    ∃ ns, ((s.later ns).stepPacer).isSome = true := by
  cases hpc : s.pacer with
  | unborn => exact absurd hpc hu
  | returned => exact absurd hpc hr
  | computing =>
    refine ⟨0, ?_⟩
    have hlater : (s.later 0).pacer = .computing := hpc
    simp only [stepPacer, hlater]
    split_ifs <;> rfl
  | sleeping offset =>
    refine ⟨s.start + offset, ?_⟩
    have hlater : (s.later (s.start + offset)).pacer = .sleeping offset := hpc
    have hnow : (s.later (s.start + offset)).start + offset ≤ (s.later (s.start + offset)).now :=
      Nat.le_add_left _ _
    simp only [stepPacer, hlater]
    rw [if_pos hnow]
    rfl
  | sending tick =>
    refine ⟨0, ?_⟩
    have hlater : (s.later 0).pacer = .sending tick := hpc
    have hroom : (s.later 0).due.length < pacerAhead := by
      show s.due.length < pacerAhead
      rw [hd]
      exact Nat.le_of_ble_eq_true rfl
    have hopen : ¬ (s.later 0).dueClosed = true := by
      show ¬ s.dueClosed = true
      simp [ho]
    simp only [stepPacer, hlater]
    rw [if_neg hopen, if_pos hroom]
    rfl

theorem connect_goes_on (s : Publisher) (deadline : ℕ) :
    ((s.later deadline).connect args deadline 0).isSome = true := by
  have hnow : deadline ≤ (s.later deadline).now := Nat.le_add_left _ _
  unfold connect
  split
  · rfl
  · split_ifs
    · split <;> rfl
    · rfl
    · rfl

theorem drain_goes_on (s : Publisher) (deadline : ℕ) :
    ((s.later deadline).drain deadline).isSome = true := by
  have hnow : deadline ≤ (s.later deadline).now := Nat.le_add_left _ _
  unfold drain
  by_cases hdur : (s.later deadline).exitReason = .duration
  · rw [if_pos hdur]
    split
    · rfl
    · rw [if_pos (.inr (.inr hnow))]
      rfl
  · rw [if_neg hdur]
    rfl

theorem goes_on (hk : s.Kept args) (ht : s.Timely args) (hx : s.exited = none)
    (hr : ¬ ∃ result, s.pc = .returned result) :
    ∃ ns e, e.own = true ∧ (step args (s.later ns) e).isSome = true := by
  obtain ⟨n, m, hp, ha⟩ := hk
  have hwhole := ht.whole
  have hpublisher : ∀ ns e, ((s.later ns).stepPublisher args e).isSome = true →
      ∃ ns e, e.own = true ∧ (step args (s.later ns) e).isSome = true := by
    intro ns e h
    have hx' : (s.later ns).exited = none := hx
    exact ⟨ns, .publisher e, rfl, by simp only [step, hx']; exact h⟩
  cases hpc : s.pc with
  | connecting deadline =>
    refine hpublisher deadline (.connect 0) ?_
    have hpc' : (s.later deadline).pc = .connecting deadline := hpc
    simpa only [stepPublisher, hpc'] using connect_goes_on s deadline
  | waiting =>
    rw [hpc] at ha hwhole
    have hpc' : (s.later 0).pc = .waiting := hpc
    cases hsig : s.signal with
    | some reason =>
      refine hpublisher 0 .receive ?_
      have hsig' : (s.later 0).signal = some reason := hsig
      simp only [stepPublisher, hpc', receive, hsig']
      rfl
    | none =>
      have hsig' : (s.later 0).signal = none := hsig
      cases hd : s.due with
      | cons tick due =>
        refine hpublisher 0 .receive ?_
        have hd' : (s.later 0).due = tick :: due := hd
        simp only [stepPublisher, hpc', receive, hsig', hd']
        rfl
      | nil =>
        by_cases hret : s.pacer = .returned
        · refine hpublisher 0 .receive ?_
          have hd' : (s.later 0).due = [] := hd
          have hret' : (s.later 0).pacer = .returned := hret
          simp only [stepPublisher, hpc', receive, hsig', hd', hret', if_true]
          rfl
        · obtain ⟨ns, h⟩ := pacer_goes_on ha.1.dueOpen hd hwhole.1 hret
          have hx' : (s.later ns).exited = none := hx
          exact ⟨ns, .pacer, rfl, by simp only [step, hx']; exact h⟩
  | publishing tick message =>
    refine hpublisher 0 (.answer true) ?_
    have hpc' : (s.later 0).pc = .publishing tick message := hpc
    simp only [stepPublisher, hpc']
    rfl
  | enqueued tick message accepted =>
    refine hpublisher 0 .book ?_
    have hpc' : (s.later 0).pc = .enqueued tick message accepted := hpc
    simp only [stepPublisher, hpc']
    rfl
  | checking tick accepted =>
    refine hpublisher 0 (.check false) ?_
    have hpc' : (s.later 0).pc = .checking tick accepted := hpc
    simp only [stepPublisher, hpc', Bool.false_eq_true, false_imp_iff, if_true]
    rfl
  | flushing =>
    refine hpublisher 0 .flush ?_
    have hpc' : (s.later 0).pc = .flushing := hpc
    simp only [stepPublisher, hpc']
    rfl
  | draining deadline =>
    refine hpublisher deadline .drain ?_
    have hpc' : (s.later deadline).pc = .draining deadline := hpc
    simpa only [stepPublisher, hpc'] using drain_goes_on s deadline
  | drained =>
    refine hpublisher 0 .borrow ?_
    have hpc' : (s.later 0).pc = .drained := hpc
    simp only [stepPublisher, hpc']
    rfl
  | disconnecting stats =>
    refine hpublisher 0 .finish ?_
    have hpc' : (s.later 0).pc = .disconnecting stats := hpc
    simp only [stepPublisher, hpc']
    rfl
  | returned result => exact absurd ⟨result, hpc⟩ hr

theorem stepPublisher_exited {e : PublisherEvent} (h : s.stepPublisher args e = some s') :
    s'.exited = s.exited := by
  unfold stepPublisher at h
  split at h
  · unfold connect at h
    split at h
    · obtain rfl := Option.some.inj h
      rfl
    · split_ifs at h
      · split at h <;> obtain rfl := Option.some.inj h <;> rfl
      · obtain rfl := Option.some.inj h
        rfl
      · obtain rfl := Option.some.inj h
        rfl
  · unfold receive at h
    split at h
    · obtain rfl := Option.some.inj h
      rfl
    · split at h
      · obtain rfl := Option.some.inj h
        rfl
      · split_ifs at h
        obtain rfl := Option.some.inj h
        rfl
  · obtain rfl := Option.some.inj h
    unfold answer
    split <;> rfl
  · obtain rfl := Option.some.inj h
    rfl
  · split_ifs at h
    obtain rfl := Option.some.inj h
    unfold check
    split_ifs <;> rfl
  · obtain rfl := Option.some.inj h
    rfl
  · unfold drain at h
    split at h
    · split at h
      · obtain rfl := Option.some.inj h
        rfl
      · split_ifs at h
        obtain rfl := Option.some.inj h
        rfl
    · obtain rfl := Option.some.inj h
      rfl
  · obtain rfl := Option.some.inj h
    rfl
  · obtain rfl := Option.some.inj h
    rfl
  · cases h

/-- Only a second signal ends the process. -/
theorem exited_of_own {e : PublishEvent} (h : step args s e = some s') (he : e.own = true) :
    s'.exited = none := by
  have hx := step_running h
  cases e with
  | advance => cases he
  | signal => cases he
  | link => cases he
  | pacer =>
    simp only [step, hx] at h
    obtain ⟨-, -, _, _, _, rfl⟩ := stepPacer_frame h
    exact hx
  | publisher e =>
    simp only [step, hx] at h
    exact (stepPublisher_exited h).trans hx

/-- On a finite schedule the pacer and the publish loop take a bounded number of steps. Until a
second signal ends the process, they and the clock can bring every run to its end, if the client
answers. -/
theorem finishes {now limit : ℕ} {events : List PublishEvent}
    (hlimit : args.durationSecs * nanosPerSec ≤ args.offset limit)
    (h : run args now events = some s) : events.countP PublishEvent.own ≤ 7 * limit + 11 ∧
      (s.exited = none → ∃ more t, (∀ e ∈ more, PublishEvent.expected e = true) ∧
        run args now (events ++ more) = some t ∧ ∃ result, t.pc = .returned result) := by
  have hkept : ∀ u e v, u.Kept args ∧ u.Timely args → step args u e = some v →
      v.Kept args ∧ v.Timely args := fun _ _ _ hk hs => ⟨hk.1.step hs, hk.2.step hk.1 hs⟩
  constructor
  · have hcount : events.countP PublishEvent.own + s.work limit ≤ (init args now).work limit :=
      Lib.exec_countP_le hkept (fun _ _ _ hk hs he => own_work hlimit hk.1 hk.2 hs he)
        (fun _ _ _ _ hs he => (other_work hs he).le) h ⟨init_kept args now, init_timely args now⟩
    have hstart : (init args now).work limit = 3 * limit + 4 + (4 * limit + 7) := rfl
    omega
  · intro hx
    have hreach : ∃ more t, Lib.exec (step args) s more = some t ∧
        (∀ e ∈ more, PublishEvent.expected e = true) ∧ ∃ result, t.pc = .returned result := by
      refine Lib.exec_reaches (P := fun u => (u.Kept args ∧ u.Timely args) ∧ u.exited = none)
        (μ := work limit) ?_ ⟨kept h, hx⟩
      rintro u ⟨hu, hux⟩ hend
      obtain ⟨ns, e, he, hstep⟩ := goes_on hu.1 hu.2 hux hend
      obtain ⟨v, hv⟩ := Option.isSome_iff_exists.mp hstep
      have hns : step args u (.advance ns) = some (u.later ns) := by
        unfold step
        rw [if_neg (by simp [hux])]
        rfl
      have hlater := hkept _ _ _ hu hns
      refine ⟨[.advance ns, e], v, ?_, ?_, ⟨hkept _ _ _ hlater hv, exited_of_own hv he⟩, ?_⟩
      · simp only [Lib.exec_cons, hns, Option.bind_some, hv, Lib.exec_nil]
      · refine List.forall_mem_cons.mpr ⟨rfl, List.forall_mem_cons.mpr ⟨?_, List.forall_mem_nil _⟩⟩
        cases e <;> first | exact he | rfl
      · exact (own_work hlimit hlater.1 hlater.2 hv he).trans_eq (other_work hns rfl)
    obtain ⟨more, t, hmore, hc, hend⟩ := hreach
    refine ⟨more, t, hc, ?_, hend⟩
    rw [run, Lib.exec_append]
    unfold run at h
    rw [h]
    exact hmore

theorem finishes_refused : ∃ s, run twoMessages 0 (refusedRun.take 10) = some s ∧
    ∃ more t, run twoMessages 0 (refusedRun.take 10 ++ more) = some t ∧
      ∃ result, t.pc = .returned result := by
  have hr : ∃ s, run twoMessages 0 (refusedRun.take 10) = some s ∧ s.exited = none := ⟨_, rfl, rfl⟩
  obtain ⟨s, h, hx⟩ := hr
  have hlimit : twoMessages.durationSecs * nanosPerSec ≤ twoMessages.offset 2 := by decide
  obtain ⟨more, t, -, hrun, hend⟩ := (finishes hlimit h).2 hx
  exact ⟨s, h, more, t, hrun, hend⟩

end Publisher

end Wafer
