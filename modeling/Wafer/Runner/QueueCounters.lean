import Mathlib.Algebra.BigOperators.Group.Finset.Basic
import Mathlib.Data.Fintype.BigOperators
import Wafer.Lib.Execution
import Wafer.Runner.Downstream

/-!
# Queue counters between the atomic steps

`Queue.Channel` moves a message and bumps its counter in one transition. Here
the two are separate steps: any number of senders run `send_one` against one
receiver that runs `TrackedReceiver::recv`, and everybody may be interrupted
between the channel operation and the `fetch_add`. A `Slow` sender counts
before its message is visible; a `Drop` or `DeadLetter` sender counts after it.

## Main definitions

- `SendPc` — where one sender is inside `send_one`
- `SharedQueue.step` — one atomic step of a sender or of the receiver
- `SharedQueue.Covered` — a removal is counted only when the count of its insertion is covered
-/

namespace Wafer

inductive SendPc
  | idle
  /-- `Slow`: holds a permit, not counted yet -/
  | reserved (envelope : RuntimeEnvelope)
  /-- `Slow`: counted, `permit.send` comes next -/
  | counted (envelope : RuntimeEnvelope)
  /-- `Drop`, `DeadLetter`: `try_send` succeeded, not counted yet -/
  | inserted
  /-- the message did not get in, not counted yet -/
  | refused (r : QueueMetrics.Refusal)
  deriving DecidableEq, Repr

namespace SendPc

/-- Permits the sender keeps from the others. -/
def permits : SendPc → Nat
  | reserved _ | counted _ => 1
  | _ => 0

/-- Messages in the channel that the sender has not counted. -/
def uncounted : SendPc → Nat
  | inserted => 1
  | _ => 0

/-- Messages the sender has counted that are not in the channel. -/
def promised : SendPc → Nat
  | counted _ => 1
  | _ => 0

end SendPc

/-- One queue with its senders, its receiver and its counters. -/
structure SharedQueue (ι : Type) where
  capacity : Nat
  buffer : List RuntimeEnvelope := []
  /-- the receiver has not been dropped -/
  receiving : Bool := true
  metrics : QueueMetrics := {}
  senders : ι → SendPc := fun _ => .idle
  /-- the envelope the receiver has removed and not counted yet -/
  removed : Option RuntimeEnvelope := none

inductive QueueStep (ι : Type)
  /-- `reserve` or `try_send` of a sender, with the answer of the dead-letter channel -/
  | begin_ (i : ι) (envelope : RuntimeEnvelope) (dlq : DlqAttempt)
  /-- the counter bump of a sender -/
  | count (i : ι)
  /-- `permit.send` -/
  | deliver (i : ι)
  | remove
  /-- the counter bump of the receiver -/
  | countRemoved
  | dropReceiver

/-- Moving one entry of a table changes a sum over the table by the two weights. -/
theorem sum_update {ι β : Type*} [Fintype ι] [DecidableEq ι] (w : β → Nat) (f : ι → β) (i : ι)
    (b : β) : ∑ j, w (Function.update f i b j) + w (f i) = ∑ j, w (f j) + w b := by
  have hw : ∀ j, w (Function.update f i b j) = Function.update (w ∘ f) i (w b) j := by
    intro j
    by_cases hj : j = i
    · subst hj; simp
    · simp [hj]
  simp only [hw]
  rw [Finset.sum_update_of_mem (Finset.mem_univ i), ← Finset.add_sum_erase _ (fun j => w (f j))
    (Finset.mem_univ i), Finset.erase_eq]
  simp only [Function.comp_apply]
  omega

namespace SharedQueue

variable {ι : Type} [DecidableEq ι]

def moveSender (q : SharedQueue ι) (i : ι) (pc : SendPc) : SharedQueue ι :=
  { q with senders := Function.update q.senders i pc }

@[simp] theorem metrics_moveSender (q : SharedQueue ι) (i : ι) (pc : SendPc) :
    (q.moveSender i pc).metrics = q.metrics := rfl

@[simp] theorem buffer_moveSender (q : SharedQueue ι) (i : ι) (pc : SendPc) :
    (q.moveSender i pc).buffer = q.buffer := rfl

@[simp] theorem removed_moveSender (q : SharedQueue ι) (i : ι) (pc : SendPc) :
    (q.moveSender i pc).removed = q.removed := rfl

@[simp] theorem receiving_moveSender (q : SharedQueue ι) (i : ι) (pc : SendPc) :
    (q.moveSender i pc).receiving = q.receiving := rfl

variable [Fintype ι]

def uncounted (q : SharedQueue ι) : Nat := ∑ i, (q.senders i).uncounted
def promised (q : SharedQueue ι) : Nat := ∑ i, (q.senders i).promised

/-- The queue as a sender sees it: permits that are taken are no room. -/
def channel (q : SharedQueue ι) : InputQueue where
  buffer := q.buffer
  capacity := q.capacity - ∑ i, (q.senders i).permits
  metrics := q.metrics

def step (sender : ι → DownstreamSender) (q : SharedQueue ι) :
    QueueStep ι → Option (SharedQueue ι)
  | .begin_ i envelope dlq =>
    match q.senders i with
    | .idle =>
      match sendOne (sender i) q.receiving q.channel envelope dlq with
      | .enqueued =>
        if (sender i).overflow = .slow then some (q.moveSender i (.reserved envelope))
        else some ({ q with buffer := q.buffer ++ [envelope] }.moveSender i .inserted)
      | .refused r => some (q.moveSender i (.refused r))
      | .deadLettered _ => some (q.moveSender i (.refused .deadLettered))
      -- `reserve().await` is still pending
      | .waits => none
    | _ => none
  | .count i =>
    match q.senders i with
    | .reserved envelope =>
      some ({ q with metrics := q.metrics.recordEnqueued }.moveSender i (.counted envelope))
    | .inserted => some ({ q with metrics := q.metrics.recordEnqueued }.moveSender i .idle)
    | .refused r => some ({ q with metrics := q.metrics.recordRefusal r }.moveSender i .idle)
    | _ => none
  | .deliver i =>
    match q.senders i with
    | .counted envelope =>
      -- a permit outlives the receiver; what is sent then is freed with the channel
      some ({ q with buffer := if q.receiving then q.buffer ++ [envelope] else q.buffer }.moveSender
        i .idle)
    | _ => none
  | .remove =>
    match q.receiving, q.removed, q.buffer with
    | true, none, envelope :: rest => some { q with buffer := rest, removed := some envelope }
    | _, _, _ => none
  | .countRemoved =>
    match q.removed with
    | some _ => some { q with metrics := q.metrics.recordDequeued, removed := none }
    | none => none
  | .dropReceiver =>
    match q.removed with
    | none => some { q with receiving := false, buffer := [] }
    | some _ => none

/-- No step is in progress. -/
def AtRest (q : SharedQueue ι) : Prop := (∀ i, q.senders i = .idle) ∧ q.removed = none

/-- A removal is counted only while no more insertions wait for their count than the channel and
the `Slow` senders past their count make up for. -/
def Covered (q : SharedQueue ι) (e : QueueStep ι) : Prop :=
  e = .countRemoved → q.uncounted ≤ q.buffer.length + q.promised

/-- The counters, the channel and the steps in progress make one account. -/
structure Accounted (q : SharedQueue ι) : Prop where
  balance : q.receiving = true → q.metrics.enqueued + q.uncounted =
    q.metrics.dequeued + q.buffer.length + q.removed.toList.length + q.promised
  live : q.removed ≠ none → q.receiving = true

section Specs

variable {sender : ι → DownstreamSender} {q q' : SharedQueue ι} {e : QueueStep ι}

theorem uncounted_moveSender (q : SharedQueue ι) (i : ι) (pc : SendPc) :
    (q.moveSender i pc).uncounted + (q.senders i).uncounted = q.uncounted + pc.uncounted :=
  sum_update SendPc.uncounted q.senders i pc

theorem promised_moveSender (q : SharedQueue ι) (i : ι) (pc : SendPc) :
    (q.moveSender i pc).promised + (q.senders i).promised = q.promised + pc.promised :=
  sum_update SendPc.promised q.senders i pc

/-- What a sender does to the account when it moves from `before` to `after`. -/
theorem Accounted.moveSender (h : q.Accounted) {i : ι} {pc : SendPc} {metrics : QueueMetrics}
    {buffer : List RuntimeEnvelope}
    (hd : metrics.dequeued = q.metrics.dequeued)
    (hb : q.receiving = true → metrics.enqueued + pc.uncounted + (q.senders i).promised +
        q.buffer.length =
      q.metrics.enqueued + (q.senders i).uncounted + pc.promised + buffer.length) :
    ({ q with metrics, buffer }.moveSender i pc).Accounted := by
  have hu := uncounted_moveSender { q with metrics, buffer } i pc
  have hp := promised_moveSender { q with metrics, buffer } i pc
  refine ⟨fun hr => ?_, h.live⟩
  have hbal := h.balance hr
  have hadd := hb hr
  simp only [metrics_moveSender, buffer_moveSender, removed_moveSender] at *
  have hu' : uncounted { q with metrics, buffer } = q.uncounted := rfl
  have hp' : promised { q with metrics, buffer } = q.promised := rfl
  omega

theorem Accounted.step (h : q.Accounted) (hs : q.step sender e = some q') : q'.Accounted := by
  cases e with
  | begin_ i envelope dlq =>
    simp only [SharedQueue.step] at hs
    split at hs
    case h_2 => cases hs
    case h_1 hi =>
      split at hs
      case h_1 =>
        split at hs
        -- a permit is not in the account, a message put in by `try_send` is on both sides
        · obtain rfl := Option.some.inj hs
          exact h.moveSender rfl fun _ => by simp [hi, SendPc.uncounted, SendPc.promised]
        · obtain rfl := Option.some.inj hs
          exact h.moveSender rfl fun _ => by simp [hi, SendPc.uncounted, SendPc.promised]; omega
      case h_2 =>
        obtain rfl := Option.some.inj hs
        exact h.moveSender rfl fun _ => by simp [hi, SendPc.uncounted, SendPc.promised]
      case h_3 =>
        obtain rfl := Option.some.inj hs
        exact h.moveSender rfl fun _ => by simp [hi, SendPc.uncounted, SendPc.promised]
      case h_4 => cases hs
  | count i =>
    simp only [SharedQueue.step] at hs
    split at hs
    case h_1 hi =>
      obtain rfl := Option.some.inj hs
      exact h.moveSender rfl fun _ => by
        simp [hi, SendPc.uncounted, SendPc.promised, QueueMetrics.recordEnqueued]
    case h_2 hi =>
      obtain rfl := Option.some.inj hs
      exact h.moveSender rfl fun _ => by
        simp [hi, SendPc.uncounted, SendPc.promised, QueueMetrics.recordEnqueued]
    case h_3 r hi =>
      obtain rfl := Option.some.inj hs
      exact h.moveSender (QueueMetrics.dequeued_recordRefusal _ r) fun _ => by
        simp [hi, SendPc.uncounted, SendPc.promised]
    case h_4 => cases hs
  | deliver i =>
    simp only [SharedQueue.step] at hs
    split at hs
    case h_1 hi =>
      obtain rfl := Option.some.inj hs
      refine h.moveSender rfl fun hr => ?_
      simp [hi, hr, SendPc.uncounted, SendPc.promised]
      omega
    case h_2 => cases hs
  | remove =>
    simp only [SharedQueue.step] at hs
    split at hs
    case h_1 envelope rest hr hn hb =>
      obtain rfl := Option.some.inj hs
      refine ⟨fun _ => ?_, fun _ => hr⟩
      have hbal := h.balance hr
      rw [hn, hb] at hbal
      exact hbal.trans (by simp [promised]; omega)
    case h_2 => cases hs
  | countRemoved =>
    simp only [SharedQueue.step] at hs
    split at hs
    case h_1 envelope hr =>
      obtain rfl := Option.some.inj hs
      refine ⟨fun hrecv => ?_, fun hne => absurd rfl hne⟩
      have hbal := h.balance hrecv
      rw [hr] at hbal
      exact hbal.trans (by simp [promised, QueueMetrics.recordDequeued]; omega)
    case h_2 => cases hs
  | dropReceiver =>
    simp only [SharedQueue.step] at hs
    split at hs
    case h_1 hr =>
      obtain rfl := Option.some.inj hs
      exact ⟨by rintro ⟨⟩, fun hne => absurd hr hne⟩
    case h_2 => cases hs

/-- Only the receiver's own bump raises `dequeued`, and nothing lowers `enqueued`. -/
theorem counters_step (hs : q.step sender e = some q') (he : e ≠ .countRemoved) :
    q'.metrics.dequeued = q.metrics.dequeued ∧ q.metrics.enqueued ≤ q'.metrics.enqueued := by
  cases e with
  | begin_ i envelope dlq =>
    simp only [SharedQueue.step] at hs
    split at hs
    case h_2 => exact absurd hs nofun
    case h_1 =>
      split at hs
      case h_1 =>
        split at hs <;> obtain rfl := Option.some.inj hs <;> exact ⟨rfl, le_rfl⟩
      case h_2 => obtain rfl := Option.some.inj hs; exact ⟨rfl, le_rfl⟩
      case h_3 => obtain rfl := Option.some.inj hs; exact ⟨rfl, le_rfl⟩
      case h_4 => exact absurd hs nofun
  | count i =>
    simp only [SharedQueue.step] at hs
    split at hs
    case h_1 => obtain rfl := Option.some.inj hs; exact ⟨rfl, Nat.le_succ _⟩
    case h_2 => obtain rfl := Option.some.inj hs; exact ⟨rfl, Nat.le_succ _⟩
    case h_3 => obtain rfl := Option.some.inj hs; simp
    case h_4 => exact absurd hs nofun
  | deliver i =>
    simp only [SharedQueue.step] at hs
    split at hs
    case h_1 => obtain rfl := Option.some.inj hs; exact ⟨rfl, le_rfl⟩
    case h_2 => exact absurd hs nofun
  | remove =>
    simp only [SharedQueue.step] at hs
    split at hs
    case h_1 => obtain rfl := Option.some.inj hs; exact ⟨rfl, le_rfl⟩
    case h_2 => exact absurd hs nofun
  | countRemoved => exact absurd rfl he
  | dropReceiver =>
    simp only [SharedQueue.step] at hs
    split at hs
    case h_1 => obtain rfl := Option.some.inj hs; exact ⟨rfl, le_rfl⟩
    case h_2 => exact absurd hs nofun

omit [Fintype ι] in
theorem inserted_moveSender {i j : ι} {pc : SendPc}
    (h : Function.update q.senders i pc j = .inserted) (hpc : pc = .inserted → i ≠ j) :
    q.senders j = .inserted := by
  by_cases hij : j = i
  · subst hij
    rw [Function.update_self] at h
    exact absurd rfl (hpc h)
  · rwa [Function.update_of_ne hij] at h

/-- Only `Drop` and `DeadLetter` senders put a message in before they count it. -/
theorem inserted_step (hs : q.step sender e = some q') {j : ι} (hslow : (sender j).overflow = .slow)
    (h : q'.senders j = .inserted) : q.senders j = .inserted := by
  cases e with
  | begin_ i envelope dlq =>
    simp only [SharedQueue.step] at hs
    split at hs
    case h_2 => exact absurd hs nofun
    case h_1 =>
      split at hs
      case h_1 =>
        split at hs
        case isTrue =>
          obtain rfl := Option.some.inj hs
          exact inserted_moveSender h fun hpc => nomatch hpc
        case isFalse hi =>
          obtain rfl := Option.some.inj hs
          exact inserted_moveSender h fun _ hij => hi (hij ▸ hslow)
      case h_2 =>
        obtain rfl := Option.some.inj hs
        exact inserted_moveSender h fun hpc => nomatch hpc
      case h_3 =>
        obtain rfl := Option.some.inj hs
        exact inserted_moveSender h fun hpc => nomatch hpc
      case h_4 => exact absurd hs nofun
  | count i =>
    simp only [SharedQueue.step] at hs
    split at hs
    case h_1 =>
      obtain rfl := Option.some.inj hs
      exact inserted_moveSender h fun hpc => nomatch hpc
    case h_2 =>
      obtain rfl := Option.some.inj hs
      exact inserted_moveSender h fun hpc => nomatch hpc
    case h_3 =>
      obtain rfl := Option.some.inj hs
      exact inserted_moveSender h fun hpc => nomatch hpc
    case h_4 => exact absurd hs nofun
  | deliver i =>
    simp only [SharedQueue.step] at hs
    split at hs
    case h_1 =>
      obtain rfl := Option.some.inj hs
      exact inserted_moveSender h fun hpc => nomatch hpc
    case h_2 => exact absurd hs nofun
  | remove =>
    simp only [SharedQueue.step] at hs
    split at hs
    case h_1 => obtain rfl := Option.some.inj hs; exact h
    case h_2 => exact absurd hs nofun
  | countRemoved =>
    simp only [SharedQueue.step] at hs
    split at hs
    case h_1 => obtain rfl := Option.some.inj hs; exact h
    case h_2 => exact absurd hs nofun
  | dropReceiver =>
    simp only [SharedQueue.step] at hs
    split at hs
    case h_1 => obtain rfl := Option.some.inj hs; exact h
    case h_2 => exact absurd hs nofun

/-- One step keeps `dequeued ≤ enqueued` exactly when it is covered. -/
theorem ordered_step_iff (h : q.Accounted) (ho : q.metrics.dequeued ≤ q.metrics.enqueued)
    (hs : q.step sender e = some q') :
    q'.metrics.dequeued ≤ q'.metrics.enqueued ↔ q.Covered e := by
  by_cases he : e = .countRemoved
  · subst he
    simp only [SharedQueue.step] at hs
    split at hs
    case h_2 => exact absurd hs nofun
    case h_1 envelope hr =>
      obtain rfl := Option.some.inj hs
      have hbal := h.balance (h.live (by rw [hr]; nofun))
      rw [hr] at hbal
      simp only [Option.toList_some, List.length_singleton] at hbal
      constructor
      · intro hle _
        have hlt : q.metrics.dequeued + 1 ≤ q.metrics.enqueued := hle
        omega
      · intro hc
        have hle := hc rfl
        show q.metrics.dequeued + 1 ≤ q.metrics.enqueued
        omega
  · obtain ⟨hd, hen⟩ := counters_step hs he
    refine ⟨fun _ h => absurd h he, fun _ => ?_⟩
    omega

end Specs

/-- A new queue: nobody is inside a step. -/
def start (capacity : Nat) : SharedQueue ι where
  capacity := capacity

omit [DecidableEq ι] in
theorem accounted_start (capacity : Nat) : (start capacity : SharedQueue ι).Accounted where
  balance := fun _ => by simp [start, uncounted, promised, SendPc.uncounted, SendPc.promised]
  live := fun h => absurd rfl h

section Runs

variable {sender : ι → DownstreamSender} {capacity : Nat} {es : List (QueueStep ι)}
  {q : SharedQueue ι}

theorem accounted_of_run (h : Lib.exec (step sender) (start capacity) es = some q) :
    q.Accounted :=
  Lib.exec_invariant (fun _ _ _ hq hs => Accounted.step hq hs) h (accounted_start capacity)

omit [DecidableEq ι] in
theorem AtRest.counts (h : q.AtRest) : q.uncounted = 0 ∧ q.promised = 0 := by
  constructor
  · exact Finset.sum_eq_zero fun i _ => by rw [h.1 i]; rfl
  · exact Finset.sum_eq_zero fun i _ => by rw [h.1 i]; rfl

omit [DecidableEq ι] in
/-- At rest the shared queue is the queue of the coarser model, with its counters in agreement. -/
theorem AtRest.channel_counted (h : q.AtRest) (hq : q.Accounted) (hr : q.receiving = true) :
    q.channel.Counted := by
  have hbal := hq.balance hr
  obtain ⟨hu, hp⟩ := h.counts
  rw [h.2, hu, hp] at hbal
  simpa [InputQueue.Counted, channel] using hbal

/-- The counters stay in order exactly in the runs whose removals are all counted while covered;
whatever the order, the depth is exact whenever nobody is inside a step. -/
theorem counters_in_order (h : Lib.exec (step sender) (start capacity) es = some q) :
    (Lib.StepsMeet (step sender) Covered (start capacity) es ↔
      ∀ done later u, es = done ++ later →
        Lib.exec (step sender) (start capacity) done = some u →
        u.metrics.dequeued ≤ u.metrics.enqueued) ∧
    (q.AtRest → q.receiving = true →
      q.metrics.enqueued = q.metrics.dequeued + q.buffer.length ∧
      q.metrics.depth = q.buffer.length) := by
  refine ⟨?_, fun hrest hr => ?_⟩
  · refine Lib.StepsMeet.iff_always (I := fun q => q.Accounted ∧ q.metrics.dequeued ≤ q.metrics.enqueued)
      ?_ ?_ h ⟨accounted_start capacity, le_rfl⟩ le_rfl
    · rintro u e v ⟨hu, ho⟩ hc hs
      exact ⟨hu.step hs, (ordered_step_iff hu ho hs).mpr hc⟩
    · rintro u e v ⟨hu, ho⟩ hs
      exact ordered_step_iff hu ho hs
  · have hc : q.metrics.enqueued = q.metrics.dequeued + q.buffer.length :=
      hrest.channel_counted (accounted_of_run h) hr
    refine ⟨hc, ?_⟩
    rw [QueueMetrics.depth]
    omega

/-- A queue that only `Slow` senders feed never counts a removal before its insertion. -/
theorem slow_counters_in_order (hslow : ∀ i, (sender i).overflow = .slow)
    (h : Lib.exec (step sender) (start capacity) es = some q) :
    q.metrics.dequeued ≤ q.metrics.enqueued := by
  have hinv : q.Accounted ∧ (∀ i, q.senders i ≠ .inserted) ∧
      q.metrics.dequeued ≤ q.metrics.enqueued := by
    refine @Lib.exec_invariant _ _ _ _ _ _ (fun u => u.Accounted ∧ (∀ i, u.senders i ≠ .inserted) ∧
      u.metrics.dequeued ≤ u.metrics.enqueued) ?_ h ⟨accounted_start capacity, fun i => nofun, le_rfl⟩
    rintro u e v ⟨hu, hpc, ho⟩ hs
    refine ⟨hu.step hs, fun i hi => hpc i (inserted_step hs (hslow i) hi), ?_⟩
    refine (ordered_step_iff hu ho hs).mpr fun _ => ?_
    have h0 : u.uncounted = 0 := by
      refine Finset.sum_eq_zero fun i _ => ?_
      cases hi : u.senders i with
      | inserted => exact absurd hi (hpc i)
      | _ => rfl
    omega
  exact hinv.2.2

end Runs

/-- A single edge with the drop policy. -/
def dropEdge : Unit → DownstreamSender := fun _ =>
  { toNode := "sink", port := "default", edge := "meter:default->sink:default",
    sourceNode := "meter", overflow := .drop, dlqSender := false }

def reading : RuntimeEnvelope := .new "m1" 0 "meter" []

/-- The receiver counts the removal while the `Drop` sender is between `try_send` and its bump. -/
theorem removal_counted_first :
    ∃ q, Lib.exec (step dropEdge) (start 1)
        [.begin_ () reading { answer := .ok, timestamp := 0 }, .remove, .countRemoved] = some q ∧
      ¬ q.metrics.dequeued ≤ q.metrics.enqueued :=
  ⟨_, rfl, by decide⟩

/-- The sender counts in time, and the depth is exact afterwards. -/
theorem counters_in_order_counted :
    ∃ q, Lib.exec (step dropEdge) (start 1)
        [.begin_ () reading { answer := .ok, timestamp := 0 }, .count (), .remove, .countRemoved] =
          some q ∧
      q.AtRest ∧ q.metrics.enqueued = q.metrics.dequeued + q.buffer.length := by
  have hr : ∃ q, Lib.exec (step dropEdge) (start 1)
      [.begin_ () reading { answer := .ok, timestamp := 0 }, .count (), .remove, .countRemoved] =
        some q ∧ q.AtRest ∧ q.receiving = true :=
    ⟨_, rfl, ⟨fun _ => rfl, rfl⟩, rfl⟩
  obtain ⟨q, hq, hrest, hrecv⟩ := hr
  exact ⟨q, hq, hrest, ((counters_in_order hq).2 hrest hrecv).1⟩

end SharedQueue

end Wafer
