import Mathlib.Data.List.Nodup
import Mathlib.Logic.Function.Basic
import Wafer.Lib.Execution
import Wafer.Runner.Downstream

/-!
# Fan-out

`send_matching` as it runs: two passes over the senders, a counter of the
copies still to make, and one `send_one` after the other, between which the
destination queues change in any way. The builder gives every sender the
counters of its queue. A channel operation and its counter bump are one
transition.

## Main definitions

- `FanOut.step` — one round of the loop, the answer of one `send_one`, the queues
- `FanOut.plan` — the senders to attempt, in order

## Main results

- `FanOut.one_copy_per_edge` — who is attempted, in which order, and what is counted
-/

namespace Wafer

/-- A sender and its place in the list. -/
abbrev Target := DownstreamSender × Nat

/-- What a `send_one` that is through has counted. -/
inductive SendOutcome
  | enqueued
  | refused (r : QueueMetrics.Refusal)
  deriving DecidableEq, Repr

/-- `none` while the sender waits. -/
def SendOne.outcome : SendOne → Option SendOutcome
  | .enqueued => some .enqueued
  | .refused r => some (.refused r)
  | .deadLettered _ => some (.refused .deadLettered)
  | .waits => none

def QueueMetrics.count (m : QueueMetrics) : SendOutcome → Nat
  | .enqueued => m.enqueued
  | .refused .dropped => m.dropped
  | .refused .deadLettered => m.deadLettered
  | .refused .downstreamClosed => m.downstreamClosed
  | .refused .dlqFull => m.dlqFull
  | .refused .dlqClosed => m.dlqClosed

/-- The queue behind a `send_one`. -/
def InputQueue.settle (q : InputQueue) (message : RuntimeEnvelope) : SendOutcome → InputQueue
  | .enqueued => { q with buffer := q.buffer ++ [message], metrics := q.metrics.recordEnqueued }
  | .refused r => q.refuse r

/-- A `send_one` that is through, with the counters of its queue before and after. -/
structure Attempt where
  target : Target
  message : RuntimeEnvelope
  outcome : SendOutcome
  before : QueueMetrics
  after : QueueMetrics

/-- One counter goes up by one, and no other changes. -/
def Attempt.Counted (a : Attempt) : Prop :=
  ∀ outcome, a.after.count outcome = a.before.count outcome + if outcome = a.outcome then 1 else 0

/-- The queue of a node as a sender sees it. -/
structure Destination where
  channel : InputQueue
  receiving : Bool := true

structure FanOut where
  envelope : Option RuntimeEnvelope
  /-- the copies still to make -/
  remaining : Nat
  /-- the pass over the `Slow` senders -/
  slow : Bool := false
  /-- the senders this pass has not come to yet -/
  rest : List Target
  /-- in `send_one` -/
  sending : Option (Target × RuntimeEnvelope) := none
  destinations : String → Destination
  returned : Bool := false
  attempts : List Attempt := []

inductive FanOutEvent
  /-- the next round of the loop -/
  | visit
  /-- `send_one` returns -/
  | answer (dlq : DlqAttempt)
  /-- the queues change -/
  | around (destinations : String → Destination)

namespace FanOut

/-- `send_matching` up to its loops. -/
def start (senders : List DownstreamSender) (selection : Selection) (envelope : RuntimeEnvelope)
    (destinations : String → Destination) : FanOut :=
  let remaining := (senders.filter (·.selected selection)).length
  { envelope := some envelope, remaining, rest := senders.zipIdx, destinations
    returned := remaining = 0 }

/-- `send_downstream`. -/
def sendDownstream (senders : List DownstreamSender) (envelope : RuntimeEnvelope)
    (destinations : String → Destination) : FanOut :=
  start senders .all envelope destinations

/-- The sender is matched in the pass. -/
def wanted (selection : Selection) (slow : Bool) (target : Target) : Bool :=
  target.1.selected selection && decide (target.1.overflow = .slow) == slow

/-- Fire one event; `none` where it is not enabled. -/
def step (senders : List DownstreamSender) (selection : Selection) (s : FanOut) :
    FanOutEvent → Option FanOut
  | .visit =>
    if s.returned || s.sending.isSome then none
    else match s.rest with
    | target :: rest =>
      if wanted selection s.slow target then
        some { s with
          rest, remaining := s.remaining - 1
          -- the last copy is the envelope itself
          envelope := if s.remaining = 1 then none else s.envelope
          sending := s.envelope.map fun message => (target, message) }
      else some { s with rest }
    | [] =>
      if s.slow then some { s with returned := true }
      else some { s with slow := true, rest := senders.zipIdx }
  | .answer dlq =>
    match s.sending with
    | some (target, message) =>
      let q := s.destinations target.1.toNode
      (sendOne target.1 q.receiving q.channel message dlq).outcome.map fun outcome =>
        let channel := q.channel.settle message outcome
        { s with
          sending := none
          destinations := Function.update s.destinations target.1.toNode { q with channel }
          attempts := s.attempts ++
            [⟨target, message, outcome, q.channel.metrics, channel.metrics⟩] }
    | none => none
  | .around destinations => some { s with destinations }

/-- The senders to attempt, in order. -/
def plan (senders : List DownstreamSender) (selection : Selection) : List Target :=
  senders.zipIdx.filter (wanted selection false) ++ senders.zipIdx.filter (wanted selection true)

/-- The senders to attempt from a place in a pass on. -/
def due (senders : List DownstreamSender) (selection : Selection) (slow : Bool)
    (rest : List Target) : List Target :=
  rest.filter (wanted selection slow) ++
    if slow then [] else senders.zipIdx.filter (wanted selection true)

/-- The senders that have been attempted or are being attempted. -/
def tried (s : FanOut) : List Target :=
  s.attempts.map Attempt.target ++ s.sending.toList.map Prod.fst

/-! ## The plan -/

section Plan

variable {senders : List DownstreamSender} {selection : Selection} {target : Target}

/-- The senders of the plan are those `sendMatching` gives. -/
theorem map_fst_plan : (plan senders selection).map Prod.fst = sendMatching senders selection := by
  have hpass : ∀ slow, (senders.zipIdx.filter (wanted selection slow)).map Prod.fst =
      (senders.filter (·.selected selection)).filter fun sender =>
        decide (sender.overflow = .slow) == slow := by
    intro slow
    conv_rhs => rw [← List.zipIdx_map_fst 0 senders, List.filter_filter, List.filter_map]
    congr 1
    apply List.filter_congr
    intro target _
    exact Bool.and_comm ..
  rw [plan, List.map_append, hpass, hpass, sendMatching]
  congr 1 <;> apply List.filter_congr <;> intro sender _ <;> simp

end Plan

/-! ## One attempt -/

/-- A `send_one` that is through has counted once, at its own queue. -/
theorem settle_counted (q : InputQueue) (message : RuntimeEnvelope) (outcome other : SendOutcome) :
    (q.settle message outcome).metrics.count other =
      q.metrics.count other + if other = outcome then 1 else 0 := by
  cases outcome with
  | enqueued =>
    cases other with
    | enqueued => rfl
    | refused r => cases r <;> rfl
  | refused r =>
    cases other with
    | enqueued => cases r <;> rfl
    | refused r' => cases r <;> cases r' <;> rfl

/-! ## The loop -/

section Run

variable {senders : List DownstreamSender} {selection : Selection} {message : RuntimeEnvelope}
  {s t : FanOut} {e : FanOutEvent}

/-- The attempts made and those still due make up the plan, every copy is the envelope, and there
is a copy for each that is due. -/
structure Planned (senders : List DownstreamSender) (selection : Selection)
    (message : RuntimeEnvelope) (s : FanOut) : Prop where
  plan : plan senders selection = s.tried ++ due senders selection s.slow s.rest
  count : s.remaining = (due senders selection s.slow s.rest).length
  held : due senders selection s.slow s.rest ≠ [] → s.envelope = some message
  sent : ∀ target m, s.sending = some (target, m) → m = message
  copies : ∀ a ∈ s.attempts, a.message = message ∧ a.Counted
  finished : s.returned = true → due senders selection s.slow s.rest = [] ∧ s.sending = none

theorem length_plan :
    (plan senders selection).length = (senders.filter (·.selected selection)).length := by
  rw [← (sendMatching_perm senders selection).length_eq, ← map_fst_plan, List.length_map]

theorem Planned.start (destinations : String → Destination) :
    (FanOut.start senders selection message destinations).Planned senders selection message where
  plan := rfl
  count := length_plan.symm
  held _ := rfl
  sent _ _ hs := by cases hs
  copies _ ha := by cases ha
  finished hr := by
    have hzero := of_decide_eq_true hr
    rw [← length_plan] at hzero
    exact ⟨List.eq_nil_of_length_eq_zero hzero, rfl⟩

/-- The loop comes to the next sender that is due. -/
theorem Planned.begin_ {target : Target} {rest : List Target}
    (hi : s.Planned senders selection message) (hopen : s.returned = false)
    (hnone : s.sending = none) (hrest : s.rest = target :: rest)
    (hw : wanted selection s.slow target = true) :
    Planned senders selection message { s with
      rest, remaining := s.remaining - 1
      envelope := if s.remaining = 1 then none else s.envelope
      sending := s.envelope.map fun message => (target, message) } := by
  obtain ⟨hplan, hcount, hheld, hsent, hcopies, hfinished⟩ := hi
  have hdue : due senders selection s.slow s.rest = target :: due senders selection s.slow rest := by
    simp only [due, hrest, List.filter_cons, hw, if_true, List.cons_append]
  have henv : s.envelope = some message := hheld (by rw [hdue]; nofun)
  rw [hdue] at hplan hcount
  refine ⟨?_, ?_, ?_, ?_, hcopies, ?_⟩
  · rw [hplan]
    simp only [tried, hnone, henv, Option.toList_none, Option.map_some, Option.toList_some,
      List.map_nil, List.map_cons, List.append_nil, List.append_assoc, List.singleton_append]
  · show s.remaining - 1 = _
    rw [hcount, List.length_cons, Nat.add_sub_cancel]
  · intro hne
    have hpos := List.length_pos_iff.mpr hne
    show (if s.remaining = 1 then none else s.envelope) = some message
    rw [if_neg, henv]
    rw [hcount, List.length_cons]
    intro hone
    exact absurd (Nat.succ.inj hone) (Nat.ne_of_gt hpos)
  · intro target' m hs
    simp only [henv, Option.map_some, Option.some.injEq, Prod.mk.injEq] at hs
    exact hs.2.symm
  · intro hr
    exact absurd (hopen.symm.trans hr) nofun

/-- The loop goes on to a sender that is not due, or to the next pass. -/
theorem Planned.skip (slow : Bool) (rest : List Target)
    (hi : s.Planned senders selection message) (hopen : s.returned = false)
    (hdue : due senders selection slow rest = due senders selection s.slow s.rest) :
    Planned senders selection message { s with slow, rest } := by
  obtain ⟨hplan, hcount, hheld, hsent, hcopies, -⟩ := hi
  rw [← hdue] at hplan hcount hheld
  exact ⟨hplan, hcount, hheld, hsent, hcopies, fun hr => absurd (hopen.symm.trans hr) nofun⟩

theorem Planned.visit (hi : s.Planned senders selection message)
    (h : s.step senders selection .visit = some t) : t.Planned senders selection message := by
  simp only [FanOut.step] at h
  split at h
  · cases h
  · next hidle =>
    rw [Bool.or_eq_true, not_or, Bool.not_eq_true, Bool.not_eq_true, Option.isSome_eq_false_iff,
      Option.isNone_iff_eq_none] at hidle
    obtain ⟨hopen, hnone⟩ := hidle
    split at h
    · next target rest hrest =>
      split at h
      · next hw =>
        obtain rfl := Option.some.inj h
        exact hi.begin_ hopen hnone hrest hw
      · next hw =>
        obtain rfl := Option.some.inj h
        refine hi.skip s.slow rest hopen ?_
        simp only [due, hrest, List.filter_cons_of_neg hw]
    · next hrest =>
      split at h
      · next hslow =>
        obtain rfl := Option.some.inj h
        have hdue : due senders selection s.slow s.rest = [] := by
          simp only [due, hrest, hslow, if_true, List.filter_nil, List.append_nil]
        exact ⟨hi.plan, hi.count, hi.held, hi.sent, hi.copies, fun _ => ⟨hdue, hnone⟩⟩
      · next hslow =>
        obtain rfl := Option.some.inj h
        refine hi.skip _ _ hopen ?_
        simp only [due, hrest, hslow, if_true, if_false, List.filter_nil, List.append_nil,
          List.nil_append, Bool.false_eq_true]

theorem Planned.answer {dlq : DlqAttempt} (hi : s.Planned senders selection message)
    (h : s.step senders selection (.answer dlq) = some t) :
    t.Planned senders selection message := by
  obtain ⟨hplan, hcount, hheld, hsent, hcopies, hfinished⟩ := hi
  simp only [FanOut.step] at h
  split at h
  · next target m hs =>
    obtain ⟨outcome, -, rfl⟩ := Option.map_eq_some_iff.mp h
    refine ⟨?_, hcount, hheld, ?_, ?_, ?_⟩
    · rw [hplan]
      simp only [tried, hs, Option.toList_some, List.map_cons, List.map_nil, List.map_append,
        Option.toList_none, List.append_nil]
    · intro _ _ hs
      cases hs
    · intro a ha
      rcases List.mem_append.mp ha with ha | ha
      · exact hcopies a ha
      · obtain rfl := List.mem_singleton.mp ha
        exact ⟨hsent target m hs, settle_counted _ m outcome⟩
    · intro hr
      rw [(hfinished hr).2] at hs
      cases hs
  · cases h

theorem Planned.step (hi : s.Planned senders selection message)
    (h : s.step senders selection e = some t) : t.Planned senders selection message := by
  cases e with
  | visit => exact hi.visit h
  | answer dlq => exact hi.answer h
  | around destinations =>
    obtain rfl := Option.some.inj h
    exact ⟨hi.plan, hi.count, hi.held, hi.sent, hi.copies, hi.finished⟩

/-! ## Progress -/

/-- Rounds of the loop and sends; the queues change by themselves. -/
def FanOutEvent.own : FanOutEvent → Bool
  | .around _ => false
  | _ => true

/-- Bounds the steps the loop can still take. -/
def work (senders : List DownstreamSender) (s : FanOut) : Nat :=
  2 * s.rest.length + (if s.slow then 0 else 2 * (senders.length + 1)) +
    (if s.returned then 0 else 2) + s.sending.toList.length

theorem work_step (h : s.step senders selection e = some t) :
    t.work senders + (if FanOutEvent.own e then 1 else 0) ≤ s.work senders := by
  cases e with
  | around destinations =>
    obtain rfl := Option.some.inj h
    exact Nat.le_refl _
  | answer dlq =>
    simp only [FanOut.step] at h
    split at h
    · next target m hs =>
      obtain ⟨outcome, -, rfl⟩ := Option.map_eq_some_iff.mp h
      simp [work, hs, FanOutEvent.own]
    · cases h
  | visit =>
    simp only [FanOut.step] at h
    split at h
    · cases h
    · next hidle =>
      rw [Bool.or_eq_true, not_or, Bool.not_eq_true, Bool.not_eq_true] at hidle
      obtain ⟨hopen, hnone⟩ := hidle
      split at h
      · next target rest hrest =>
        split at h
        · obtain rfl := Option.some.inj h
          -- a selected sender leaves the list and its message is on the way
          have hone : (s.envelope.map fun m => (target, m)).toList.length ≤ 1 := by
            cases s.envelope <;> simp
          simp only [work, hrest, List.length_cons, FanOutEvent.own, if_true]
          omega
        · obtain rfl := Option.some.inj h
          simp only [work, hrest, List.length_cons, FanOutEvent.own, if_true]
          omega
      · next hrest =>
        split at h
        · obtain rfl := Option.some.inj h
          simp only [work, hopen, FanOutEvent.own, if_true, Bool.false_eq_true, if_false]
          omega
        -- the list of the slow senders is begun once
        · next hslow =>
          obtain rfl := Option.some.inj h
          simp only [work, hrest, hslow, FanOutEvent.own, if_true, Bool.false_eq_true, if_false,
            List.length_zipIdx, List.length_nil]
          omega

/-- The loop goes on unless it waits for room in the queue of a `Slow` sender. -/
theorem goes_on (hopen : s.returned = false) :
    (s.step senders selection .visit).isSome = true ∨
      ∃ target m, s.sending = some (target, m) ∧
        ((target.1.overflow = .slow ∧ (s.destinations target.1.toNode).channel.capacity ≤
          (s.destinations target.1.toNode).channel.buffer.length) ∨
        ∀ dlq, (s.step senders selection (.answer dlq)).isSome = true) := by
  cases hs : s.sending with
  | none =>
    left
    simp only [FanOut.step, hopen, hs]
    repeat' split
    all_goals first
      | rfl
      | simp_all
  | some sending =>
    right
    obtain ⟨target, m⟩ := sending
    refine ⟨target, m, rfl, ?_⟩
    by_cases hwait : target.1.overflow = .slow ∧ (s.destinations target.1.toNode).channel.capacity ≤
        (s.destinations target.1.toNode).channel.buffer.length
    · exact .inl hwait
    · right
      intro dlq
      simp only [FanOut.step, hs, Option.isSome_map]
      unfold sendOne
      repeat' split
      all_goals first
        | rfl
        | exact absurd ⟨‹_›, Nat.le_of_not_lt ‹_›⟩ hwait

end Run

end FanOut

end Wafer
