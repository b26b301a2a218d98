import Mathlib.Algebra.BigOperators.Group.List.Basic
import Wafer.Runner.Accounting
import Wafer.Runner.PolicyUse
import Wafer.Runner.RetrySchedule

/-!
# The work a runner loop has left

A bound on the steps a loop can still take without anything new from outside.
Every envelope in the node carries a call for now and one for each retry it has
left; a call carries the sends of its output. A rollback gives a call back, but
takes the canary, and a canary takes a published replacement. What is left is
the way to the next message, in the order the loop checks things.

## Main definitions

- `World.work` — the bound, `share` being the work of the sends of one output
- `Event.ofLoop` — the steps of the loop itself

## Main results

- `World.work_step` — every step of the loop is paid for
- `runLoop_steps_bounded` — a run has as many steps as its arrivals and publications pay for
-/

namespace Wafer

/-- The work of a call, of its sends, and of all the loop does until the next. -/
def callWork (share : ℕ) : ℕ := share + 18

namespace RuntimeEnvelope

variable (share retries : ℕ)

/-- The work of an envelope that waits for a call: this one and a further one for every retry. -/
def work (envelope : RuntimeEnvelope) : ℕ :=
  callWork share * (1 + (retries - envelope.retryCount))

/-- The work of an envelope whose call is under way. -/
def workInHand (envelope : RuntimeEnvelope) : ℕ :=
  callWork share * (retries - envelope.retryCount) + share

theorem work_eq (envelope : RuntimeEnvelope) :
    envelope.work share retries = envelope.workInHand share retries + 18 := by
  simp only [work, workInHand, callWork, Nat.mul_add, Nat.mul_one]
  omega

theorem share_le_workInHand (envelope : RuntimeEnvelope) :
    share ≤ envelope.workInHand share retries :=
  Nat.le_add_left ..

variable {retries}

/-- A retry takes one of the calls that are left. -/
theorem work_retried {envelope retried : RuntimeEnvelope} (hleft : envelope.retryCount < retries)
    (hcount : retried.retryCount = envelope.retryCount + 1) :
    retried.work share retries + share = envelope.workInHand share retries := by
  have hone : 1 + (retries - retried.retryCount) = retries - envelope.retryCount := by omega
  rw [work, workInHand, hone]

end RuntimeEnvelope

namespace InputQueue

/-- The queue is still to be closed. -/
def openWork (q : InputQueue) : ℕ := bif q.closed then 0 else 1

variable {q q' : InputQueue} {envelope : RuntimeEnvelope}

theorem openWork_of_eq (h : q'.closed = q.closed) : q'.openWork = q.openWork := by
  rw [openWork, h, openWork]

theorem send_openWork (h : q.send envelope = some q') : q'.openWork = q.openWork := by
  simp only [send] at h
  split at h
  · obtain rfl := Option.some.inj h
    rfl
  · cases h

theorem recv_openWork (h : q.recv = .message envelope q') : q'.openWork = q.openWork :=
  openWork_of_eq (recv_message h).2.1

end InputQueue

/-! ## The retry buffer -/

namespace ErrorPolicyExecutor

variable {ex : ErrorPolicyExecutor} {share retries : ℕ} {envelope : RuntimeEnvelope}

def retryWork (share retries : ℕ) (ex : ErrorPolicyExecutor) : ℕ :=
  (ex.retryBuffer.entries.map fun entry => entry.envelope.work share retries).sum

theorem retryWork_congr {ex' : ErrorPolicyExecutor} (h : ex'.retryBuffer = ex.retryBuffer) :
    ex'.retryWork share retries = ex.retryWork share retries := by
  rw [retryWork, h, retryWork]

theorem retryWork_flush (reason : DlqReason) (attempts : ℕ → DlqAttempt) (m : NodeMetrics) :
    (ex.flushToDlq reason attempts m).1.retryWork share retries = 0 := by
  rw [retryWork, (ex.flushToDlq_spec reason attempts m).1]
  rfl

/-- A failed envelope leaves the work of its further calls behind, if it is retried at all. -/
theorem retryWork_handle (hmax : ex.config.maxRetries ≤ retries) (hu32 : retries ≤ u32Max) (now : ℕ)
    (attempt : DlqAttempt) (error : WasmProcessError) :
    (ex.handle now attempt error envelope).2.retryWork share retries + share ≤
      ex.retryWork share retries + envelope.workInHand share retries := by
  have hshare := envelope.share_le_workInHand share retries
  cases ex.handle_answer now attempt error envelope with
  | @retried category kind left room result =>
    have hleft : envelope.retryCount < retries :=
      left.trans_le ((ex.retries_le category).trans hmax)
    have hcount : (ex.retryEntry now category envelope).envelope.retryCount =
        envelope.retryCount + 1 := Nat.min_eq_left (by omega)
    have hwork := RuntimeEnvelope.work_retried share hleft hcount
    rw [result]
    simp only [retryWork, RetryBuffer.push, List.map_append, List.map_cons, List.map_nil,
      List.sum_append, List.sum_cons, List.sum_nil]
    omega
  | settled action buffer config =>
    rw [retryWork_congr buffer]
    omega

variable (share retries) in
/-- Taking out a due entry takes out its work. -/
theorem retryWork_nextReady {ex' : ErrorPolicyExecutor} {now : ℕ}
    (h : ex.nextReadyRetry now = some (envelope, ex')) :
    ex.retryWork share retries = envelope.work share retries + ex'.retryWork share retries := by
  obtain ⟨⟨e, b⟩, hb, he⟩ := Option.map_eq_some_iff.mp h
  obtain ⟨rfl, rfl⟩ := Prod.mk.inj he
  obtain ⟨entry, rfl, -, -, hp⟩ := RetryBuffer.nextReady_perm hb
  have hsum := (hp.map fun entry => entry.envelope.work share retries).sum_eq
  rw [List.map_cons, List.sum_cons] at hsum
  exact hsum.symm

theorem nextReadyRetry_isSome {entry : RetryEntry} {now : ℕ}
    (hmem : entry ∈ ex.retryBuffer.entries) (hdue : entry.nextAttemptAt ≤ now) :
    (ex.nextReadyRetry now).isSome = true := by
  simp only [nextReadyRetry, RetryBuffer.nextReady, Option.isSome_map]
  exact RetryBuffer.earliestDue_isSome hmem hdue

/-- What is due stays due. -/
theorem nextReadyRetry_later {now later : ℕ} (hle : now ≤ later)
    (h : (ex.nextReadyRetry now).isSome = true) : (ex.nextReadyRetry later).isSome = true := by
  obtain ⟨⟨envelope, ex'⟩, h⟩ := Option.isSome_iff_exists.mp h
  obtain ⟨⟨e, b⟩, hb, -⟩ := Option.map_eq_some_iff.mp h
  obtain ⟨entry, -, hdue, -, hp⟩ := RetryBuffer.nextReady_perm hb
  exact nextReadyRetry_isSome (hp.subset List.mem_cons_self) (hdue.trans hle)

/-- Behind the timer an entry is due. -/
theorem nextReadyRetry_deadline {deadline now : ℕ} (hd : ex.nextRetryDeadline = some deadline)
    (hle : deadline ≤ now) : (ex.nextReadyRetry now).isSome = true := by
  obtain ⟨entry, hmem, rfl⟩ := List.mem_map.mp (List.min?_mem hd)
  exact nextReadyRetry_isSome hmem hle

end ErrorPolicyExecutor

/-- No operation changes the configuration of a policy. -/
theorem PolicyRun.step_config {s t : PolicyRun} {op : PolicyOp} (h : s.step op = some t) :
    t.executor.config = s.executor.config := by
  cases op with
  | handle now attempt error envelope =>
    obtain rfl := Option.some.inj h
    cases s.executor.handle_answer now attempt error envelope with
    | retried kind left room result => exact congrArg (·.2.config) result
    | settled action buffer config => exact config
  | retry now =>
    obtain ⟨⟨envelope, ex⟩, hr, rfl⟩ := Option.map_eq_some_iff.mp h
    obtain ⟨p, -, he⟩ := Option.map_eq_some_iff.mp hr
    rw [← (Prod.mk.inj he).2]
  | flush reason attempts =>
    obtain rfl := Option.some.inj h
    exact ErrorPolicyExecutor.flushEntries_config ..
  | condemn attempt envelope error =>
    obtain rfl := Option.some.inj h
    exact s.executor.recordCondemned_config ..
  | count metrics =>
    simp only [step] at h
    split at h
    · obtain rfl := Option.some.inj h
      rfl
    · cases h

/-! ## The loop -/

/-- The work from here to the next message and back. A pending replacement sends the loop back to
the top. -/
def Pc.work (share retries : ℕ) (unseen : Bool) : Pc → ℕ
  | .exited _ => 0
  | .closing _ => 1
  | .recvSelect => 2 + 13 * unseen.toNat
  | .recvRetry => 3 + 13 * unseen.toNat
  | .recvTop => 4 + 13 * unseen.toNat
  | .waiting => 5 + 13 * unseen.toNat
  | .swapCheck => 6 + 4 * unseen.toNat
  | .top => 7 + 4 * unseen.toNat
  | .applying _ => callWork share + 8 + 4 * unseen.toNat
  | .claiming _ => callWork share + 9 + 10 * unseen.toNat
  | .received taken => taken.envelope.workInHand share retries + 15 + 8 * unseen.toNat
  | .calling call => call.taken.envelope.workInHand share retries + 14 + 4 * unseen.toNat
  | .sending _ _ => 8 + 4 * unseen.toNat

/-- On the way to the retry buffer. -/
def Pc.looking : Pc → Bool
  | .recvTop | .recvRetry => true
  | _ => false

namespace Event

/-- A step of the loop itself. -/
def ofLoop : Event → Bool
  | advance | select _ | applied _ _ | returned _ _ | sent | shutdown _ => true
  | _ => false

/-- The work that comes from outside with an event. -/
def gain (share retries : ℕ) : Event → ℕ
  | arrive envelope => envelope.work share retries
  | publish _ => callWork share + 13
  | _ => 0

end Event

namespace World

/-- The way around by the timer, for a buffer that is not empty. Past the timer the next look at the
buffer finds something due. -/
def timerWork (w : World) : ℕ :=
  if w.policy.pendingRetries = 0 ∨
      w.pc.looking = true ∧ (w.policy.nextReadyRetry w.now).isSome = true then 0
  else 5

/-- The work of the envelopes that wait in the node. -/
def waitingWork (share retries : ℕ) (w : World) : ℕ :=
  (w.input.buffer.map (·.work share retries)).sum + w.policy.retryWork share retries +
    w.held.elim 0 (·.envelope.workInHand share retries + 10) +
    w.rollbackRetry.elim 0 (·.envelope.workInHand share retries + 9)

/-- The work of what happens once: a rollback, a replacement, the end of the input. -/
def onceWork (share : ℕ) (w : World) : ℕ :=
  (bif w.canary.isSome then callWork share else 0) + (bif w.unseen then callWork share else 0) +
    (bif w.eof then 0 else 3) + w.input.openWork

def work (share retries : ℕ) (w : World) : ℕ :=
  w.pc.work share retries w.unseen + w.timerWork + w.waitingWork share retries + w.onceWork share

def isSending (w : World) : Bool :=
  match w.pc with
  | .sending _ _ => true
  | _ => false

/-- The work of the sends that a step begins. -/
def begun (share : ℕ) (w w' : World) : ℕ :=
  if w.isSending = false ∧ w'.isSending = true then share else 0

variable {cfg : LoopConfig} {w w' : World} {e : Event}

theorem step_config (h : step cfg w e = some w') : w'.policy.config = w.policy.config := by
  obtain ⟨ops, hops⟩ := step_policyRun h
  exact Lib.exec_relation
    (R := fun s t : PolicyRun => t.executor.config = s.executor.config)
    (fun _ => rfl) (fun _ _ _ h h' => h'.trans h) (fun _ _ _ hs => PolicyRun.step_config hs) hops

variable {share retries : ℕ}

/-! ### Failed calls -/

section Returned

variable {error : WasmProcessError} {envelope : RuntimeEnvelope} {answers : FailureAnswers}
  {call : Call}

theorem recover_retryWork :
    (w.recover cfg answers).policy.retryWork share retries ≤ w.policy.retryWork share retries := by
  unfold recover
  dsimp only
  split
  · exact le_rfl
  · exact (ErrorPolicyExecutor.retryWork_flush ..).trans_le (Nat.zero_le _)

theorem condemn_retryWork :
    (w.condemn cfg error envelope answers).policy.retryWork share retries ≤
      w.policy.retryWork share retries :=
  recover_retryWork.trans
    (ErrorPolicyExecutor.retryWork_congr (w.policy.recordCondemned_spec ..).1).le

theorem rollBack_retryWork (canary : TransformCanaryState) :
    (w.rollBack cfg canary call error answers).policy.retryWork share retries ≤
      w.policy.retryWork share retries := by
  unfold rollBack
  dsimp only
  split
  · exact le_rfl
  · unfold escalate
    dsimp only
    split <;> exact condemn_retryWork

variable (hmax : w.policy.config.maxRetries ≤ retries) (hu32 : retries ≤ u32Max)
include hmax hu32

theorem applyPolicy_retryWork :
    (w.applyPolicy error envelope answers).policy.retryWork share retries + share ≤
      w.policy.retryWork share retries + envelope.workInHand share retries :=
  ErrorPolicyExecutor.retryWork_handle hmax hu32 ..

theorem failCall_retryWork :
    (w.failCall cfg error envelope answers).policy.retryWork share retries + share ≤
      w.policy.retryWork share retries + envelope.workInHand share retries := by
  have hpolicy := @applyPolicy_retryWork { w with metrics := w.metrics.recordError error } share
    retries error envelope answers hmax hu32
  unfold failCall
  dsimp only
  split
  · unfold recoverAfterTimeout
    dsimp only
    split
    · exact (Nat.add_le_add_right recover_retryWork _).trans hpolicy
    · exact hpolicy
  · split
    · exact Nat.add_le_add condemn_retryWork (envelope.share_le_workInHand ..)
    · exact hpolicy

variable (share) in
/-- Whatever a call comes to, the work of its sends is not needed for retries. -/
theorem returned_retryWork {answer : GuestAnswer} (at_ : w.pc = .calling call)
    (h : step cfg w (.returned answer answers) = some w') :
    w'.policy.retryWork share retries + share ≤
      w.policy.retryWork share retries + call.taken.envelope.workInHand share retries := by
  simp only [step, at_] at h
  have hkept : w.policy.retryWork share retries + share ≤
      w.policy.retryWork share retries + call.taken.envelope.workInHand share retries :=
    Nat.add_le_add_left (call.taken.envelope.share_le_workInHand ..) _
  simp only [returned] at h
  split at h
  · obtain ⟨r, -, rfl⟩ := Option.map_eq_some_iff.mp h
    cases r.1 with
    | ok output => exact hkept
    | error error =>
      unfold dispatchTransform
      dsimp only
      split
      · split
        · exact (Nat.add_le_add_right
            (rollBack_retryWork (w := { w with node := r.2 }) _) _).trans hkept
        · exact failCall_retryWork (w := { w with node := r.2 }) hmax hu32
      · exact failCall_retryWork (w := { w with node := r.2 }) hmax hu32
  · obtain ⟨r, -, rfl⟩ := Option.map_eq_some_iff.mp h
    cases r.1 with
    | ok verdict => cases verdict <;> exact hkept
    | error error => exact failCall_retryWork (w := { w with node := r.2 }) hmax hu32
  · obtain ⟨r, -, rfl⟩ := Option.map_eq_some_iff.mp h
    cases r.1 with
    | ok routing =>
      cases routing with
      | error e =>
        exact applyPolicy_retryWork (w := { w with
          node := r.2, metrics := w.metrics.recordError (.processingFailed e.message) }) hmax hu32
      | ports ports => cases ports <;> exact hkept
    | error error => exact failCall_retryWork (w := { w with node := r.2 }) hmax hu32

end Returned

/-! ### Steps -/

theorem work_close (share retries : ℕ) (w : World) :
    { w with input := { w.input with closed := true } }.work share retries + w.input.openWork =
      w.work share retries := by
  have htimer : { w with input := { w.input with closed := true } }.timerWork = w.timerWork := rfl
  simp only [work, waitingWork, onceWork, htimer, InputQueue.openWork, cond_true]
  omega

theorem timerWork_le (w : World) : w.timerWork ≤ 5 := by
  unfold timerWork
  split <;> omega

/-- Away from the two looks at the buffer it matters only whether something is buffered. -/
theorem timerWork_le_of (hp : w.pc.looking = false)
    (hr : w.policy.pendingRetries = 0 → w'.policy.pendingRetries = 0) :
    w'.timerWork ≤ w.timerWork := by
  have hlook : w.timerWork = if w.policy.pendingRetries = 0 then 0 else 5 := by
    simp only [timerWork, hp, Bool.false_eq_true, false_and, or_false]
  rw [hlook]
  split
  · next h0 => rw [timerWork, if_pos (.inl (hr h0))]
  · exact timerWork_le w'

theorem begun_of_not (h : w'.isSending = false) : begun share w w' = 0 :=
  if_neg fun hs => Bool.false_ne_true (h.symm.trans hs.2)

theorem begun_of_eq (h : w'.isSending = w.isSending) : begun share w w' = 0 :=
  if_neg fun hs => Bool.false_ne_true (hs.1.symm.trans (h.symm.trans hs.2))

/-- What only moves the program counter is paid for by the way it saves. -/
theorem work_moves {pc : Pc} (hm : Moves w e pc) (h : step cfg w e = some { w with pc }) :
    1 + { w with pc }.work share retries ≤ w.work share retries := by
  have hrest : { w with pc }.waitingWork share retries = w.waitingWork share retries ∧
      { w with pc }.onceWork share = w.onceWork share := ⟨rfl, rfl⟩
  have htimer := timerWork_le { w with pc }
  have hunseen := w.unseen.toNat_le
  suffices hpc : 1 + pc.work share retries w.unseen + { w with pc }.timerWork ≤
      w.pc.work share retries w.unseen + w.timerWork by
    simp only [work]
    omega
  have hkept (hp : w.pc.looking = false) : { w with pc }.timerWork ≤ w.timerWork :=
    timerWork_le_of hp id
  cases hm with
  | noSwap at_ rerun seen =>
    have := hkept (by rw [at_]; rfl)
    simp only [at_, seen, Pc.work, Bool.toNat_false] at *
    omega
  | ignored at_ claim =>
    have := hkept (by rw [at_]; rfl)
    simp only [at_, Pc.work] at *
    omega
  | wait at_ held =>
    have := hkept (by rw [at_]; rfl)
    simp only [at_, Pc.work] at *
    omega
  | swapFirst at_ seen =>
    simp only [at_, seen, Pc.work, Bool.toNat_true] at *
    omega
  | retryNext at_ seen =>
    have hsame : { w with pc := .recvRetry }.timerWork = w.timerWork := by
      simp only [timerWork, at_, Pc.looking]
    simp only [at_, seen, Pc.work, Bool.toNat_false] at *
    omega
  | drained at_ eof empty =>
    have h0 : { w with pc := .closing (.ok ()) }.timerWork = 0 := if_pos (.inl empty)
    simp only [at_, Pc.work] at *
    omega
  | idle at_ =>
    -- nothing is due
    have hnone : w.policy.nextReadyRetry w.now = none := by
      simp only [step, advance, at_, pollRetry, Option.some.injEq] at h
      split at h
      · cases congrArg World.pc h
      · assumption
    have hsame : { w with pc := .recvSelect }.timerWork = w.timerWork := by
      simp [timerWork, at_, Pc.looking, hnone]
    simp only [at_, Pc.work] at *
    omega
  | cancelled at_ cancelled =>
    have := hkept (by rw [at_]; rfl)
    simp only [at_, Pc.work] at *
    omega
  | swap at_ seen =>
    have := hkept (by rw [at_]; rfl)
    simp only [at_, seen, Pc.work, Bool.toNat_true] at *
    omega
  | timer at_ =>
    -- the timer is set for what is due now
    obtain ⟨deadline, hd, hle⟩ : ∃ deadline, w.policy.nextRetryDeadline = some deadline ∧
        deadline ≤ w.now := by
      simp only [step, at_, selectBranch] at h
      split at h
      · next deadline hd =>
        split at h
        · next hle => exact ⟨deadline, hd, hle⟩
        · cases h
      · cases h
    have hdue := ErrorPolicyExecutor.nextReadyRetry_deadline hd hle
    have h0 : { w with pc := .recvTop }.timerWork = 0 := if_pos (.inr ⟨rfl, hdue⟩)
    have hpending : w.timerWork = 5 := by
      refine if_neg ?_
      rintro (hp | ⟨hl, -⟩)
      · have hnil : w.policy.retryBuffer.entries = [] := List.length_eq_zero_iff.mp hp
        simp [ErrorPolicyExecutor.nextRetryDeadline, RetryBuffer.nextDeadline, hnil] at hd
      · rw [at_] at hl
        cases hl
    simp only [at_, Pc.work] at *
    omega

variable (share retries) in
/-- Outside the loop only a new envelope and a publication bring work. -/
theorem work_outside (h : step cfg w e = some w') (ho : e.ofLoop = false) :
    w'.work share retries ≤ w.work share retries + e.gain share retries := by
  cases step_transition h with
  | @arrive envelope input running room =>
    have hbuffer := InputQueue.send_buffer room
    have hopen := InputQueue.send_openWork room
    have htimer : { w with input }.timerWork = w.timerWork := rfl
    simp only [work, waitingWork, onceWork, htimer, hbuffer, hopen, Event.gain, List.map_append,
      List.map_cons, List.map_nil, List.sum_append, List.sum_cons, List.sum_nil]
    omega
  | close => exact (Nat.le_add_right ..).trans (w.work_close share retries).le
  | refuse | cancel | recordHash | prepare | withdrawn | tooLate | retract => exact le_rfl
  | @tick ns =>
    have htimer : { w with now := w.now + ns }.timerWork ≤ w.timerWork := by
      by_cases h0 : w.policy.pendingRetries = 0 ∨
          w.pc.looking = true ∧ (w.policy.nextReadyRetry w.now).isSome = true
      · rw [timerWork, if_pos (h0.imp_right fun hd =>
          ⟨hd.1, ErrorPolicyExecutor.nextReadyRetry_later (Nat.le_add_right ..) hd.2⟩)]
        exact Nat.zero_le _
      · rw [timerWork.eq_def w, if_neg h0]
        exact timerWork_le _
    simp only [work, Event.gain] at htimer ⊢
    exact Nat.add_le_add_right (Nat.add_le_add_right (Nat.add_le_add_left htimer _) _) _
  | @publish id status running =>
    have hpc : w.pc.work share retries true ≤ w.pc.work share retries w.unseen + 13 := by
      cases w.pc <;> simp only [Pc.work, Bool.toNat_true] <;> omega
    have hrest : (w.publish id).timerWork = w.timerWork ∧
        (w.publish id).waitingWork share retries = w.waitingWork share retries := ⟨rfl, rfl⟩
    have honce : (w.publish id).onceWork share ≤ w.onceWork share + callWork share := by
      simp only [onceWork, publish, observe, cond_true]
      omega
    have hwork : (w.publish id).work share retries = w.pc.work share retries true +
        (w.publish id).timerWork + (w.publish id).waitingWork share retries +
          (w.publish id).onceWork share := rfl
    rw [hwork, hrest.1, hrest.2]
    simp only [work, Event.gain]
    omega
  | move moves => cases moves <;> cases ho
  | window | rerun | pickup | slotEmpty | claimed | adopted | initFailed | unhold | retry | dequeue
  | eof | hold | hand | forwarded | filtered | unrouted | failed | rolledBack | escalated | lost
  | sent | shutdown => cases ho

theorem onceWork_le_of (share : ℕ)
    (hsame : w'.unseen = w.unseen ∧ w'.eof = w.eof ∧ w'.input.closed = w.input.closed)
    (hcanary : w'.canary.isSome = true → w.canary.isSome = true) :
    w'.onceWork share ≤ w.onceWork share := by
  have : (bif w'.canary.isSome then callWork share else 0) ≤
      bif w.canary.isSome then callWork share else 0 := by
    cases hc : w'.canary.isSome with
    | true => rw [hcanary hc]
    | false => exact Nat.zero_le _
  simp only [onceWork, hsame.1, hsame.2.1, InputQueue.openWork_of_eq hsame.2.2]
  omega

/-- A call that comes to nothing more than a retry is paid for. -/
theorem work_settled {call : Call} (at_ : w.pc = .calling call)
    (hpc : w'.pc = .top ∨ ∃ r, w'.pc = .closing r)
    (hsame : w'.input = w.input ∧ w'.held = w.held ∧ w'.rollbackRetry = w.rollbackRetry ∧
      w'.unseen = w.unseen ∧ w'.eof = w.eof)
    (hcanary : w'.canary.isSome = true → w.canary.isSome = true)
    (hretry : w'.policy.retryWork share retries + share ≤
      w.policy.retryWork share retries + call.taken.envelope.workInHand share retries) :
    1 + w'.work share retries ≤ w.work share retries := by
  obtain ⟨hinput, hheld, hrerun, hunseen, heof⟩ := hsame
  have htimer := timerWork_le w'
  have hpay : 1 + w'.pc.work share retries w'.unseen + 5 +
      call.taken.envelope.workInHand share retries ≤ w.pc.work share retries w.unseen := by
    rw [hunseen, at_]
    obtain hpc | ⟨r, hpc⟩ := hpc <;> rw [hpc] <;> simp only [Pc.work] <;> omega
  have honce := onceWork_le_of share ⟨hunseen, heof, by rw [hinput]⟩ hcanary
  simp only [work, waitingWork, hinput, hheld, hrerun]
  omega

/-- Away from the looks at the buffer the timer keeps its price. -/
theorem work_pays (hp : w.pc.looking = false)
    (hr : w.policy.pendingRetries = 0 → w'.policy.pendingRetries = 0)
    (hpay : 1 + w'.pc.work share retries w'.unseen + w'.waitingWork share retries +
        w'.onceWork share ≤
      w.pc.work share retries w.unseen + w.waitingWork share retries + w.onceWork share) :
    1 + w'.work share retries ≤ w.work share retries := by
  have htimer := timerWork_le_of hp hr
  simp only [work]
  omega

variable (share) in
/-- Every step of the loop is paid for, with the sends it begins. -/
theorem work_step (h : step cfg w e = some w') (hmax : w.policy.config.maxRetries ≤ retries)
    (hu32 : retries ≤ u32Max) :
    (if e.ofLoop = true then 1 else 0) + w'.work share retries + w.begun share w' ≤
      w.work share retries + e.gain share retries := by
  have hquiet (hw' : w'.isSending = false)
      (hpaid : 1 + w'.work share retries ≤ w.work share retries) :
      (if e.ofLoop = true then 1 else 0) + w'.work share retries + w.begun share w' ≤
        w.work share retries + e.gain share retries := by
    rw [begun_of_not hw']
    split <;> omega
  have houtside (ho : e.ofLoop = false) (hw' : w'.isSending = w.isSending) :
      (if e.ofLoop = true then 1 else 0) + w'.work share retries + w.begun share w' ≤
        w.work share retries + e.gain share retries := by
    have hpaid := work_outside share retries h ho
    rw [begun_of_eq hw', ho, if_neg Bool.false_ne_true]
    omega
  cases step_transition h with
  | arrive | close | refuse | cancel | tick | recordHash | prepare | publish | withdrawn | tooLate
  | retract => exact houtside rfl rfl
  | move moves =>
    refine hquiet ?_ (work_moves moves h)
    cases moves <;> rfl
  | window at_ =>
    refine hquiet rfl (work_pays (by rw [at_]; rfl) id ?_)
    have hwaiting : w.checkWindow.waitingWork share retries = w.waitingWork share retries := rfl
    have honce : w.checkWindow.onceWork share ≤ w.onceWork share :=
      onceWork_le_of share ⟨rfl, rfl, rfl⟩ (Option.isSome_of_isSome_filter _ _)
    have hpc : 1 + w.checkWindow.pc.work share retries w.unseen ≤
        w.pc.work share retries w.unseen := by
      rw [at_, checkWindow, Pc.work, Pc.work]
      omega
    have hunseen : w.checkWindow.unseen = w.unseen := rfl
    rw [hwaiting, hunseen]
    omega
  | rerun at_ rerun =>
    refine hquiet rfl (work_pays (by rw [at_]; rfl) id ?_)
    simp only [waitingWork, onceWork, startCall, observe, rerun, at_, Pc.work, Option.elim]
    omega
  | pickup at_ rerun seen slot =>
    refine hquiet rfl (work_pays (by rw [at_]; rfl) id ?_)
    simp only [waitingWork, onceWork, seen, at_, Pc.work, Bool.toNat_true, Bool.toNat_false,
      cond_true, cond_false]
    omega
  | slotEmpty at_ rerun seen slot =>
    refine hquiet rfl (work_pays (by rw [at_]; rfl) id ?_)
    simp only [waitingWork, onceWork, seen, at_, Pc.work, Bool.toNat_true, Bool.toNat_false,
      cond_true, cond_false]
    omega
  | claimed at_ claim =>
    refine hquiet rfl (work_pays (by rw [at_]; rfl) id ?_)
    simp only [waitingWork, onceWork, setProgress, observe, at_, Pc.work]
    omega
  | @adopted id lc attempts node left at_ =>
    refine hquiet rfl (work_pays (by rw [at_]; rfl)
      (fun _ => ErrorPolicyExecutor.flushToDlq_pending ..) ?_)
    have hflush : ((w.setReplacement id left).adopt cfg id node attempts).policy.retryWork share
        retries = 0 := ErrorPolicyExecutor.retryWork_flush ..
    have hcanary : (bif (armCanary cfg (w.setReplacement id left) id).isSome then callWork share
        else 0) ≤ callWork share := by
      cases (armCanary cfg (w.setReplacement id left) id).isSome with
      | true => exact le_rfl
      | false => exact Nat.zero_le _
    simp only [waitingWork, onceWork, hflush]
    simp only [adopt, setReplacement, setProgress, observe, at_, Pc.work] at hcanary ⊢
    omega
  | initFailed at_ kept =>
    refine hquiet rfl (work_pays (by rw [at_]; rfl) id ?_)
    simp only [waitingWork, onceWork, failInit, reportTo, setReplacement, observe, at_, Pc.work]
    omega
  | unhold at_ held =>
    refine hquiet rfl (work_pays (by rw [at_]; rfl) id ?_)
    simp only [waitingWork, onceWork, hand, startCall, observe, held, at_, Pc.work, Option.elim]
    omega
  | @retry envelope policy at_ ready =>
    refine hquiet rfl ?_
    have htaken := ErrorPolicyExecutor.retryWork_nextReady share retries ready
    have hwork := envelope.work_eq share retries
    have htimer := timerWork_le ({ w with
      policy, pc := .received ⟨envelope, .retry, w.pendingRequest⟩ }.observe
        (.retryTaken ⟨envelope, .retry, w.pendingRequest⟩))
    simp only [observe] at htimer
    simp only [work, waitingWork, onceWork, observe, at_, Pc.work, htaken]
    omega
  | @dequeue envelope input at_ message =>
    refine hquiet rfl (work_pays (by rw [at_]; rfl) id ?_)
    obtain ⟨hbuffer, -⟩ := InputQueue.recv_message message
    have hopen := InputQueue.recv_openWork message
    have hwork := envelope.work_eq share retries
    simp only [waitingWork, onceWork, observe, at_, Pc.work, hbuffer, hopen, List.map_cons,
      List.sum_cons]
    omega
  | eof at_ closed =>
    refine hquiet rfl (work_pays (by rw [at_]; rfl) id ?_)
    have hopen : w.eof = false := by
      simp only [step, at_, selectBranch] at h
      split at h
      · cases h
      · next heof => exact Bool.eq_false_iff.mpr heof
    simp only [waitingWork, onceWork, at_, hopen, Pc.work, cond_true, cond_false]
    omega
  | hold at_ seen =>
    refine hquiet rfl (work_pays (by rw [at_]; rfl) id ?_)
    simp only [waitingWork, onceWork, seen, at_, Pc.work, Option.elim, Bool.toNat_true]
    omega
  | hand at_ seen =>
    refine hquiet rfl (work_pays (by rw [at_]; rfl) id ?_)
    simp only [waitingWork, onceWork, hand, startCall, observe, at_, Pc.work]
    omega
  | @forwarded call out node answer answers at_ =>
    -- the sends of the output were in the call's work
    have hbegun : w.begun share ({ w with node }.forward call out) = share :=
      if_pos ⟨by rw [isSending, at_], rfl⟩
    have hin := call.taken.envelope.share_le_workInHand share retries
    have htimer : ({ w with node }.forward call out).timerWork ≤ w.timerWork :=
      timerWork_le_of (by rw [at_]; rfl) id
    have hwaiting : ({ w with node }.forward call out).waitingWork share retries =
      w.waitingWork share retries := rfl
    have honce : ({ w with node }.forward call out).onceWork share = w.onceWork share := rfl
    have hpc : ({ w with node }.forward call out).pc.work share retries
        ({ w with node }.forward call out).unseen = 8 + 4 * w.unseen.toNat := rfl
    have hcall : w.pc.work share retries w.unseen =
        call.taken.envelope.workInHand share retries + 14 + 4 * w.unseen.toNat := by
      rw [at_, Pc.work]
    rw [hbegun, Event.ofLoop, if_pos rfl, work, work, hwaiting, honce, hpc, hcall]
    omega
  | filtered at_ =>
    exact hquiet rfl (work_settled at_ (.inl rfl) ⟨rfl, rfl, rfl, rfl, rfl⟩ id
      (returned_retryWork share hmax hu32 at_ h))
  | unrouted at_ =>
    exact hquiet rfl (work_settled at_ (.inl rfl) ⟨rfl, rfl, rfl, rfl, rfl⟩ id
      (returned_retryWork share hmax hu32 at_ h))
  | failed at_ loaded rebuilt handled =>
    have hretry := returned_retryWork share hmax hu32 at_ h
    obtain ⟨pc, node', policy, metrics, state, generation, rfl⟩ := handled.frame
    have hpc : pc = .top ∨ ∃ e, pc = .closing (.error e) := handled.pc
    refine hquiet ?_ (work_settled at_ (hpc.imp_right fun he => ⟨_, he.choose_spec⟩)
      ⟨rfl, rfl, rfl, rfl, rfl⟩ id hretry)
    obtain rfl | ⟨e, rfl⟩ := hpc <;> rfl
  | rolledBack at_ role canary_eq =>
    -- the rerun is what the canary paid for
    refine hquiet rfl (work_pays (by rw [at_]; rfl) id ?_)
    simp only [waitingWork, onceWork, resume, restoreReplaced, reportTo, setProgress, observe, at_,
      canary_eq, Pc.work, Option.elim, Option.isSome, cond_true, cond_false, callWork]
    omega
  | escalated at_ role canary_eq answered condemns rebuilt handled running =>
    have hretry := returned_retryWork share hmax hu32 at_ h
    obtain ⟨pc, node', policy, metrics, state, generation, rfl⟩ := handled.frame
    obtain rfl : pc = .top := running
    exact hquiet rfl (work_settled at_ (.inl rfl) ⟨rfl, rfl, rfl, rfl, rfl⟩
      (fun hc => absurd hc Bool.false_ne_true) hretry)
  | lost at_ role canary_eq handled stopped =>
    have hretry := returned_retryWork share hmax hu32 at_ h
    obtain ⟨pc, node', policy, metrics, state, generation, rfl⟩ := handled.frame
    obtain rfl : pc = .closing _ := stopped
    exact hquiet rfl (work_settled at_ (.inr ⟨_, rfl⟩) ⟨rfl, rfl, rfl, rfl, rfl⟩
      (fun hc => absurd hc Bool.false_ne_true) hretry)
  | sent at_ =>
    refine hquiet rfl (work_pays (by rw [at_]; rfl) id ?_)
    simp only [waitingWork, onceWork, World.sent, markOutcome, reportTo, at_, Pc.work,
      Option.isSome_map]
    omega
  | @shutdown result attempts at_ =>
    refine hquiet rfl (work_pays (by rw [at_]; rfl)
      (fun _ => ErrorPolicyExecutor.flushToDlq_pending ..) ?_)
    have hflush : (w.shutdown result attempts).policy.retryWork share retries = 0 :=
      ErrorPolicyExecutor.retryWork_flush ..
    simp only [waitingWork, onceWork, hflush]
    simp only [World.shutdown, at_, Pc.work]
    omega

end World

/-! ## Runs -/

namespace Event

def isArrival : Event → Bool
  | arrive _ => true
  | _ => false

def isPublication : Event → Bool
  | publish _ => true
  | _ => false

theorem gain_le (retries : ℕ) (e : Event) :
    e.gain 0 retries ≤ (if e.isArrival = true then 18 * (1 + retries) else 0) +
      if e.isPublication = true then 31 else 0 := by
  cases e with
  | arrive envelope => exact Nat.mul_le_mul_left 18 (by omega)
  | publish id => exact le_rfl
  | _ => exact Nat.zero_le _

end Event

/-- A loop does a bounded number of steps for every envelope that arrives and for every replacement
that is published. Failures, retries and rollbacks in any order cannot keep it busy. -/
theorem runLoop_steps_bounded {cfg : LoopConfig} {setup : LoopSetup}
    (hu32 : setup.policy.maxRetries ≤ u32Max) {events : List Event} {w : World}
    (h : runLoop cfg setup events = some w) :
    events.countP Event.ofLoop ≤ 11 + 18 * (1 + setup.policy.maxRetries) *
      events.countP Event.isArrival + 31 * events.countP Event.isPublication := by
  have hrun : events.countP Event.ofLoop + w.work 0 setup.policy.maxRetries ≤
      (World.start cfg setup).work 0 setup.policy.maxRetries +
        (events.map fun e =>
          (if e.isArrival = true then 18 * (1 + setup.policy.maxRetries) else 0) +
            if e.isPublication = true then 31 else 0).sum := by
    refine Lib.exec_countP_le_sum (P := fun w : World => w.policy.config = setup.policy) _
      (fun w e w' hw hs => (World.step_config hs).trans hw) (fun w e w' hw hs => ?_) h rfl
    have hstep := World.work_step 0 hs (hw ▸ le_rfl) hu32
    have hgain := e.gain_le setup.policy.maxRetries
    omega
  have hstart : (World.start cfg setup).work 0 setup.policy.maxRetries = 11 := rfl
  rw [hstart, List.sum_map_add, Lib.sum_map_ite, Lib.sum_map_ite] at hrun
  omega

theorem runLoop_steps_bounded_poison :
    ∃ w, runTransformLoopWithConfig "parse" {} poisonSetup poisonRun = some w ∧
      w.metrics.retries = 1 ∧ poisonRun.countP Event.ofLoop = 27 ∧
      poisonRun.countP Event.ofLoop ≤ 11 + 18 * (1 + poisonSetup.policy.maxRetries) *
        poisonRun.countP Event.isArrival + 31 * poisonRun.countP Event.isPublication := by
  have hr : ∃ w, runTransformLoopWithConfig "parse" {} poisonSetup poisonRun = some w ∧
      w.metrics.retries = 1 := ⟨_, rfl, rfl⟩
  obtain ⟨w, h, hretries⟩ := hr
  exact ⟨w, h, hretries, rfl, runLoop_steps_bounded (by decide) h⟩

end Wafer
