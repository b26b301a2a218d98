import Wafer.Runner.Transition

/-!
# Accounting of envelopes and guest calls

Every envelope taken from the input queue is settled by one terminal counter,
or it is still buffered, held, waiting for its rerun or in a call. Every guest
call is answered by one of `processed`, `filtered_out` and `attempts_failed`,
and has an envelope that was handed out for it.
-/

namespace Wafer

namespace Pc

/-- Envelopes the loop has in its hands here. -/
def inFlight : Pc → Nat
  | received _ => 1
  | calling _ => 1
  | _ => 0

def receivedTaken : Pc → Option Taken
  | received taken => some taken
  | _ => none

def inCall : Pc → Nat
  | calling _ => 1
  | _ => 0

/-- Points where an envelope can be held for a replacement. -/
def mayHold : Pc → Bool
  | top | swapCheck | claiming _ | applying _ | waiting => true
  | _ => false

/-- Points where the message of a rollback can wait for its rerun. -/
def mayRerun : Pc → Bool
  | top | swapCheck => true
  | _ => false

end Pc

/-- No envelope is in the loop's hands where only the program counter moves. -/
theorem Moves.inFlight {w : World} {e : Event} {pc : Pc} (h : Moves w e pc) :
    w.pc.inFlight = 0 ∧ pc.inFlight = 0 := by
  cases h <;> simp_all [Pc.inFlight]

theorem Moves.inCall {w : World} {e : Event} {pc : Pc} (h : Moves w e pc) :
    w.pc.inCall = 0 ∧ pc.inCall = 0 := by
  cases h <;> simp_all [Pc.inCall]

namespace Obs

def taken? : Obs → Option Taken
  | dequeued taken => some taken
  | retryTaken taken => some taken
  | _ => none

def handed? : Obs → Option Taken
  | handed taken => some taken
  | _ => none

def called? : Obs → Option Call
  | called call _ => some call
  | _ => none

end Obs

def Taken.fresh (taken : Taken) : Bool := taken.origin = .fresh

namespace World

/-- What `next_input` took from the queue and the retry buffer, oldest first. -/
def taken (w : World) : List Taken := (w.trace.filterMap Obs.taken?).reverse

/-- What `next_input` handed to the loop, oldest first. -/
def handed (w : World) : List Taken := (w.trace.filterMap Obs.handed?).reverse

/-- The guest calls, oldest first. -/
def calls (w : World) : List Call := (w.trace.filterMap Obs.called?).reverse

/-- Taken and not handed out yet. -/
def inHand (w : World) : List Taken := w.held.toList ++ w.pc.receivedTaken.toList

/-- Envelopes taken from the queue and not settled yet. -/
def outstanding (w : World) : Nat :=
  w.policy.pendingRetries + w.held.toList.length + w.rollbackRetry.toList.length + w.pc.inFlight

/-- The held slots are only in use where the loop will look at them again. -/
structure Placed (w : World) : Prop where
  held : w.pc.mayHold = false → w.held = none
  rerun : w.pc.mayRerun = false → w.rollbackRetry = none
  apart : w.rollbackRetry ≠ none → w.held = none

/-- Every envelope taken from the input queue is settled or outstanding. -/
def Accounted (w : World) : Prop := w.input.metrics.dequeued = w.metrics.settled + w.outstanding

/-- The buffer is empty once the loop has returned. -/
def Flushed (w : World) : Prop := ∀ result, w.pc = .exited result → w.policy.pendingRetries = 0

/-- Envelopes are handed out in the order they were taken; none is lost or handed out twice. -/
def InOrder (w : World) : Prop := w.taken = w.handed ++ w.inHand

def DequeuedTaken (w : World) : Prop :=
  w.input.metrics.dequeued = (w.taken.filter Taken.fresh).length

/-- Every call but the current one is answered. -/
def CallsAnswered (w : World) : Prop := w.calls.length = w.metrics.answered + w.pc.inCall

/-- A call is either for an envelope handed out, or a rerun. -/
def CallsHanded (w : World) : Prop :=
  w.calls.length = w.handed.length + (w.calls.filter Call.reprocessed).length

section Steps

variable {cfg : LoopConfig} {w w' : World} {e : Event}

@[simp] theorem taken_observe (w : World) (o : Obs) :
    (w.observe o).taken = w.taken ++ o.taken?.toList := by
  cases ho : o.taken? <;> simp [taken, observe, ho]

@[simp] theorem handed_observe (w : World) (o : Obs) :
    (w.observe o).handed = w.handed ++ o.handed?.toList := by
  cases ho : o.handed? <;> simp [handed, observe, ho]

@[simp] theorem calls_observe (w : World) (o : Obs) :
    (w.observe o).calls = w.calls ++ o.called?.toList := by
  cases ho : o.called? <;> simp [calls, observe, ho]

theorem taken_hand (w : World) (t : Taken) : (w.hand t).taken = w.taken := rfl

theorem handed_hand (w : World) (t : Taken) : (w.hand t).handed = w.handed ++ [t] :=
  handed_observe w (.handed t)

theorem calls_hand (w : World) (t : Taken) : (w.hand t).calls = w.calls ++ [⟨t, false, w.now⟩] :=
  calls_observe w (.called ⟨t, false, w.now⟩ w.generation)

/-- Both slots are empty where nothing can be held. -/
theorem Placed.empty (hp : w.Placed) (hm : w.pc.mayHold = false) :
    w.held = none ∧ w.rollbackRetry = none :=
  ⟨hp.held hm, hp.rerun (by revert hm; cases w.pc <;> simp [Pc.mayHold, Pc.mayRerun])⟩

theorem Placed.of_empty (hh : w.held = none) (hr : w.rollbackRetry = none) : w.Placed :=
  ⟨fun _ => hh, fun _ => hr, fun _ => hh⟩

theorem Placed.step (hp : w.Placed) (h : Transition cfg w e w') : w'.Placed := by
  cases h with
  | arrive | close | refuse | cancel | tick | recordHash | prepare | publish | withdrawn | tooLate
  | retract => exact ⟨hp.held, hp.rerun, hp.apart⟩
  | window | adopted | initFailed => exact ⟨nofun, nofun, hp.apart⟩
  | move m =>
    cases m with
    | noSwap at_ rerun => exact ⟨nofun, fun _ => rerun, hp.apart⟩
    | ignored at_ => exact ⟨nofun, fun _ => hp.rerun (by rw [at_]; rfl), hp.apart⟩
    | wait at_ held => exact .of_empty held (hp.rerun (by rw [at_]; rfl))
    | swapFirst at_ | retryNext at_ | drained at_ | idle at_ | cancelled at_ | swap at_
    | timer at_ =>
      have he := hp.empty (by rw [at_]; rfl)
      exact .of_empty he.1 he.2
  | rerun at_ rerun => exact .of_empty (hp.apart (by rw [rerun]; nofun)) rfl
  | pickup at_ rerun | slotEmpty at_ rerun => exact ⟨nofun, fun _ => rerun, hp.apart⟩
  | claimed at_ => exact ⟨nofun, fun _ => hp.rerun (by rw [at_]; rfl), hp.apart⟩
  | unhold at_ => exact .of_empty rfl (hp.rerun (by rw [at_]; rfl))
  | hold at_ => exact ⟨nofun, nofun, fun h => absurd (hp.rerun (by rw [at_]; rfl)) h⟩
  | rolledBack at_ => exact ⟨nofun, nofun, fun _ => hp.held (by rw [at_]; rfl)⟩
  | failed at_ loaded rebuilt handled
  | escalated at_ role canary answered condemns rebuilt handled
  | lost at_ role canary handled =>
    obtain ⟨pc, node, policy, metrics, state, generation, rfl⟩ := handled.frame
    have he := hp.empty (by rw [at_]; rfl)
    exact .of_empty he.1 he.2
  | retry at_ | dequeue at_ | eof at_ | hand at_ | forwarded at_ | filtered at_ | unrouted at_
  | sent at_ | shutdown at_ =>
    have he := hp.empty (by rw [at_]; rfl)
    exact .of_empty he.1 he.2

/-- The program counter after an error arm holds no envelope. -/
theorem Handled.inFlight {n : Nat} (h : Handled n w w') : w'.pc.inFlight = 0 := by
  rcases h.pc with hp | ⟨e, hp⟩ <;> rw [hp] <;> rfl

theorem Accounted.step (hp : w.Placed) (ha : w.Accounted) (h : Transition cfg w e w') :
    w'.Accounted := by
  simp only [Accounted, outstanding] at ha ⊢
  cases h with
  | close | cancel | tick | recordHash | prepare | publish | withdrawn | tooLate | retract =>
    exact ha
  | @refuse r => exact (QueueMetrics.dequeued_recordRefusal _ r).trans ha
  | arrive running room => rw [InputQueue.send_dequeued room]; exact ha
  | move m =>
    rw [m.inFlight.1] at ha
    simpa only [m.inFlight.2] using ha
  | window at_ | pickup at_ | slotEmpty at_ | claimed at_ | initFailed at_ | sent at_ | eof at_ =>
    rw [at_] at ha
    exact ha
  | rerun at_ rerun =>
    rw [at_, rerun] at ha
    simpa [Pc.inFlight, startCall, observe] using ha
  | unhold at_ held =>
    rw [at_, held] at ha
    simp only [Pc.inFlight, hand, startCall, observe, Option.toList_some, Option.toList_none,
      List.length_singleton, List.length_nil] at ha ⊢
    omega
  | hold at_ =>
    have he := hp.empty (by rw [at_]; rfl)
    rw [at_, he.1] at ha
    simp only [Pc.inFlight, Option.toList_some, Option.toList_none, List.length_singleton,
      List.length_nil] at ha ⊢
    omega
  | hand at_ =>
    rw [at_] at ha
    exact ha
  | @adopted _ _ attempts _ _ at_ =>
    rw [at_] at ha
    obtain ⟨-, hs, -⟩ := w.policy.flushToDlq_spec .hotSwapDrain attempts w.metrics
    simp only [adopt, setReplacement, setProgress, observe, NodeMetrics.settled_recordSwap, hs,
      ErrorPolicyExecutor.flushToDlq_pending, Pc.inFlight] at ha ⊢
    omega
  | retry at_ ready =>
    obtain ⟨hs, -⟩ := ErrorPolicyExecutor.nextReadyRetry_spec ready
    rw [at_] at ha
    simp only [Pc.inFlight, observe] at ha ⊢
    omega
  | dequeue at_ message =>
    obtain ⟨-, -, -, hm⟩ := InputQueue.recv_message message
    rw [at_] at ha
    simp only [Pc.inFlight, observe, hm, QueueMetrics.recordDequeued] at ha ⊢
    omega
  | forwarded at_ | filtered at_ | unrouted at_ =>
    rw [at_] at ha
    simp only [Pc.inFlight, forward, markOutcome, observe, reportTo,
      NodeMetrics.settled_recordProcessed, NodeMetrics.settled_recordFilteredOut] at ha ⊢
    omega
  | failed at_ loaded rebuilt handled
  | escalated at_ role canary answered condemns rebuilt handled
  | lost at_ role canary handled =>
    have hi := handled.inFlight
    have hs := handled.accounted
    obtain ⟨pc, node, policy, metrics, state, generation, rfl⟩ := handled.frame
    rw [at_] at ha
    simp only [Pc.inFlight, observe, restoreReplaced, reportTo, setProgress,
      NodeMetrics.settled_recordError] at ha hi hs ⊢
    omega
  | rolledBack at_ =>
    have he := hp.empty (by rw [at_]; rfl)
    rw [at_, he.2] at ha
    simp [Pc.inFlight, resume, observe, restoreReplaced, reportTo, setProgress,
      NodeState.toRecovering, NodeState.recoveringToRunning] at ha ⊢
    omega
  | @shutdown _ attempts at_ =>
    obtain ⟨-, hs, -⟩ := w.policy.flushToDlq_spec .shutdown attempts w.metrics
    rw [at_] at ha
    simp only [World.shutdown, hs, ErrorPolicyExecutor.flushToDlq_pending, Pc.inFlight] at ha ⊢
    omega

theorem Flushed.step (h : Transition cfg w e w') (hf : w.Flushed) : w'.Flushed := by
  intro result hx
  cases h with
  | close | refuse | cancel | tick | recordHash | prepare | publish | withdrawn | tooLate | retract
  | arrive => exact hf result hx
  | move m => cases m <;> exact absurd hx nofun
  | window | pickup | slotEmpty | claimed | initFailed | sent | eof | rerun | unhold | hold | hand
  | adopted | retry | dequeue | forwarded | filtered | unrouted | rolledBack =>
    exact absurd hx nofun
  | failed _ _ _ handled | lost _ _ _ handled =>
    rcases handled.pc with hp | ⟨_, hp⟩ <;> exact absurd (hx.symm.trans hp) nofun
  | escalated _ _ _ _ _ _ _ running => exact absurd (hx.symm.trans running) nofun
  | shutdown => exact ErrorPolicyExecutor.flushToDlq_pending ..

theorem Handled.receivedTaken {n : Nat} (h : Handled n w w') : w'.pc.receivedTaken = none := by
  rcases h.pc with hp | ⟨e, hp⟩ <;> rw [hp] <;> rfl

theorem InOrder.step (hp : w.Placed) (hi : w.InOrder) (h : Transition cfg w e w') :
    w'.InOrder := by
  simp only [InOrder, inHand] at hi ⊢
  cases h with
  | close | refuse | cancel | tick | recordHash | prepare | publish | withdrawn | tooLate | retract
  | arrive => exact hi
  | move m =>
    cases m with
    | noSwap at_ | ignored at_ | wait at_ | swapFirst at_ | retryNext at_ | drained at_ | idle at_
    | cancelled at_ | swap at_ | timer at_ =>
      rw [at_] at hi
      exact hi
  | window at_ | pickup at_ | slotEmpty at_ | claimed at_ | initFailed at_ | sent at_ | eof at_
  | rerun at_ | adopted at_ | forwarded at_ | filtered at_ | unrouted at_ | rolledBack at_
  | shutdown at_ =>
    rw [at_] at hi
    exact hi
  | unhold at_ held =>
    rw [at_, held] at hi
    rw [taken_hand, handed_hand]
    exact hi.trans (List.append_nil _).symm
  | hold at_ =>
    have he := hp.empty (by rw [at_]; rfl)
    rw [at_, he.1] at hi
    exact hi
  | hand at_ =>
    have he := hp.empty (by rw [at_]; rfl)
    rw [at_, he.1] at hi
    rw [taken_hand, handed_hand, show (w.hand _).held = none from he.1]
    exact hi.trans (List.append_nil _).symm
  | retry at_ | dequeue at_ =>
    have he := hp.empty (by rw [at_]; rfl)
    rw [at_, he.1] at hi
    rw [taken_observe, handed_observe]
    simpa [Obs.taken?, Obs.handed?, Pc.receivedTaken, observe, he.1, taken, handed] using hi
  | failed at_ loaded rebuilt handled
  | escalated at_ role canary answered condemns rebuilt handled
  | lost at_ role canary handled =>
    have hr := handled.receivedTaken
    obtain ⟨pc, node, policy, metrics, state, generation, rfl⟩ := handled.frame
    rw [at_] at hi
    simp only [observe] at hr ⊢
    rw [hr]
    exact hi

/-- The dequeue counter counts the fresh envelopes taken. -/
theorem DequeuedTaken.step (hd : w.DequeuedTaken) (h : Transition cfg w e w') :
    w'.DequeuedTaken := by
  simp only [DequeuedTaken] at hd ⊢
  cases h with
  | close | cancel | tick | recordHash | prepare | publish | withdrawn | tooLate | retract | move
  | window | pickup | slotEmpty | claimed | initFailed | sent | eof | rerun | adopted | forwarded
  | filtered | unrouted | rolledBack | shutdown | unhold | hold | hand => exact hd
  | @refuse r => exact (QueueMetrics.dequeued_recordRefusal _ r).trans hd
  | arrive running room => rw [InputQueue.send_dequeued room]; exact hd
  | retry at_ ready =>
    rw [taken_observe, List.filter_append]
    exact hd.trans (congrArg _ (List.append_nil _).symm)
  | dequeue at_ message =>
    obtain ⟨-, -, -, hm⟩ := InputQueue.recv_message message
    rw [taken_observe, List.filter_append, List.length_append]
    exact (congrArg QueueMetrics.dequeued hm).trans (congrArg Nat.succ hd)
  | failed at_ loaded rebuilt handled
  | escalated at_ role canary answered condemns rebuilt handled
  | lost at_ role canary handled =>
    obtain ⟨pc, node, policy, metrics, state, generation, rfl⟩ := handled.frame
    exact hd

theorem Handled.inCall {n : Nat} (h : Handled n w w') : w'.pc.inCall = 0 := by
  rcases h.pc with hp | ⟨e, hp⟩ <;> rw [hp] <;> rfl

theorem CallsAnswered.step (hc : w.CallsAnswered) (h : Transition cfg w e w') :
    w'.CallsAnswered := by
  simp only [CallsAnswered] at hc ⊢
  cases h with
  | close | refuse | cancel | tick | recordHash | prepare | publish | withdrawn | tooLate | retract
  | arrive => exact hc
  | move m =>
    rw [m.inCall.1] at hc
    exact hc.trans (congrArg _ m.inCall.2.symm)
  | window at_ | pickup at_ | slotEmpty at_ | claimed at_ | initFailed at_ | sent at_ | eof at_
  | hold at_ | retry at_ | dequeue at_ =>
    rw [at_] at hc
    exact hc
  | rerun at_ =>
    rw [at_] at hc
    rw [startCall, calls_observe, List.length_append]
    exact congrArg Nat.succ hc
  | unhold at_ | hand at_ =>
    rw [at_] at hc
    rw [calls_hand, List.length_append]
    exact congrArg Nat.succ hc
  | @adopted _ _ attempts _ _ at_ =>
    rw [at_] at hc
    have hf := (w.policy.flushToDlq_spec .hotSwapDrain attempts w.metrics).2.2
    exact hc.trans hf.answered.symm
  | @shutdown _ attempts at_ =>
    rw [at_] at hc
    have hf := (w.policy.flushToDlq_spec .shutdown attempts w.metrics).2.2
    exact hc.trans hf.answered.symm
  | forwarded at_ | unrouted at_ =>
    rw [at_] at hc
    exact hc.trans (NodeMetrics.answered_recordProcessed _).symm
  | filtered at_ =>
    rw [at_] at hc
    exact hc.trans (NodeMetrics.answered_recordFilteredOut _).symm
  | failed at_ loaded rebuilt handled
  | escalated at_ role canary answered condemns rebuilt handled
  | lost at_ role canary handled =>
    have hi := handled.inCall
    have ha := handled.calls.answered
    obtain ⟨pc, node, policy, metrics, state, generation, rfl⟩ := handled.frame
    rw [at_] at hc
    simp only [observe, restoreReplaced, reportTo, setProgress,
      NodeMetrics.answered_recordError] at hi ha ⊢
    rw [hi, ha]
    exact hc
  | rolledBack at_ =>
    rw [at_] at hc
    exact hc.trans (NodeMetrics.answered_recordError _ _).symm

theorem CallsHanded.step (hc : w.CallsHanded) (h : Transition cfg w e w') : w'.CallsHanded := by
  simp only [CallsHanded] at hc ⊢
  cases h with
  | close | refuse | cancel | tick | recordHash | prepare | publish | withdrawn | tooLate | retract | arrive
  | move | window | pickup | slotEmpty | claimed | initFailed | sent | eof | hold | retry | dequeue
  | adopted | shutdown | forwarded | filtered | unrouted | rolledBack => exact hc
  | rerun at_ =>
    rw [startCall, calls_observe, handed_observe]
    simp only [Obs.called?, Obs.handed?, Option.toList_some, Option.toList_none, List.length_append,
      List.filter_append, List.append_nil]
    exact congrArg Nat.succ hc
  | unhold at_ | hand at_ =>
    rw [calls_hand, handed_hand]
    simp only [List.length_append, List.filter_append, List.length_singleton, List.filter_singleton,
      cond_false, List.append_nil]
    change w.calls.length + 1 = w.handed.length + 1 + (w.calls.filter Call.reprocessed).length
    omega
  | failed at_ loaded rebuilt handled
  | escalated at_ role canary answered condemns rebuilt handled
  | lost at_ role canary handled =>
    obtain ⟨pc, node, policy, metrics, state, generation, rfl⟩ := handled.frame
    exact hc

theorem balanced_step (hb : w.metrics.Balanced) (h : Transition cfg w e w') :
    w'.metrics.Balanced := by
  cases h with
  | close | refuse | cancel | tick | recordHash | prepare | publish | withdrawn | tooLate | retract | arrive
  | move | window | pickup | slotEmpty | claimed | initFailed | sent | eof | hold | retry | dequeue
  | rerun | unhold | hand | forwarded | filtered | unrouted => exact hb
  | @adopted _ _ attempts =>
    have hf := (w.policy.flushToDlq_spec .hotSwapDrain attempts w.metrics).2.2
    exact hb.of_unchanged (hf.trans ⟨rfl, rfl, rfl, rfl, rfl⟩)
  | @shutdown _ attempts =>
    exact hb.of_unchanged (w.policy.flushToDlq_spec .shutdown attempts w.metrics).2.2
  | failed _ _ _ handled | escalated _ _ _ _ _ _ handled | lost _ _ _ handled =>
    exact (hb.recordError _).of_unchanged handled.calls
  | rolledBack => exact hb.recordError _

end Steps

end World

section Runs

variable {cfg : LoopConfig} {setup : LoopSetup} {events : List Event} {w : World}

theorem runLoop_placed (h : runLoop cfg setup events = some w) : w.Placed :=
  runLoop_invariant World.Placed.step (.of_empty rfl rfl) h

theorem runLoop_accounted (h : runLoop cfg setup events = some w) : w.Accounted :=
  (runLoop_invariant (P := fun w => w.Placed ∧ w.Accounted)
    (fun hp ht => ⟨hp.1.step ht, hp.2.step hp.1 ht⟩) ⟨.of_empty rfl rfl, rfl⟩ h).2

theorem runLoop_inOrder (h : runLoop cfg setup events = some w) : w.InOrder :=
  (runLoop_invariant (P := fun w => w.Placed ∧ w.InOrder)
    (fun hp ht => ⟨hp.1.step ht, hp.2.step hp.1 ht⟩) ⟨.of_empty rfl rfl, rfl⟩ h).2

theorem runLoop_dequeuedTaken (h : runLoop cfg setup events = some w) : w.DequeuedTaken :=
  runLoop_invariant World.DequeuedTaken.step rfl h

theorem runLoop_flushed (h : runLoop cfg setup events = some w) : w.Flushed :=
  runLoop_invariant (fun hp ht => World.Flushed.step ht hp) (fun _ => nofun) h

/-- When a loop returns, each envelope it dequeued has ended in exactly one terminal counter. -/
theorem dequeued_eq_settled {result : Except WaferError Unit}
    (h : runLoop cfg setup events = some w) (hx : w.pc = .exited result) :
    w.input.metrics.dequeued =
      w.metrics.processed + w.metrics.filteredOut + w.metrics.skipped + w.metrics.exhaustedSkips +
        w.metrics.dlqSent + w.metrics.dlqLost + w.metrics.droppedOnRecovery +
        w.metrics.droppedOnTeardown := by
  have ha : w.input.metrics.dequeued = w.metrics.settled + w.outstanding := runLoop_accounted h
  have he := (runLoop_placed h).empty (by rw [hx]; rfl)
  have ho : w.outstanding = 0 := by
    simp [World.outstanding, runLoop_flushed h result hx, he.1, he.2, hx, Pc.inFlight]
  rw [ha, ho]
  rfl

end Runs

/-! A message that fails twice: retried after its backoff, then dead-lettered. -/

def poisonSetup : LoopSetup where
  node := .nativeTransform ⟨"parse", fun _ => .error ⟨"E", "missing field", true⟩⟩
  coherent := rfl
  capacity := 1
  policy := ⟨.skip, ⟨0, 0, .skip⟩, ⟨1, 1, .dlq⟩, .skip, 1⟩
  dlqSender := some {}
  hashes := fun _ => none

def poisonAnswer : Event := .returned .native ⟨⟨0, .ok⟩, fun _ => ⟨0, .ok⟩, {}, 0, {}⟩

def poisonRun : List Event :=
  [.arrive (.new "m" 0 "source" []), .close] ++ idleRound ++
  [.select .recv, .advance, poisonAnswer] ++ idleRound ++
  [.tick nsPerMs, .select .timer, .advance, .advance, .advance, poisonAnswer] ++ idleRound ++
  [.select .recv, .advance, .advance, .shutdown fun _ => ⟨0, .ok⟩]

theorem dequeued_eq_settled_poison :
    ∃ w, runTransformLoopWithConfig "parse" {} poisonSetup poisonRun = some w ∧
      w.metrics.retries = 1 ∧
      w.input.metrics.dequeued =
        w.metrics.processed + w.metrics.filteredOut + w.metrics.skipped + w.metrics.exhaustedSkips +
          w.metrics.dlqSent + w.metrics.dlqLost + w.metrics.droppedOnRecovery +
          w.metrics.droppedOnTeardown := by
  have hr : ∃ w, runTransformLoopWithConfig "parse" {} poisonSetup poisonRun = some w ∧
      w.metrics.retries = 1 ∧ w.pc = .exited (.ok ()) := ⟨_, rfl, rfl, rfl⟩
  obtain ⟨w, h, hm, hx⟩ := hr
  exact ⟨w, h, hm, dequeued_eq_settled h hx⟩

section Runs

variable {cfg : LoopConfig} {setup : LoopSetup} {events : List Event} {w : World}

/-- Every call is answered by one counter, every failure by one kind, and every call has the
envelope it was made for: a fresh one, a retry, or the message of a rollback. What was handed out
is what was taken from the queue and the retry buffer, but for an envelope still in hand. -/
theorem calls_accounted (h : runLoop cfg setup events = some w) :
    w.calls.length = w.metrics.processed + w.metrics.filteredOut + w.metrics.attemptsFailed +
        w.pc.inCall ∧
      w.metrics.attemptsFailed = w.metrics.trapsTotal + w.metrics.guestErrorsTotal ∧
      w.calls.length = (w.handed.filter Taken.fresh).length +
        (w.handed.filter fun taken => !taken.fresh).length +
        (w.calls.filter Call.reprocessed).length ∧
      w.taken = w.handed ++ w.inHand ∧ (∀ result, w.pc = .exited result → w.inHand = []) := by
  have hc : w.CallsAnswered := runLoop_invariant World.CallsAnswered.step rfl h
  have hb : w.metrics.Balanced := runLoop_invariant World.balanced_step rfl h
  have hh : w.CallsHanded := runLoop_invariant World.CallsHanded.step rfl h
  refine ⟨hc, hb, ?_, runLoop_inOrder h, fun result hx => ?_⟩
  · rw [hh, List.length_eq_length_filter_add Taken.fresh]
  · have he := (runLoop_placed h).empty (by rw [hx]; rfl)
    simp [World.inHand, he.1, hx, Pc.receivedTaken]

end Runs

theorem calls_accounted_poison :
    ∃ w, runTransformLoopWithConfig "parse" {} poisonSetup poisonRun = some w ∧
      w.calls.length = w.metrics.processed + w.metrics.filteredOut + w.metrics.attemptsFailed +
        w.pc.inCall ∧
      w.calls.length = 2 := by
  have hr : ∃ w, runTransformLoopWithConfig "parse" {} poisonSetup poisonRun = some w ∧
      w.calls.length = 2 := ⟨_, rfl, rfl⟩
  obtain ⟨w, h, hc⟩ := hr
  exact ⟨w, h, (calls_accounted h).1, hc⟩

end Wafer
