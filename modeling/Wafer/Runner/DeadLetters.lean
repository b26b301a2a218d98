import Wafer.Orchestrator.Pipeline
import Wafer.Runner.PolicyUse

/-!
# Dead letters of one node

The records a node got accepted by the dead-letter channel, and its counter of
them. Both grow together, by every operation of the policy and so by every step
of a loop; a node that has returned sends nothing more. On the other side the
queues count the records that their senders dead-lettered.

## Main results

- `NodeTask.step_grows`, `NodeTask.step_deadLettered`, `NodeTask.step_silent`
-/

namespace Wafer

namespace ErrorPolicyExecutor

variable {ex : ErrorPolicyExecutor} {envelope : RuntimeEnvelope} {m : NodeMetrics}

/-- The records the dead-letter channel accepted. -/
def dlqRecords (ex : ErrorPolicyExecutor) : List DlqEnvelope :=
  ex.dlqSender.elim [] DlqSender.accepted

/-- A record was accepted exactly if the action says so. -/
def Records (ex : ErrorPolicyExecutor) (r : ErrorPolicyAction × ErrorPolicyExecutor) : Prop :=
  ∃ more, r.2.dlqRecords = ex.dlqRecords ++ more ∧
    more.length = if r.1 = .dlqSent then 1 else 0

theorem Records.none {action : ErrorPolicyAction} {ex' : ErrorPolicyExecutor}
    (ha : action ≠ .dlqSent) (hs : ex'.dlqSender = ex.dlqSender) : ex.Records (action, ex') :=
  ⟨[], by simp [dlqRecords, hs], by simp [ha]⟩

theorem sendToDlq_records (ex : ErrorPolicyExecutor) (attempt : DlqAttempt)
    (envelope : RuntimeEnvelope) (category : Option ErrorCategory) (message : String) (count : Nat)
    (reason : DlqReason) :
    ex.Records (ex.sendToDlq attempt envelope category message count reason) := by
  unfold sendToDlq
  split
  · exact .none nofun rfl
  · next sender hs =>
    have hr : ex.dlqRecords = sender.accepted := by simp [dlqRecords, hs]
    dsimp only
    split
    · exact ⟨[_], (congrArg (· ++ [_]) hr).symm, rfl⟩
    · exact .none nofun rfl
    · exact .none nofun rfl

theorem tryRetry_records (ex : ErrorPolicyExecutor) (now : Nat) (attempt : DlqAttempt)
    (envelope : RuntimeEnvelope) (category : ErrorCategory) (message : String) :
    ex.Records (ex.tryRetry now attempt envelope category message) := by
  unfold tryRetry
  dsimp only
  split
  · split
    · exact .none nofun rfl
    · exact sendToDlq_records ..
    · exact .none nofun rfl
  · split
    · exact sendToDlq_records ..
    · exact .none nofun rfl

theorem timedOut_records (ex : ErrorPolicyExecutor) (attempt : DlqAttempt)
    (envelope : RuntimeEnvelope) (message : String) :
    ex.Records (ex.timedOut attempt envelope message) := by
  simp only [timedOut]
  split
  · exact .none (by rintro ⟨⟩) rfl
  · exact sendToDlq_records ..
  · exact .none (by rintro ⟨⟩) rfl

theorem handle_records (ex : ErrorPolicyExecutor) (now : Nat) (attempt : DlqAttempt)
    (error : WasmProcessError) (envelope : RuntimeEnvelope) :
    ex.Records (ex.handle now attempt error envelope) := by
  cases error with
  | badInput message =>
    simp only [handle]
    split
    · exact .none (by rintro ⟨⟩) rfl
    · exact sendToDlq_records ..
    · exact .none (by rintro ⟨⟩) rfl
  | dependencyFailed message => exact tryRetry_records ..
  | processingFailed message => exact tryRetry_records ..
  | timedOut => exact timedOut_records ..
  | trapped code message =>
    simp only [handle]
    split
    · exact timedOut_records ..
    · exact .none (by rintro ⟨⟩) rfl
  | unrecoverable message => exact .none (by rintro ⟨⟩) rfl

end ErrorPolicyExecutor

/-! ## Runs of a policy -/

namespace PolicyRun

variable {s t u : PolicyRun} {op : PolicyOp}

/-- The accepted records and their counter have grown by as much. -/
def Grows (s t : PolicyRun) : Prop :=
  ∃ more, t.executor.dlqRecords = s.executor.dlqRecords ++ more ∧
    t.metrics.dlqSent = s.metrics.dlqSent + more.length

theorem Grows.refl (s : PolicyRun) : s.Grows s := ⟨[], by simp, by simp⟩

theorem Grows.trans (h : s.Grows t) (h' : t.Grows u) : s.Grows u := by
  obtain ⟨more, hr, hs⟩ := h
  obtain ⟨more', hr', hs'⟩ := h'
  refine ⟨more ++ more', ?_, ?_⟩
  · rw [hr', hr, List.append_assoc]
  · rw [hs', hs, List.length_append]
    omega

/-- One dead-letter attempt with the counter it ends in. -/
theorem Grows.recordDlqFate {ex : ErrorPolicyExecutor}
    {r : ErrorPolicyAction × ErrorPolicyExecutor} (m : NodeMetrics) (h : ex.Records r) :
    Grows ⟨ex, m⟩ ⟨r.2, ErrorPolicyExecutor.recordDlqFate r.1 m⟩ := by
  obtain ⟨more, hr, hl⟩ := h
  refine ⟨more, hr, ?_⟩
  rw [hl]
  cases r.1 <;> rfl

theorem Grows.continueAfterPolicyAction {ex : ErrorPolicyExecutor}
    {r : ErrorPolicyAction × ErrorPolicyExecutor} (m : NodeMetrics) (h : ex.Records r) :
    Grows ⟨ex, m⟩ ⟨r.2, (Wafer.continueAfterPolicyAction r.1 m).2⟩ := by
  obtain ⟨more, hr, hl⟩ := h
  refine ⟨more, hr, ?_⟩
  rw [hl]
  cases r.1 <;> rfl

theorem flushEntries_grows (reason : DlqReason) (entries : List RetryEntry)
    (attempts : Nat → DlqAttempt) (ex : ErrorPolicyExecutor) (m : NodeMetrics) :
    Grows ⟨ex, m⟩ ⟨(ErrorPolicyExecutor.flushEntries reason entries attempts ex m).1,
      (ErrorPolicyExecutor.flushEntries reason entries attempts ex m).2⟩ := by
  induction entries generalizing attempts ex m with
  | nil => exact .refl _
  | cons entry entries ih =>
    refine Grows.trans (Grows.recordDlqFate m ?_) (ih _ _ _)
    exact ErrorPolicyExecutor.sendToDlq_records ..

theorem step_grows (h : step s op = some t) : s.Grows t := by
  cases op with
  | handle now attempt error envelope =>
    obtain rfl := Option.some.inj h
    exact .continueAfterPolicyAction _ (ErrorPolicyExecutor.handle_records ..)
  | retry now =>
    obtain ⟨r, hr, rfl⟩ := Option.map_eq_some_iff.mp h
    obtain ⟨p, hp, rfl⟩ := Option.map_eq_some_iff.mp hr
    exact ⟨[], by simp [ErrorPolicyExecutor.dlqRecords], by simp⟩
  | flush reason attempts =>
    obtain rfl := Option.some.inj h
    exact flushEntries_grows reason s.executor.retryBuffer.entries attempts _ _
  | condemn attempt envelope error =>
    obtain rfl := Option.some.inj h
    simp only [ErrorPolicyExecutor.recordCondemned]
    split
    · exact ⟨[], by simp, rfl⟩
    · exact .recordDlqFate _ (ErrorPolicyExecutor.sendToDlq_records ..)
  | count metrics =>
    simp only [step] at h
    split at h
    · next hm =>
      obtain rfl := Option.some.inj h
      exact ⟨[], by simp, by simpa using hm.1⟩
    · cases h

theorem Leads.grows (h : Leads s t) : s.Grows t := by
  obtain ⟨ops, ho⟩ := h
  exact Lib.exec_relation Grows.refl (fun _ _ _ => Grows.trans) (fun _ _ _ => step_grows) ho

end PolicyRun

/-! ## The loops -/

theorem InputQueue.recv_deadLettered {q rest : InputQueue} {envelope : RuntimeEnvelope}
    (h : q.recv = .message envelope rest) :
    rest.metrics.deadLettered = q.metrics.deadLettered := by
  obtain ⟨-, -, -, hm⟩ := recv_message h
  rw [hm]
  rfl

theorem InputQueue.send_deadLettered {q q' : InputQueue} {envelope : RuntimeEnvelope}
    (h : q.send envelope = some q') : q'.metrics.deadLettered = q.metrics.deadLettered := by
  simp only [send] at h
  split at h
  · obtain rfl := Option.some.inj h
    rfl
  · cases h

namespace World

variable {cfg : LoopConfig} {w w' : World} {e : Event}

theorem step_grows (h : step cfg w e = some w') : w.policyRun.Grows w'.policyRun :=
  (step_policyRun h).grows

/-- Only a sender that gives up counts a dead letter at the input queue. -/
theorem step_deadLettered (h : Transition cfg w e w') (he : ∀ r, e ≠ .refuse r) :
    w'.input.metrics.deadLettered = w.input.metrics.deadLettered := by
  cases h with
  | refuse => exact absurd rfl (he _)
  | arrive running room => exact InputQueue.send_deadLettered room
  | dequeue at_ message =>
    have hd := InputQueue.recv_deadLettered message
    exact hd
  | failed at_ loaded rebuilt handled =>
    obtain ⟨pc, node, policy, metrics, state, generation, rfl⟩ := handled.frame
    rfl
  | escalated at_ role canary_eq answered condemns rebuilt handled =>
    obtain ⟨pc, node, policy, metrics, state, generation, rfl⟩ := handled.frame
    rfl
  | lost at_ role canary_eq handled =>
    obtain ⟨pc, node, policy, metrics, state, generation, rfl⟩ := handled.frame
    rfl
  | _ => rfl

/-- A loop that has returned sends nothing more. -/
theorem step_exited {result : Except WaferError Unit} (hp : w.pc = .exited result)
    (h : Transition cfg w e w') : w'.pc = .exited result ∧ w'.policy = w.policy := by
  cases h with
  | arrive | close | refuse | cancel | tick | recordHash | prepare | publish | withdrawn | tooLate
  | retract => exact ⟨hp, rfl⟩
  | move moves =>
    cases moves with
    | noSwap at_ | ignored at_ | wait at_ | swapFirst at_ | retryNext at_ | drained at_ | idle at_
    | cancelled at_ | swap at_ | timer at_ =>
      rw [hp] at at_
      cases at_
  | _ at_ =>
    rw [hp] at at_
    cases at_

end World

namespace SinkLoop

variable {l l' : SinkLoop} {e : SinkEvent}

/-- A sink dead-letters nothing. -/
theorem step_quiet (h : l.step e = some l') (he : ∀ r, e ≠ .refuse r) :
    l'.metrics.dlqSent = l.metrics.dlqSent ∧
      l'.input.metrics.deadLettered = l.input.metrics.deadLettered := by
  cases e with
  | refuse r => exact absurd rfl (he r)
  | arrive envelope =>
    simp only [step] at h
    split at h
    · obtain ⟨input, hi, rfl⟩ := Option.map_eq_some_iff.mp h
      exact ⟨rfl, InputQueue.send_deadLettered hi⟩
    · cases h
  | close | cancel =>
    obtain rfl := Option.some.inj h
    exact ⟨rfl, rfl⟩
  | recv | tryRecv =>
    simp only [step] at h
    repeat' split at h
    all_goals first
      | (obtain rfl := Option.some.inj h
         exact ⟨rfl, InputQueue.recv_deadLettered (by assumption)⟩)
      | (obtain rfl := Option.some.inj h; exact ⟨rfl, rfl⟩)
      | cases h
  | collect answer =>
    simp only [step] at h
    split at h
    · obtain rfl := Option.some.inj h
      cases answer <;> exact ⟨rfl, rfl⟩
    · obtain rfl := Option.some.inj h
      exact ⟨rfl, rfl⟩
    · cases h
  | idle | stop | flush | finish =>
    simp only [step] at h
    repeat' split at h
    all_goals first
      | (obtain rfl := Option.some.inj h; exact ⟨rfl, rfl⟩)
      | cases h

end SinkLoop

namespace PassthroughLoop

variable {l l' : PassthroughLoop} {e : PassthroughEvent}

/-- A passthrough loop sends no record of its own. -/
theorem step_quiet (h : l.step e = some l') (he : ∀ r, e ≠ .refuse r) :
    l'.metrics.dlqSent = l.metrics.dlqSent ∧
      l'.input.metrics.deadLettered = l.input.metrics.deadLettered := by
  cases e with
  | refuse r => exact absurd rfl (he r)
  | arrive envelope =>
    simp only [step] at h
    split at h
    · obtain ⟨input, hi, rfl⟩ := Option.map_eq_some_iff.mp h
      exact ⟨rfl, InputQueue.send_deadLettered hi⟩
    · cases h
  | close | cancel =>
    obtain rfl := Option.some.inj h
    exact ⟨rfl, rfl⟩
  | recv | stop | sent =>
    simp only [step] at h
    repeat' split at h
    all_goals first
      | (obtain rfl := Option.some.inj h
         exact ⟨rfl, InputQueue.recv_deadLettered (by assumption)⟩)
      | (obtain rfl := Option.some.inj h; exact ⟨rfl, rfl⟩)
      | cases h

theorem step_exited (hp : l.pc = .exited) (h : l.step e = some l') : l'.pc = .exited := by
  cases e with
  | arrive envelope =>
    simp only [step, running, hp] at h
    cases h
  | close | refuse | cancel =>
    obtain rfl := Option.some.inj h
    exact hp
  | recv | stop | sent =>
    simp only [step, hp] at h
    cases h

end PassthroughLoop

namespace SourceLoop

variable {l l' : SourceLoop} {e : SourceEvent}

theorem step_quiet (h : l.step e = some l') : l'.metrics.dlqSent = l.metrics.dlqSent := by
  cases e with
  | cancel | tick =>
    obtain rfl := Option.some.inj h
    rfl
  | poll answer =>
    simp only [step] at h
    split at h
    · obtain rfl := Option.some.inj h
      cases answer with
      | item | eof => rfl
      | error message =>
        simp only [polled]
        split <;> rfl
    · cases h
  | wake | stop | sent | closed =>
    simp only [step] at h
    repeat' split at h
    all_goals first
      | (obtain rfl := Option.some.inj h; rfl)
      | cases h

theorem step_exited {result : Except WaferError Unit} (hp : l.pc = .exited result)
    (h : l.step e = some l') : l'.pc = .exited result := by
  cases e with
  | cancel | tick =>
    obtain rfl := Option.some.inj h
    exact hp
  | poll | wake | stop | sent | closed =>
    simp only [step, hp] at h
    cases h

end SourceLoop

/-! ## The tasks -/

namespace NodeTask

def metrics : NodeTask → NodeMetrics
  | source l _ => l.metrics
  | sink l => l.metrics
  | passthrough l => l.metrics
  | runner _ w => w.metrics

/-- The records the task's error policy got accepted. -/
def dlqRecords : NodeTask → List DlqEnvelope
  | runner _ w => w.policy.dlqRecords
  | _ => []

/-- The task holds a sender of the dead-letter channel: one in its error policy, or one in each of
its edges. A sink gets none, and a future that has completed is dropped. -/
def holdsDlqSender (t : NodeTask) (senders : List DownstreamSender) : Bool :=
  match t with
  | sink _ => false
  | runner .. => t.result.isNone
  | source .. | passthrough _ => t.result.isNone && !senders.isEmpty

variable {t t' : NodeTask} {i : TaskInput}

/-- The accepted records and their counter grow together. -/
theorem step_grows (h : t.step i = some t') : ∃ more,
    t'.dlqRecords = t.dlqRecords ++ more ∧
      t'.metrics.dlqSent = t.metrics.dlqSent + more.length := by
  cases task_step h with
  | source fired => exact ⟨[], rfl, SourceLoop.step_quiet fired⟩
  | refused | closed => exact ⟨[], rfl, rfl⟩
  | @sink l l' e _ fired =>
    by_cases he : ∃ r, e = .refuse r
    · obtain ⟨r, rfl⟩ := he
      obtain rfl := Option.some.inj fired
      exact ⟨[], rfl, rfl⟩
    · exact ⟨[], rfl, (SinkLoop.step_quiet fired (not_exists.mp he)).1⟩
  | @passthrough l l' e _ fired =>
    by_cases he : ∃ r, e = .refuse r
    · obtain ⟨r, rfl⟩ := he
      obtain rfl := Option.some.inj fired
      exact ⟨[], rfl, rfl⟩
    · exact ⟨[], rfl, (PassthroughLoop.step_quiet fired (not_exists.mp he)).1⟩
  | runner fired => exact World.step_grows fired

/-- Only a sender that gives up counts a dead letter at the input queue. -/
theorem step_deadLettered (h : t.step i = some t') (hi : ∀ r, i ≠ .refuse r) :
    t'.input.metrics.deadLettered = t.input.metrics.deadLettered := by
  cases task_step h with
  | source | closed => rfl
  | refused => exact absurd rfl (hi _)
  | sink fired input =>
    refine (SinkLoop.step_quiet fired ?_).2
    rintro r rfl
    exact hi r input.symm
  | passthrough fired input =>
    refine (PassthroughLoop.step_quiet fired ?_).2
    rintro r rfl
    exact hi r input.symm
  | runner fired input =>
    refine World.step_deadLettered (step_transition fired) ?_
    rintro r rfl
    exact hi r input.symm

theorem refuse_input {r : QueueMetrics.Refusal} (h : t.refuse r = some t') :
    t'.input = t.input.refuse r := by
  cases t <;> obtain rfl := Option.some.inj h <;> rfl

/-- A future that has completed holds nothing. -/
theorem holdsDlqSender_of_returned (hr : t.result.isNone = false)
    (senders : List DownstreamSender) : t.holdsDlqSender senders = false := by
  cases t with
  | sink => rfl
  | source | passthrough => simp [holdsDlqSender, hr]
  | runner => exact hr

/-- Only the task's own steps send records. -/
theorem step_dlqRecords (h : t.step i = some t') (hi : ∀ e, i ≠ .own e) :
    t'.dlqRecords = t.dlqRecords := by
  cases task_step h with
  | source | refused | closed | sink | passthrough => rfl
  | @runner cfg w w' e _ fired input =>
    cases step_transition fired with
    | arrive | close | refuse | cancel | move => rfl
    | _ => exact absurd input.symm (hi (.runner _))

/-- A task without a sender never gets one, and sends nothing. -/
theorem step_silent {senders : List DownstreamSender} (ht : t.holdsDlqSender senders = false)
    (h : t.step i = some t') :
    t'.holdsDlqSender senders = false ∧ t'.dlqRecords = t.dlqRecords := by
  cases task_step h with
  | @source l l' q e _ fired =>
    refine ⟨?_, rfl⟩
    cases hp : l.pc with
    | exited outcome => simp only [holdsDlqSender, result, SourceLoop.step_exited hp fired]; rfl
    | polling | backoff | sending | closing =>
      simp only [holdsDlqSender, result, hp, Option.isNone_none, Bool.true_and] at ht
      simp only [holdsDlqSender, ht, Bool.and_false]
  | refused | closed => exact ⟨ht, rfl⟩
  | sink => exact ⟨rfl, rfl⟩
  | @passthrough l l' e _ fired =>
    refine ⟨?_, rfl⟩
    cases hp : l.pc with
    | exited => simp only [holdsDlqSender, result, PassthroughLoop.step_exited hp fired]; rfl
    | receiving | sending =>
      simp only [holdsDlqSender, result, hp, Option.isNone_none, Bool.true_and] at ht
      simp only [holdsDlqSender, ht, Bool.and_false]
  | @runner cfg w w' e _ fired =>
    simp only [holdsDlqSender, result] at ht ⊢
    split at ht
    · next outcome hp =>
      obtain ⟨hp', hpol⟩ := World.step_exited hp (step_transition fired)
      simp only [hp', dlqRecords, hpol, Option.isNone_some, and_self]
    · cases ht

end NodeTask

end Wafer
