import Wafer.Runner.PolicyRuns
import Wafer.Runner.Transition

/-!
# The error policy under a loop

Every step of a loop is, for its error policy and the counters, a few
operations of a `PolicyRun`: a handled failure, a retry taken out, a flush on
adoption, shutdown or failed recovery, a condemned message. So what holds for
every run of a policy holds for the policy of every run of a loop.

## Main results

- `runLoop_policyRun`
-/

namespace Wafer

namespace PolicyRun

/-- Some operations lead from the one to the other. -/
abbrev Leads (s t : PolicyRun) : Prop := Lib.Reaches step s t

variable {ex : ErrorPolicyExecutor} {m m' : NodeMetrics}

theorem Leads.count (hs : m'.dlqSent = m.dlqSent) (hl : m'.dlqLost = m.dlqLost) :
    Leads ⟨ex, m⟩ ⟨ex, m'⟩ := by
  refine Lib.Reaches.refl.tail (e := .count m') ?_
  rw [step, if_pos ⟨hs, hl⟩]

theorem Leads.error (error : WasmProcessError) : Leads ⟨ex, m⟩ ⟨ex, m.recordError error⟩ := by
  apply Leads.count
  all_goals
    unfold NodeMetrics.recordError
    dsimp only
    split
    · rfl
    · split <;> rfl

end PolicyRun

namespace World

open PolicyRun

variable {cfg : LoopConfig} {w w' : World} {error : WasmProcessError} {envelope : RuntimeEnvelope}
  {answers : FailureAnswers} {call : Call}

/-- The error policy of the loop, with the node's counters. -/
def policyRun (w : World) : PolicyRun := ⟨w.policy, w.metrics⟩

theorem applyPolicy_leads :
    Leads w.policyRun (w.applyPolicy error envelope answers).policyRun :=
  Lib.Reaches.refl.tail (e := .handle w.now answers.policyAttempt error envelope) rfl

theorem recover_leads : Leads w.policyRun (w.recover cfg answers).policyRun := by
  unfold recover
  dsimp only
  split
  · apply Leads.count <;> rfl
  · exact Lib.Reaches.refl.tail (e := .flush .recoveryFailed answers.flushAttempts) rfl

theorem condemn_leads : Leads w.policyRun (w.condemn cfg error envelope answers).policyRun := by
  refine Lib.Reaches.trans ?_ recover_leads
  exact Lib.Reaches.refl.tail (e := .condemn answers.policyAttempt envelope error) rfl

theorem recoverAfterTimeout_leads :
    Leads w.policyRun (w.recoverAfterTimeout cfg error envelope answers).policyRun := by
  unfold recoverAfterTimeout
  dsimp only
  split
  · exact applyPolicy_leads.trans recover_leads
  · exact applyPolicy_leads

theorem failCall_leads : Leads w.policyRun (w.failCall cfg error envelope answers).policyRun := by
  have herror : Leads w.policyRun ⟨w.policy, w.metrics.recordError error⟩ := .error error
  unfold failCall
  dsimp only
  split
  · exact herror.trans
      (recoverAfterTimeout_leads (w := { w with metrics := w.metrics.recordError error }))
  · split
    · exact herror.trans (condemn_leads (w := { w with metrics := w.metrics.recordError error }))
    · exact herror.trans
        (applyPolicy_leads (w := { w with metrics := w.metrics.recordError error }))

theorem resume_leads {rollbackNs : Nat} :
    Leads w.policyRun (w.resume call error rollbackNs).policyRun := by
  unfold resume
  dsimp only
  apply Leads.count <;> split <;> rfl

theorem escalate_leads {failure : WaferError} :
    Leads w.policyRun (w.escalate cfg call error failure answers).policyRun := by
  let reported : World :=
    { w.reportTo w.pendingSwapProgress
        (·.reportRolledBack 0 ("rollback failed: " ++ failure.toString)) with
      pendingSwapProgress := none }
  have hcondemn := @condemn_leads cfg reported error call.taken.envelope answers
  refine Lib.Reaches.trans ?_ (hcondemn.trans ?_)
  · exact .refl
  · rw [escalate]
    split <;> exact .refl

theorem rollBack_leads (canary : TransformCanaryState) :
    Leads w.policyRun (w.rollBack cfg canary call error answers).policyRun := by
  have herror : Leads w.policyRun (w.restoreReplaced canary error).policyRun := .error error
  rw [rollBack]
  generalize w.restoreReplaced canary error = restored at herror
  refine herror.trans ?_
  let rebuilt : World :=
    { restored with
      node := (restored.node.recoverFromCachedPre cfg.role answers.rollback).2
      generation := w.generation + 1 }
  show Leads rebuilt.policyRun _
  split
  · exact resume_leads
  · exact escalate_leads

theorem returned_leads {answer : GuestAnswer} (h : w.returned cfg call answer answers = some w') :
    Leads w.policyRun w'.policyRun := by
  simp only [returned] at h
  split at h
  · obtain ⟨r, -, rfl⟩ := Option.map_eq_some_iff.mp h
    cases r.1 with
    | ok output => apply Leads.count <;> rfl
    | error error =>
      unfold dispatchTransform
      dsimp only
      split
      · split
        · exact rollBack_leads (w := { w with node := r.2 }) _
        · exact failCall_leads (w := { w with node := r.2 })
      · exact failCall_leads (w := { w with node := r.2 })
  · obtain ⟨r, -, rfl⟩ := Option.map_eq_some_iff.mp h
    cases r.1 with
    | ok verdict =>
      cases verdict with
      | forward => apply Leads.count <;> rfl
      | drop => apply Leads.count <;> rfl
    | error error => exact failCall_leads (w := { w with node := r.2 })
  · obtain ⟨r, -, rfl⟩ := Option.map_eq_some_iff.mp h
    cases r.1 with
    | ok routing =>
      cases routing with
      | error e =>
        refine Lib.Reaches.trans (Leads.error (.processingFailed e.message)) ?_
        exact applyPolicy_leads (w := { w with
          node := r.2, metrics := w.metrics.recordError (.processingFailed e.message) })
      | ports ports =>
        cases ports with
        | nil => apply Leads.count <;> rfl
        | cons port more => apply Leads.count <;> rfl
    | error error => exact failCall_leads (w := { w with node := r.2 })

theorem applyPayload_leads {id : Nat} {lc : Lifecycle} {attempts : Nat → DlqAttempt} :
    Leads w.policyRun (w.applyPayload cfg id lc attempts).policyRun := by
  unfold applyPayload
  dsimp only
  split
  · have hflush : Leads w.policyRun
        ⟨(w.policy.flushToDlq .hotSwapDrain attempts w.metrics).1,
          (w.policy.flushToDlq .hotSwapDrain attempts w.metrics).2⟩ :=
      Lib.Reaches.refl.tail (e := .flush .hotSwapDrain attempts) rfl
    refine hflush.trans ?_
    apply Leads.count <;> rfl
  · exact .refl

end World

theorem step_policyRun {cfg : LoopConfig} {w w' : World} {e : Event} (h : step cfg w e = some w') :
    PolicyRun.Leads w.policyRun w'.policyRun := by
  cases e with
  | returned answer answers =>
    simp only [step] at h
    split at h
    · exact World.returned_leads h
    · cases h
  | applied lc attempts =>
    simp only [step] at h
    split at h
    · obtain rfl := Option.some.inj h
      exact World.applyPayload_leads
    · cases h
  | shutdown attempts =>
    cases step_transition h with
    | shutdown => exact Lib.Reaches.refl.tail (e := .flush .shutdown attempts) rfl
    | move moves => cases moves
  | advance =>
    cases step_transition h with
    | retry at_ ready =>
      refine Lib.Reaches.refl.tail (e := .retry w.now) ?_
      show (w.policy.nextReadyRetry w.now).map _ = _
      rw [ready]
      rfl
    | _ => exact .refl
  | _ => cases step_transition h <;> exact .refl

/-- The policy and the counters of a loop are those of a run of the policy. -/
theorem runLoop_policyRun {cfg : LoopConfig} {setup : LoopSetup} {events : List Event} {w : World}
    (h : runLoop cfg setup events = some w) :
    PolicyRun.Leads ⟨.new setup.policy setup.dlqSender cfg.nodeId, {}⟩ w.policyRun :=
  Lib.exec_relation (R := fun w w' : World => PolicyRun.Leads w.policyRun w'.policyRun)
    (fun _ => .refl) (fun _ _ _ => .trans) (fun _ _ _ hs => step_policyRun hs) h

/-- The loop of a node without dead-letter sink counts no dead letter as sent. -/
theorem runLoop_sends_nothing {toposort : Toposort} {config : Config} {cfg : LoopConfig}
    {setup : LoopSetup} {events : List Event} {w : World} {policy : ErrorPolicyConfig}
    (hv : config.validate toposort = .ok ()) (hd : config.deadLetter = none)
    (hn : config.effectiveErrorPolicy cfg.nodeId = some policy)
    (hp : setup.policy = config.resolveErrorPolicy cfg.nodeId) (hs : setup.dlqSender = none)
    (h : runLoop cfg setup events = some w) : w.metrics.dlqSent = 0 := by
  obtain ⟨ops, ho⟩ := runLoop_policyRun h
  have hstart : PolicyRun.NoSink ⟨.new setup.policy setup.dlqSender cfg.nodeId, {}⟩ :=
    ⟨hs, hp ▸ Config.dlqFree_of_validate hv hd hn⟩
  refine (Lib.exec_invariant (P := fun s : PolicyRun => s.NoSink ∧ s.metrics.dlqSent = 0)
    (fun s op t hns hst => ?_) ho ⟨hstart, rfl⟩).2
  obtain ⟨ht, hsent, -⟩ := hns.1.step hst
  exact ⟨ht, hsent.trans hns.2⟩

end Wafer
