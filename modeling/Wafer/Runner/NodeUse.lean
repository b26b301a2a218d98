import Wafer.Node.Limits
import Wafer.Runner.HashRegistry

/-!
# The node under a loop

A loop changes its node by the operations of `ManagedNode` only: a replacement,
a call, a recovery, a rollback. So what holds for every run of a `ManagedNode`
holds for the node of every run of a loop.

## Main results

- `step_node` — what one loop step does to the node
- `runLoop_managed` — the node of a loop run is the node of a run of `ManagedNode`
-/

namespace Wafer

/-- The node after a call, whatever the call answered. -/
def LoadedNode.afterCall (role : Role) (node : LoadedNode) (envelope : RuntimeEnvelope)
    (answer : GuestAnswer) : Option LoadedNode :=
  match role with
  | .transform => (node.process envelope answer).map Prod.snd
  | .filter => (node.evaluate envelope answer).map Prod.snd
  | .router => (node.route answer).map Prod.snd

/-- What a failed call leaves: the node, or its recovery. -/
inductive Recovered (role : Role) (node : LoadedNode) : LoadedNode → Prop
  | kept : Recovered role node node
  | recovered (lc : Lifecycle) : Recovered role node (node.recoverFromCachedPre role lc).2

/-- What a step does to the node of a loop. -/
inductive NodeChange (cfg : LoopConfig) (w : World) : Event → LoadedNode → Prop
  | kept {e : Event} : NodeChange cfg w e w.node
  | replaced {id : Nat} {lc : Lifecycle} {attempts : Nat → DlqAttempt} (at_ : w.pc = .applying id) :
      NodeChange cfg w (.applied lc attempts)
        (World.tryReplace cfg.role w.node (w.requests id) lc).2.1
  | called {envelope : RuntimeEnvelope} {answer : GuestAnswer} {answers : FailureAnswers}
      {node node' : LoadedNode} (after : w.node.afterCall cfg.role envelope answer = some node)
      (recovered : Recovered cfg.role node node') :
      NodeChange cfg w (.returned answer answers) node'
  | rolledBack {envelope : RuntimeEnvelope} {answer : GuestAnswer} {answers : FailureAnswers}
      {node node' : LoadedNode} {pre : Pre} (role : cfg.role = .transform)
      (after : w.node.afterCall cfg.role envelope answer = some node)
      (recovered : Recovered cfg.role
        ((node.setCachedPre pre).recoverFromCachedPre cfg.role answers.rollback).2 node') :
      NodeChange cfg w (.returned answer answers) node'

namespace World

variable {cfg : LoopConfig} {w : World}

theorem recover_node (answers : FailureAnswers) : (w.recover cfg answers).node =
    (w.node.recoverFromCachedPre cfg.role answers.recovery).2 := by
  simp only [recover]
  split <;> rfl

theorem condemn_node (error : WasmProcessError) (envelope : RuntimeEnvelope)
    (answers : FailureAnswers) : (w.condemn cfg error envelope answers).node =
      (w.node.recoverFromCachedPre cfg.role answers.recovery).2 :=
  recover_node answers

theorem failCall_node (error : WasmProcessError) (envelope : RuntimeEnvelope)
    (answers : FailureAnswers) :
    Recovered cfg.role w.node (w.failCall cfg error envelope answers).node := by
  unfold failCall
  dsimp only
  split
  · -- the policy may tear the node down before it is rebuilt
    unfold recoverAfterTimeout
    dsimp only
    split
    · rw [recover_node]
      exact .recovered _
    · exact .kept
  · split
    · rw [condemn_node]
      exact .recovered _
    · exact .kept

theorem rollBack_node (canary : TransformCanaryState) (call : Call) (error : WasmProcessError)
    (answers : FailureAnswers) :
    Recovered cfg.role
      ((w.node.setCachedPre canary.snapshot).recoverFromCachedPre cfg.role answers.rollback).2
      (w.rollBack cfg canary call error answers).node := by
  unfold rollBack
  dsimp only
  split
  · exact .kept
  · unfold escalate
    dsimp only
    split
    · show Recovered _ _ (World.condemn _ _ _ _ _).node
      rw [condemn_node]
      exact .recovered _
    · rw [condemn_node]
      exact .recovered _

theorem applyPayload_node (id : Nat) (lc : Lifecycle) (attempts : Nat → DlqAttempt) :
    (w.applyPayload cfg id lc attempts).node =
      (tryReplace cfg.role w.node (w.requests id) lc).2.1 := by
  simp only [applyPayload]
  split <;> rfl

theorem dispatchTransform_node (call : Call) (answers : FailureAnswers)
    (result : Except WasmProcessError RuntimeEnvelope) :
    Recovered cfg.role w.node (w.dispatchTransform cfg call answers result).node ∨
      ∃ pre, Recovered cfg.role
        ((w.node.setCachedPre pre).recoverFromCachedPre cfg.role answers.rollback).2
        (w.dispatchTransform cfg call answers result).node := by
  cases result with
  | ok output => exact .inl .kept
  | error error =>
    simp only [dispatchTransform]
    split
    · next canary _ =>
      split
      · exact .inr ⟨canary.snapshot, rollBack_node canary call error answers⟩
      · exact .inl (failCall_node ..)
    · exact .inl (failCall_node ..)

theorem dispatchFilter_node (call : Call) (answers : FailureAnswers)
    (result : Except WasmProcessError FilterOutcome) :
    Recovered cfg.role w.node (w.dispatchFilter cfg call answers result).node := by
  match result with
  | .ok .forward => exact .kept
  | .ok .drop => exact .kept
  | .error error => exact failCall_node ..

theorem dispatchRouter_node (call : Call) (answers : FailureAnswers)
    (result : Except WasmProcessError RouteOutcome) :
    Recovered cfg.role w.node (w.dispatchRouter cfg call answers result).node := by
  match result with
  | .ok (.error e) => exact .kept
  | .ok (.ports []) => exact .kept
  | .ok (.ports (_ :: _)) => exact .kept
  | .error error => exact failCall_node ..

theorem returned_node {call : Call} {answer : GuestAnswer} {answers : FailureAnswers} {w' : World}
    (h : w.returned cfg call answer answers = some w') :
    NodeChange cfg w (.returned answer answers) w'.node := by
  cases hr : cfg.role with
  | transform =>
    simp only [returned, hr] at h
    obtain ⟨r, hp, rfl⟩ := Option.map_eq_some_iff.mp h
    have hc : w.node.afterCall cfg.role call.taken.envelope answer = some r.2 := by
      simp only [hr, LoadedNode.afterCall, hp, Option.map_some]
    rcases dispatchTransform_node (w := { w with node := r.2 }) call answers r.1 with
      hn | ⟨pre, hn⟩
    · exact .called hc hn
    · exact .rolledBack hr hc hn
  | filter =>
    simp only [returned, hr] at h
    obtain ⟨r, hp, rfl⟩ := Option.map_eq_some_iff.mp h
    have hc : w.node.afterCall cfg.role call.taken.envelope answer = some r.2 := by
      simp only [hr, LoadedNode.afterCall, hp, Option.map_some]
    exact .called hc (dispatchFilter_node (w := { w with node := r.2 }) call answers r.1)
  | router =>
    simp only [returned, hr] at h
    obtain ⟨r, hp, rfl⟩ := Option.map_eq_some_iff.mp h
    have hc : w.node.afterCall cfg.role call.taken.envelope answer = some r.2 := by
      simp only [hr, LoadedNode.afterCall, hp, Option.map_some]
    exact .called hc (dispatchRouter_node (w := { w with node := r.2 }) call answers r.1)

theorem restoreReplaced_replacement (canary : TransformCanaryState) (error : WasmProcessError)
    (id : Nat) : ((w.restoreReplaced canary error).requests id).replacement =
      (w.requests id).replacement := by
  by_cases hk : id = canary.swap
  · subst hk
    simp [restoreReplaced, setProgress]
  · simp [restoreReplaced, setProgress, Function.update_of_ne hk]

end World

theorem step_node {cfg : LoopConfig} {w w' : World} {e : Event} (h : step cfg w e = some w') :
    NodeChange cfg w e w'.node := by
  cases e with
  | returned answer answers =>
    simp only [step] at h
    split at h
    · exact World.returned_node h
    · cases h
  | applied lc attempts =>
    simp only [step] at h
    split at h
    · next id hp =>
      obtain rfl := Option.some.inj h
      rw [World.applyPayload_node]
      exact .replaced hp
    · cases h
  | _ => cases step_transition h <;> exact .kept

theorem Replaced.coherent {role : Role} {request : Request} {node node' : LoadedNode}
    {result : Except WaferError Unit} (h : Replaced role request node result node')
    (hc : node.Coherent) : node'.Coherent := by
  cases h with
  | reconfigured _ _ _ coherent | swapped _ _ _ _ coherent => exact coherent
  | kept => exact hc

theorem tryReplace_wasm (role : Role) (node : WasmNode) (request : Request) (lc : Lifecycle) :
    ∃ node', (World.tryReplace role (.wasm node) request lc).2.1 = .wasm node' := by
  unfold World.tryReplace World.tryApply
  split
  · exact ⟨_, rfl⟩
  · split
    · exact ⟨_, rfl⟩
    · dsimp only
      split <;> exact ⟨_, rfl⟩

/-- Requests keep their payload or lose it; only a preparation gives one. -/
theorem step_replacement {cfg : LoopConfig} {w w' : World} {e : Event} {id : Nat} {s : PreparedSwap}
    (h : Transition cfg w e w') (hs : (w'.requests id).replacement = some s) :
    (w.requests id).replacement = some s ∨ ∃ kind hash, e = .prepare id kind (some s) hash := by
  cases h with
  | arrive | close | refuse | cancel | tick | tooLate | retract | recordHash | move | window | pickup
  | slotEmpty | eof | hold | rerun | retry | dequeue | unhold | hand | shutdown | forwarded =>
    exact .inl hs
  | filtered | unrouted | sent =>
    refine .inl (Request.Continues.replacement ?_ s hs)
    exact World.reportTo_continues (fun p => p.markFirstOutcome_pluginHash w.now _) w
      w.pendingSwapProgress id
  | @prepare j kind replacement hash =>
    by_cases hj : id = j
    · subst hj
      simp only [World.prepare, Function.update_self] at hs
      exact .inr ⟨kind, hash, by rw [hs]⟩
    · simp only [World.prepare, Function.update_of_ne hj] at hs
      exact .inl hs
  | publish | withdrawn | claimed =>
    refine .inl (Request.Continues.replacement ?_ s hs)
    refine @Request.Continues.update w.requests _ _ ?_ id
    exact ⟨rfl, fun _ h => h, rfl⟩
  | @adopted j _ _ node left at_ replaced kept =>
    rw [World.adopt_requests] at hs
    by_cases hj : id = j
    · subst hj
      rw [Function.update_self] at hs
      exact .inl (kept s hs)
    · rw [Function.update_of_ne hj] at hs
      exact .inl hs
  | @initFailed j _ _ error left at_ kept =>
    by_cases hj : id = j
    · subst hj
      refine .inl (kept s ?_)
      simpa [World.failInit, World.setReplacement, World.reportTo, World.observe] using hs
    · left
      simpa [World.failInit, World.setReplacement, World.reportTo, World.observe,
        Function.update_of_ne hj] using hs
  | failed at_ loaded rebuilt handled =>
    obtain ⟨pc, node, policy, metrics, state, generation, rfl⟩ := handled.frame
    exact .inl hs
  | @rolledBack _ canary node node' error =>
    have hr : ((({ w with node } : World).restoreReplaced canary error).requests id).replacement =
        some s := by
      refine Request.Continues.replacement ?_ s hs
      exact World.reportTo_continues (fun p => p.reportRolledBack_pluginHash _ _) _
        w.pendingSwapProgress id
    rw [World.restoreReplaced_replacement] at hr
    exact .inl hr
  | @escalated _ canary node node' error _ _ _ _ at_ role canary_eq answered condemns rebuilt handled
  | @lost _ canary node node' error _ _ _ _ _ at_ role canary_eq handled =>
    obtain ⟨pc, node'', policy, metrics, state, generation, rfl⟩ := handled.frame
    have hr : ((({ w with node } : World).restoreReplaced canary error).requests id).replacement =
        some s := by
      refine Request.Continues.replacement ?_ s hs
      exact World.reportTo_continues (fun p => p.reportRolledBack_pluginHash _ _) _
        w.pendingSwapProgress id
    rw [World.restoreReplaced_replacement] at hr
    exact .inl hr

/-! ## The node of a loop run -/

/-- Payloads come from the swap preparation of the API, with the node's limits. -/
def Event.Prepares (l : Launched) : Event → Prop
  | .prepare _ _ (some replacement) _ => ∃ capabilities p runs,
    prepareSwap l.engine l.role l.nodeId capabilities
      (l.wasm.memoryLimit.getD (l.config.engine.memory.of l.role))
      (l.engine.fuelBudget l.role l.wasm.fuel) p = (.ok replacement, runs)
  | _ => True

/-- The loop's node is the node of a run from its launch, in which its payloads were prepared. -/
def World.Managed (l : Launched) (w : World) : Prop :=
  ∃ s, Lib.Reaches (ManagedNode.step l) (.start l) s ∧ w.node = .wasm s.node ∧
    ∀ id replacement, (w.requests id).replacement = some replacement → replacement ∈ s.prepared

section Managed

variable {l : Launched} {s : ManagedNode} {node : LoadedNode}

/-- The node is reached from `s` by operations that prepare nothing. -/
def ManagedNode.Leads (l : Launched) (s : ManagedNode) (node : LoadedNode) : Prop :=
  ∃ t, Lib.Reaches (ManagedNode.step l) s t ∧ node = .wasm t.node ∧ t.prepared = s.prepared

namespace ManagedNode.Leads

theorem refl : s.Leads l (.wasm s.node) := ⟨s, .refl, rfl, rfl⟩

theorem trans (h : s.Leads l node) {node' : LoadedNode}
    (hn : ∀ t : ManagedNode, node = .wasm t.node → t.Leads l node') : s.Leads l node' := by
  obtain ⟨t, ht, hnode, hp⟩ := h
  obtain ⟨u, hu, hnode', hp'⟩ := hn t hnode
  exact ⟨u, ht.trans hu, hnode', hp'.trans hp⟩

/-- One operation of the node. -/
theorem of_step {op : NodeOp} {α : Type} {r : (α × WasmNode) × List GuestRun}
    (h : ManagedNode.step l s op = some (s.after r)) : s.Leads l (.wasm r.1.2) :=
  ⟨_, Lib.Reaches.refl.tail h, rfl, rfl⟩

theorem recovered (h : Recovered l.role (.wasm s.node) node) : s.Leads l node := by
  cases h with
  | kept => exact .refl
  | recovered lc => exact @of_step l s (.recover lc) _ _ rfl

theorem called {envelope : RuntimeEnvelope} {answer : GuestAnswer}
    (h : (LoadedNode.wasm s.node).afterCall l.role envelope answer = some node) :
    s.Leads l node := by
  simp only [LoadedNode.afterCall] at h
  split at h
  · next hr =>
    cases answer with
    | process call =>
      obtain rfl := Option.some.inj h
      exact @of_step l s (.process call) _ _ (if_pos hr)
    | evaluate | route | native => cases h
  · next hr =>
    cases answer with
    | evaluate call =>
      obtain rfl := Option.some.inj h
      exact @of_step l s (.evaluate call) _ _ (if_pos hr)
    | process | route | native => cases h
  · next hr =>
    cases answer with
    | route call =>
      obtain rfl := Option.some.inj h
      exact @of_step l s (.route call) _ _ (if_pos hr)
    | process | evaluate | native => cases h

theorem replaced {request : Request} {lc : Lifecycle}
    (hp : ∀ replacement, request.replacement = some replacement → replacement ∈ s.prepared) :
    s.Leads l (World.tryReplace l.role (.wasm s.node) request lc).2.1 := by
  simp only [World.tryReplace]
  split
  · next config _ => exact @of_step l s (.reconfigure config lc) _ _ rfl
  · unfold World.tryApply
    split
    · exact .refl
    · dsimp only
      split
      · exact .refl
      · next replacement ht =>
        exact @of_step l s (.hotSwap replacement lc) _ _ (if_pos (hp replacement ht))

end ManagedNode.Leads

variable {cfg : LoopConfig} {w w' : World} {e : Event}

theorem NodeChange.leads (hr : cfg.role = l.role) (hw : w.node = .wasm s.node)
    (hp : ∀ id replacement, (w.requests id).replacement = some replacement →
      replacement ∈ s.prepared) (h : NodeChange cfg w e node) : s.Leads l node := by
  cases h with
  | kept => rw [hw]; exact .refl
  | replaced at_ => rw [hw, hr]; exact .replaced (hp _)
  | called after recovered =>
    rw [hw, hr] at after
    rw [hr] at recovered
    exact (ManagedNode.Leads.called after).trans fun t ht => .recovered (ht ▸ recovered)
  | @rolledBack envelope answer answers called node' pre role after recovered =>
    rw [hw, hr] at after
    rw [hr] at recovered role
    refine (ManagedNode.Leads.called after).trans fun t ht => ?_
    subst ht
    have hb : t.Leads l (((LoadedNode.wasm t.node).setCachedPre pre).recoverFromCachedPre l.role
        answers.rollback).2 :=
      @ManagedNode.Leads.of_step l t (.rollBack pre answers.rollback) _ _ (if_pos role)
    exact hb.trans fun u hu => .recovered (hu ▸ recovered)

theorem World.Managed.step (hr : cfg.role = l.role) (hm : w.Managed l) (he : e.Prepares l)
    (h : Wafer.step cfg w e = some w') : w'.Managed l := by
  obtain ⟨s, hs, hw, hp⟩ := hm
  obtain ⟨t, ht, hn, htp⟩ := (step_node h).leads hr hw hp
  by_cases hprep : ∃ id kind replacement hash, e = .prepare id kind (some replacement) hash
  · obtain ⟨id, kind, replacement, hash, rfl⟩ := hprep
    obtain ⟨capabilities, p, runs, hok⟩ := he
    have hstep : ManagedNode.step l t (.prepare capabilities p) = some { t with
        prepared := replacement :: t.prepared, swapRuns := runs ++ t.swapRuns } := by
      simp only [ManagedNode.step, hok]
    refine ⟨_, (hs.trans ht).tail hstep, hn, fun id' r hid => ?_⟩
    rcases step_replacement (step_transition h) hid with hold | ⟨kind', hash', heq⟩
    · exact List.mem_cons_of_mem _ (htp ▸ hp id' r hold)
    · obtain rfl := Option.some.inj (Event.prepare.inj heq).2.2.1
      exact List.mem_cons_self
  · refine ⟨t, hs.trans ht, hn, fun id replacement hid => htp ▸ ?_⟩
    rcases step_replacement (step_transition h) hid with hold | ⟨kind, hash, rfl⟩
    · exact hp id replacement hold
    · exact absurd ⟨id, kind, replacement, hash, rfl⟩ hprep

/-- In a loop over a launched node, the node is at every moment the node of a run from its launch:
what `ManagedNode` runs keep, the loops keep. -/
theorem runLoop_managed {setup : LoopSetup} {events : List Event} (hr : cfg.role = l.role)
    (hn : setup.node = .wasm l.node) (he : ∀ e ∈ events, e.Prepares l)
    (h : runLoop cfg setup events = some w) : w.Managed l := by
  refine Lib.exec_invariant_where (C := fun _ (e : Event) => e.Prepares l)
    (fun _ _ _ hm hc hs => World.Managed.step hr hm hc hs) h (.of_forall fun _ e hm => he e hm) ?_
  exact ⟨.start l, .refl, hn, fun _ _ h => nomatch h⟩

/-- The store a loop executes in has the capabilities of the launch and the configured limit. -/
theorem runLoop_limits {setup : LoopSetup} {events : List Event} (hr : cfg.role = l.role)
    (hn : setup.node = .wasm l.node) (he : ∀ e ∈ events, e.Prepares l)
    (h : runLoop cfg setup events = some w) : ∃ node, w.node = .wasm node ∧ node.Within l.sandbox := by
  obtain ⟨s, hs, hw, -⟩ := runLoop_managed hr hn he h
  exact ⟨s.node, hw, (hs.invariant (fun _ _ _ hg ht => ManagedNode.Guarded.step hg ht)
    (ManagedNode.guarded_start l)).node⟩

end Managed

end Wafer
