import Wafer.Runner.Loop

/-!
# What one step of a runner loop can do

`step_transition` says once what a step can do: every enabled event is one of
the constructors of `Transition`, with the guards the loop checked. Failure
handling has many branches; `Handled` is the part of it later proofs need.

## Main definitions

- `World.Handled` — counters, buffer and node after an error arm
- `Replaced` — what applying a payload did to the node
- `Moves`, `Transition` — the steps of a loop
-/

namespace Wafer

namespace LoadedNode

variable {node : LoadedNode} {envelope : RuntimeEnvelope} {answer : GuestAnswer}

theorem process_frame {r : Except WasmProcessError RuntimeEnvelope × LoadedNode}
    (h : node.process envelope answer = some r) :
    r.2.loaded = node.loaded ∧ r.2.rebuilt = node.rebuilt := by
  simp only [process] at h
  split at h
  · next w call =>
    obtain rfl := Option.some.inj h
    obtain ⟨hb, hc, hj⟩ := w.callGuest_frame call
    simp only [loaded, rebuilt, WasmNode.loaded, hb, hc, hj, and_self]
  · obtain rfl := Option.some.inj h
    exact ⟨rfl, rfl⟩
  · cases h

theorem evaluate_frame {r : Except WasmProcessError FilterOutcome × LoadedNode}
    (h : node.evaluate envelope answer = some r) :
    r.2.loaded = node.loaded ∧ r.2.rebuilt = node.rebuilt := by
  simp only [evaluate] at h
  split at h
  · next w call =>
    obtain rfl := Option.some.inj h
    obtain ⟨hb, hc, hj⟩ := w.callGuest_frame call
    simp only [loaded, rebuilt, WasmNode.loaded, hb, hc, hj, and_self]
  · obtain rfl := Option.some.inj h
    exact ⟨rfl, rfl⟩
  · cases h

theorem route_frame {r : Except WasmProcessError RouteOutcome × LoadedNode}
    (h : node.route answer = some r) :
    r.2.loaded = node.loaded ∧ r.2.rebuilt = node.rebuilt := by
  simp only [route] at h
  split at h
  · next w call =>
    obtain rfl := Option.some.inj h
    obtain ⟨hb, hc, hj⟩ := w.callGuest_frame call
    simp only [loaded, rebuilt, WasmNode.loaded, hb, hc, hj, and_self]
  · cases h

end LoadedNode

/-! ## Failure handling -/

namespace World

/-- Failure handling settled or buffered `n` envelopes. It kept what a rebuild runs and moved
nothing outside node, policy, counters and state. -/
structure Handled (n : Nat) (w w' : World) : Prop where
  frame : ∃ pc node policy metrics state generation,
    w' = { w with pc, node, policy, metrics, state, generation }
  pc : w'.pc = .top ∨ ∃ e, w'.pc = .closing (.error e)
  accounted : w'.metrics.settled + w'.policy.pendingRetries =
    w.metrics.settled + w.policy.pendingRetries + n
  calls : w.metrics.CallsUnchanged w'.metrics
  rebuilt : w'.node.rebuilt = w.node.rebuilt
  coherent : w.node.Coherent → w'.pc = .top → w'.node.Coherent
  later : w.generation ≤ w'.generation
  buffered : ∀ entry ∈ w'.policy.retryBuffer.entries,
    entry ∈ w.policy.retryBuffer.entries ∨ 0 < entry.envelope.retryCount

section Failures

variable {cfg : LoopConfig} {w w' w'' : World} {error : WasmProcessError}
  {envelope : RuntimeEnvelope} {answers : FailureAnswers} {m n : Nat}

theorem Handled.trans (h : Handled m w w') (ht : w'.pc = .top) (h' : Handled n w' w'') :
    Handled (m+n) w w'' where
  frame := by
    obtain ⟨pc, node, policy, metrics, state, generation, rfl⟩ := h.frame
    obtain ⟨pc', node', policy', metrics', state', generation', rfl⟩ := h'.frame
    exact ⟨pc', node', policy', metrics', state', generation', rfl⟩
  pc := h'.pc
  accounted := by have := h.accounted; have := h'.accounted; omega
  calls := h.calls.trans h'.calls
  rebuilt := h'.rebuilt.trans h.rebuilt
  coherent hc := h'.coherent (h.coherent hc ht)
  later := h.later.trans h'.later
  buffered entry he := (h'.buffered entry he).elim (h.buffered entry) .inr

theorem applyPolicy_handled (w : World) (error : WasmProcessError) (envelope : RuntimeEnvelope)
    (answers : FailureAnswers) : Handled 1 w (w.applyPolicy error envelope answers) where
  frame := ⟨_, _, _, _, _, _, rfl⟩
  pc := by
    simp only [applyPolicy]
    split
    · exact .inl rfl
    · exact .inr ⟨_, rfl⟩
  accounted := ErrorPolicyExecutor.handle_accounted ..
  calls := ErrorPolicyExecutor.continueAfterPolicyAction_calls ..
  rebuilt := rfl
  coherent hc _ := hc
  later := le_rfl
  buffered entry he := by
    rcases ErrorPolicyExecutor.handle_decided w.policy w.now answers.policyAttempt error envelope
      with ⟨added, -, raised, entries⟩ | ⟨-, entries⟩
    · simp only [applyPolicy, entries, RetryBuffer.push, List.mem_append, List.mem_singleton] at he
      refine he.imp_right ?_
      rintro rfl
      rw [raised]
      exact lt_min (Nat.succ_pos _) (by decide)
    · simp only [applyPolicy, entries] at he
      exact .inl he

theorem recover_handled (cfg : LoopConfig) (w : World) (answers : FailureAnswers) :
    Handled 0 w (w.recover cfg answers) := by
  simp only [recover]
  generalize hr : w.node.recoverFromCachedPre cfg.role answers.recovery = r
  obtain ⟨result, node⟩ := r
  obtain ⟨hb, hl⟩ := LoadedNode.recoverFromCachedPre_spec hr
  cases result with
  | ok u =>
    exact ⟨⟨_, _, _, _, _, _, rfl⟩, .inl rfl, rfl, ⟨rfl, rfl, rfl, rfl, rfl⟩, hb,
      fun _ _ => (hl rfl).trans hb.symm, Nat.le_succ _, fun entry he => .inl he⟩
  | error e =>
    obtain ⟨hf, hs, hc⟩ := w.policy.flushToDlq_spec .recoveryFailed answers.flushAttempts w.metrics
    refine ⟨⟨_, _, _, _, _, _, rfl⟩, .inr ⟨_, rfl⟩, ?_, hc, hb, fun _ => nofun, Nat.le_succ _, ?_⟩
    · simp only [hs, ErrorPolicyExecutor.flushToDlq_pending, Nat.add_zero]
    · simp [hf]

/-- The loop only goes on with an instance of the cached pre. -/
theorem recover_coherent (h : (w.recover cfg answers).pc = .top) :
    (w.recover cfg answers).node.Coherent := by
  simp only [recover] at h ⊢
  generalize hr : w.node.recoverFromCachedPre cfg.role answers.recovery = r at h ⊢
  obtain ⟨result, node⟩ := r
  obtain ⟨hb, hl⟩ := LoadedNode.recoverFromCachedPre_spec hr
  cases result with
  | ok u => exact (hl rfl).trans hb.symm
  | error e => exact absurd h nofun

theorem recoverAfterTimeout_handled (cfg : LoopConfig) (w : World) (error : WasmProcessError)
    (envelope : RuntimeEnvelope) (answers : FailureAnswers) :
    Handled 1 w (w.recoverAfterTimeout cfg error envelope answers) := by
  have h := w.applyPolicy_handled error envelope answers
  unfold recoverAfterTimeout
  dsimp only
  split
  · next ht => exact h.trans ht (recover_handled ..)
  · exact h

theorem condemn_handled (cfg : LoopConfig) (w : World) (error : WasmProcessError)
    (envelope : RuntimeEnvelope) (answers : FailureAnswers) :
    Handled 1 w (w.condemn cfg error envelope answers) := by
  obtain ⟨hb, hs, hc⟩ := w.policy.recordCondemned_spec answers.policyAttempt envelope error w.metrics
  have h := recover_handled cfg { w with
    policy := (w.policy.recordCondemned answers.policyAttempt envelope error w.metrics).1,
    metrics := (w.policy.recordCondemned answers.policyAttempt envelope error w.metrics).2 } answers
  obtain ⟨pc, node, policy, metrics, state, generation, hf⟩ := h.frame
  refine ⟨⟨pc, node, policy, metrics, state, generation, hf⟩, h.pc, h.accounted.trans ?_,
    hc.trans h.calls, h.rebuilt, h.coherent, h.later, fun entry he => ?_⟩
  · simp only [hs, ErrorPolicyExecutor.pendingRetries, hb]
    omega
  · exact (h.buffered entry he).imp_left fun he => by simpa only [hb] using he

theorem condemn_coherent (h : (w.condemn cfg error envelope answers).pc = .top) :
    (w.condemn cfg error envelope answers).node.Coherent :=
  recover_coherent h

theorem failCall_handled (cfg : LoopConfig) (w : World) (error : WasmProcessError)
    (envelope : RuntimeEnvelope) (answers : FailureAnswers) :
    Handled 1 { w with metrics := w.metrics.recordError error }
      (w.failCall cfg error envelope answers) := by
  unfold failCall
  dsimp only
  split
  · exact recoverAfterTimeout_handled ..
  · split
    · exact condemn_handled ..
    · exact applyPolicy_handled ..

end Failures

end World

/-! ## Replacement -/

/-- What applying a payload did to the node. -/
inductive Replaced (role : Role) (request : Request) (node : LoadedNode) :
    Except WaferError Unit → LoadedNode → Prop
  | reconfigured {config : String} {pre : Pre} {old : String} {node' : LoadedNode}
      (kind : request.kind = .reconfigure config) (before : node.rebuilt = some (pre, old))
      (after : node'.loaded = some (pre, config)) (coherent : node'.Coherent) :
      Replaced role request node (.ok ()) node'
  | swapped {replacement : PreparedSwap} {pre : Pre} {config : String} {node' : LoadedNode}
      (kind : request.kind = role.payloadKind) (taken : request.replacement = some replacement)
      (before : node.rebuilt = some (pre, config))
      (after : node'.loaded = some (replacement.pre, config)) (coherent : node'.Coherent) :
      Replaced role request node (.ok ()) node'
  | kept (e : WaferError) : Replaced role request node (.error e) node

theorem Role.payloadKind_ne_reconfigure (role : Role) (config : String) :
    role.payloadKind ≠ .reconfigure config := by
  cases role <;> exact nofun

theorem tryReconfigure_replaced {role : Role} {request : Request} {config : String}
    (hk : request.kind = .reconfigure config) (node : LoadedNode) (lc : Lifecycle) :
    Replaced role request node (node.tryReconfigure role config lc).1
      (node.tryReconfigure role config lc).2 := by
  cases node with
  | wasm w =>
    simp only [LoadedNode.tryReconfigure]
    generalize hr : w.tryReconfigure role config lc = r
    obtain ⟨result, w'⟩ := r
    have hs := WasmNode.tryReconfigure_spec hr
    rcases result with e | u
    · obtain rfl := hs.2 nofun
      exact .kept e
    · obtain ⟨hp, hc, hj⟩ := hs.1 rfl
      have hb : (LoadedNode.wasm w).rebuilt = some (w.cachedPre, w.configJson) := rfl
      exact .reconfigured hk hb
        (by simp [LoadedNode.loaded, WasmNode.loaded, hp, hj])
        (LoadedNode.coherent_wasm.mpr (hp.trans hc.symm))
  | nativeTransform n => exact .kept _
  | nativeFilter n => exact .kept _

theorem tryApply_replaced (role : Role) (request : Request) (node : LoadedNode) (lc : Lifecycle) :
    Replaced role request node (World.tryApply role node request lc).1
      (World.tryApply role node request lc).2.1 := by
  simp only [World.tryApply]
  split
  · exact .kept _
  next hk =>
  cases node with
  | nativeTransform n => exact .kept _
  | nativeFilter n => exact .kept _
  | wasm w =>
    cases ht : request.replacement with
    | none => exact .kept _
    | some replacement =>
      dsimp only
      generalize hr : w.tryHotSwap role replacement lc = r
      obtain ⟨result, w'⟩ := r
      obtain ⟨hj, hok, herr⟩ := WasmNode.tryHotSwap_spec hr
      rcases result with e | u
      · obtain rfl := herr nofun
        exact .kept e
      · obtain ⟨hp, hc⟩ := hok rfl
        have hb : (LoadedNode.wasm w).rebuilt = some (w.cachedPre, w.configJson) := rfl
        exact .swapped (not_ne_iff.mp hk) ht hb
          (by simp [LoadedNode.loaded, WasmNode.loaded, hp, hj])
          (LoadedNode.coherent_wasm.mpr (hp.trans hc.symm))

theorem tryReplace_replaced (role : Role) (request : Request) (node : LoadedNode)
    (lc : Lifecycle) :
    Replaced role request node (World.tryReplace role node request lc).1
      (World.tryReplace role node request lc).2.1 := by
  simp only [World.tryReplace]
  split
  · next hk => exact tryReconfigure_replaced hk node lc
  · exact tryApply_replaced role request node lc

/-- An attempt to apply a payload leaves its prepared instance or nothing. -/
theorem tryReplace_left {role : Role} {request : Request} {node : LoadedNode} {lc : Lifecycle}
    {s : PreparedSwap} (h : (World.tryReplace role node request lc).2.2 = some s) :
    request.replacement = some s := by
  simp only [World.tryReplace, World.tryApply] at h
  split at h
  · exact h
  · split at h
    · exact h
    · split at h
      · split at h <;> exact absurd h nofun
      · exact h

namespace World

variable {cfg : LoopConfig} (w : World) (id : Nat) (left : Option PreparedSwap)

@[simp] theorem setReplacement_request : (w.setReplacement id left).requests id =
    { w.requests id with replacement := left } :=
  Function.update_self ..

/-- The payload's slot plays no part in the canary. -/
theorem adopt_canary (node : LoadedNode) (attempts : Nat → DlqAttempt) :
    ((w.setReplacement id left).adopt cfg id node attempts).canary = armCanary cfg w id := by
  change armCanary cfg (w.setReplacement id left) id = _
  simp only [armCanary, setReplacement_request]
  rfl

theorem adopt_requests (node : LoadedNode) (attempts : Nat → DlqAttempt) :
    ((w.setReplacement id left).adopt cfg id node attempts).requests =
      Function.update w.requests id { w.requests id with
        replacement := left
        progress := ((w.requests id).progress.markReplacementAdopted w.now w.hashes).1 } := by
  simp [adopt, setProgress, setReplacement, observe]

theorem adopt_hashes (node : LoadedNode) (attempts : Nat → DlqAttempt) :
    ((w.setReplacement id left).adopt cfg id node attempts).hashes =
      ((w.requests id).progress.markReplacementAdopted w.now w.hashes).2 := by
  simp [adopt, setProgress, setReplacement, observe]

theorem adopt_trace (node : LoadedNode) (attempts : Nat → DlqAttempt) :
    ((w.setReplacement id left).adopt cfg id node attempts).trace =
      .adopted ⟨id, (w.requests id).kind, w.now, w.node.loaded, w.generation⟩ :: w.trace := by
  change Obs.adopted ⟨id, ((w.setReplacement id left).requests id).kind, _, _, _⟩ :: _ = _
  rw [setReplacement_request]
  rfl

end World

/-! ## Steps -/

/-- The envelope a successful call sends on. -/
def LoadedNode.emitted (role : Role) (node : LoadedNode) (envelope : RuntimeEnvelope)
    (answer : GuestAnswer) : Option RuntimeEnvelope :=
  match role with
  | .transform =>
    match node.process envelope answer with
    | some (.ok output, _) => some output
    | _ => none
  | .filter =>
    match node.evaluate envelope answer with
    | some (.ok .forward, _) => some envelope
    | _ => none
  | .router =>
    match node.route answer with
    | some (.ok (.ports (_ :: _)), _) => some (envelope.setParentId envelope.header.id)
    | _ => none

/-- Steps that only move the program counter. -/
inductive Moves (w : World) : Event → Pc → Prop
  | noSwap (at_ : w.pc = .swapCheck) (rerun : w.rollbackRetry = none) (seen : w.unseen = false) :
      Moves w .advance .waiting
  | ignored {id : Nat} (at_ : w.pc = .claiming id)
      (claim : (w.requests id).progress.claim ≠ .pending) : Moves w .advance .waiting
  | wait (at_ : w.pc = .waiting) (held : w.held = none) : Moves w .advance .recvTop
  | swapFirst (at_ : w.pc = .recvTop) (seen : w.unseen = true) : Moves w .advance .top
  | retryNext (at_ : w.pc = .recvTop) (seen : w.unseen = false) : Moves w .advance .recvRetry
  | drained (at_ : w.pc = .recvRetry) (eof : w.eof = true) (empty : w.policy.pendingRetries = 0) :
      Moves w .advance (.closing (.ok ()))
  | idle (at_ : w.pc = .recvRetry) : Moves w .advance .recvSelect
  | cancelled (at_ : w.pc = .recvSelect) (cancelled : w.cancelled = true) :
      Moves w (.select .cancelled) (.closing (.ok ()))
  | swap (at_ : w.pc = .recvSelect) (seen : w.unseen = true) : Moves w (.select .swap) .top
  | timer (at_ : w.pc = .recvSelect) : Moves w (.select .timer) .recvTop

/-- Everything a step can do, with the guards it passed. -/
inductive Transition (cfg : LoopConfig) (w : World) : Event → World → Prop
  | arrive {envelope : RuntimeEnvelope} {input : InputQueue} (running : w.running = true)
      (room : w.input.send envelope = some input) :
      Transition cfg w (.arrive envelope) { w with input }
  | close : Transition cfg w .close { w with input := { w.input with closed := true } }
  | refuse {r : QueueMetrics.Refusal} :
      Transition cfg w (.refuse r) { w with input := w.input.refuse r }
  | cancel : Transition cfg w .cancel { w with cancelled := true }
  | tick {ns : Nat} : Transition cfg w (.tick ns) { w with now := w.now+ns }
  | recordHash {nodeId hash : String} (other : nodeId ≠ cfg.nodeId) :
      Transition cfg w (.recordHash nodeId hash)
        { w with hashes := Function.update w.hashes nodeId (some hash) }
  | prepare {id : Nat} {kind : PayloadKind} {replacement : Option PreparedSwap}
      {hash : Option String} (status : (w.requests id).status = .unprepared) :
      Transition cfg w (.prepare id kind replacement hash)
        (w.prepare cfg.nodeId id kind replacement hash)
  | publish {id : Nat} (status : (w.requests id).status = .prepared) (running : w.running = true) :
      Transition cfg w (.publish id) (w.publish id)
  | withdrawn {id : Nat} (status : (w.requests id).status ≠ .unprepared)
      (claim : (w.requests id).progress.claim = .pending) :
      Transition cfg w (.withdraw id)
        ((w.setProgress id { (w.requests id).progress with claim := .withdrawn }).observe
          (.withdrawn id))
  | tooLate {id : Nat} (claim : (w.requests id).progress.claim ≠ .pending) :
      Transition cfg w (.withdraw id) w
  | retract {id : Nat} (claim : (w.requests id).progress.claim = .withdrawn) :
      Transition cfg w (.retract id) (w.retract id)
  | move {e : Event} {pc : Pc} (moves : Moves w e pc) : Transition cfg w e { w with pc }
  | window (at_ : w.pc = .top) : Transition cfg w .advance w.checkWindow
  | rerun {taken : Taken} (at_ : w.pc = .swapCheck) (rerun : w.rollbackRetry = some taken) :
      Transition cfg w .advance ({ w with rollbackRetry := none }.startCall taken true)
  | pickup {id : Nat} (at_ : w.pc = .swapCheck) (rerun : w.rollbackRetry = none)
      (seen : w.unseen = true) (slot : w.slot = some id) :
      Transition cfg w .advance { w with unseen := false, pc := .claiming id }
  | slotEmpty (at_ : w.pc = .swapCheck) (rerun : w.rollbackRetry = none) (seen : w.unseen = true)
      (slot : w.slot = none) : Transition cfg w .advance { w with unseen := false, pc := .waiting }
  | claimed {id : Nat} (at_ : w.pc = .claiming id)
      (claim : (w.requests id).progress.claim = .pending) :
      Transition cfg w .advance
        ({ w.setProgress id { (w.requests id).progress with claim := .runner } with
          pc := .applying id }.observe (.claimed id))
  | adopted {id : Nat} {lc : Lifecycle} {attempts : Nat → DlqAttempt} {node : LoadedNode}
      {left : Option PreparedSwap} (at_ : w.pc = .applying id)
      (replaced : Replaced cfg.role (w.requests id) w.node (.ok ()) node)
      (kept : ∀ s, left = some s → (w.requests id).replacement = some s)
      (succeeded : (World.tryReplace cfg.role w.node (w.requests id) lc).1 = .ok ()) :
      Transition cfg w (.applied lc attempts) ((w.setReplacement id left).adopt cfg id node attempts)
  | initFailed {id : Nat} {lc : Lifecycle} {attempts : Nat → DlqAttempt} {e : WaferError}
      {left : Option PreparedSwap} (at_ : w.pc = .applying id)
      (kept : ∀ s, left = some s → (w.requests id).replacement = some s) :
      Transition cfg w (.applied lc attempts) ((w.setReplacement id left).failInit id e)
  | unhold {taken : Taken} (at_ : w.pc = .waiting) (held : w.held = some taken) :
      Transition cfg w .advance ({ w with held := none }.hand taken)
  | retry {envelope : RuntimeEnvelope} {policy : ErrorPolicyExecutor} (at_ : w.pc = .recvRetry)
      (ready : w.policy.nextReadyRetry w.now = some (envelope, policy)) :
      Transition cfg w .advance
        ({ w with policy, pc := .received ⟨envelope, .retry, w.pendingRequest⟩ }.observe
          (.retryTaken ⟨envelope, .retry, w.pendingRequest⟩))
  | dequeue {envelope : RuntimeEnvelope} {input : InputQueue} (at_ : w.pc = .recvSelect)
      (message : w.input.recv = .message envelope input) :
      Transition cfg w (.select .recv)
        ({ w with input, pc := .received ⟨envelope, .fresh, w.pendingRequest⟩ }.observe
          (.dequeued ⟨envelope, .fresh, w.pendingRequest⟩))
  | eof (at_ : w.pc = .recvSelect) (closed : w.input.recv = .closed) :
      Transition cfg w (.select .recv) { w with eof := true, pc := .recvTop }
  | hold {taken : Taken} (at_ : w.pc = .received taken) (seen : w.unseen = true) :
      Transition cfg w .advance { w with held := some taken, pc := .top }
  | hand {taken : Taken} (at_ : w.pc = .received taken) (seen : w.unseen = false) :
      Transition cfg w .advance (w.hand taken)
  | forwarded {call : Call} {out : Outgoing} {node : LoadedNode} {answer : GuestAnswer}
      {answers : FailureAnswers} (at_ : w.pc = .calling call) (loaded : node.loaded = w.node.loaded)
      (rebuilt : node.rebuilt = w.node.rebuilt)
      (emitted : w.node.emitted cfg.role call.taken.envelope answer = some out.envelope) :
      Transition cfg w (.returned answer answers) ({ w with node }.forward call out)
  | filtered {call : Call} {node : LoadedNode} {answer : GuestAnswer} {answers : FailureAnswers}
      (at_ : w.pc = .calling call) (loaded : node.loaded = w.node.loaded)
      (rebuilt : node.rebuilt = w.node.rebuilt) :
      Transition cfg w (.returned answer answers)
        ({ w with node, metrics := w.metrics.recordFilteredOut }.markOutcome .filterDropped)
  | unrouted {call : Call} {node : LoadedNode} {answer : GuestAnswer} {answers : FailureAnswers}
      (at_ : w.pc = .calling call) (loaded : node.loaded = w.node.loaded)
      (rebuilt : node.rebuilt = w.node.rebuilt) :
      Transition cfg w (.returned answer answers)
        ({ w with node, metrics := w.metrics.recordProcessed }.markOutcome .routerDropped)
  | failed {call : Call} {node : LoadedNode} {error : WasmProcessError} {answer : GuestAnswer}
      {answers : FailureAnswers} {w' : World} (at_ : w.pc = .calling call)
      (loaded : node.loaded = w.node.loaded) (rebuilt : node.rebuilt = w.node.rebuilt)
      (handled : World.Handled 1 { w with node, metrics := w.metrics.recordError error } w') :
      Transition cfg w (.returned answer answers) w'
  | rolledBack {call : Call} {canary : TransformCanaryState} {node node' : LoadedNode}
      {error : WasmProcessError} {answer : GuestAnswer} {answers : FailureAnswers}
      (at_ : w.pc = .calling call) (role : cfg.role = .transform)
      (canary_eq : w.canary = some canary)
      (answered : w.node.process call.taken.envelope answer = some (.error error, node))
      (condemns : error.condemns = true) (loaded : node'.loaded = node'.rebuilt)
      (rebuilt : node'.rebuilt = (node.setCachedPre canary.snapshot).rebuilt) :
      Transition cfg w (.returned answer answers)
        ({ { w with node }.restoreReplaced canary error with
          node := node', generation := w.generation+1 }.resume call error answers.rollbackNs)
  | escalated {call : Call} {canary : TransformCanaryState} {node node' : LoadedNode}
      {error : WasmProcessError} {failure : WaferError} {answer : GuestAnswer}
      {answers : FailureAnswers} {w' : World} (at_ : w.pc = .calling call)
      (role : cfg.role = .transform) (canary_eq : w.canary = some canary)
      (answered : w.node.process call.taken.envelope answer = some (.error error, node))
      (condemns : error.condemns = true)
      (rebuilt : node'.rebuilt = (node.setCachedPre canary.snapshot).rebuilt)
      (handled : World.Handled 1
        { ({ { w with node }.restoreReplaced canary error with
            node := node', generation := w.generation+1 }.reportTo w.pendingSwapProgress
            (·.reportRolledBack 0 ("rollback failed: " ++ failure.toString))) with
          pendingSwapProgress := none } w')
      (running : w'.pc = .top) (coherent : w'.node.Coherent) :
      Transition cfg w (.returned answer answers) (w'.observe (.rolledBack call w'.node.loaded))
  | lost {call : Call} {canary : TransformCanaryState} {node node' : LoadedNode}
      {error : WasmProcessError} {failure : WaferError} {answer : GuestAnswer}
      {answers : FailureAnswers} {w' : World} {e : WaferError} (at_ : w.pc = .calling call)
      (role : cfg.role = .transform) (canary_eq : w.canary = some canary)
      (handled : World.Handled 1
        { ({ { w with node }.restoreReplaced canary error with
            node := node', generation := w.generation+1 }.reportTo w.pendingSwapProgress
            (·.reportRolledBack 0 ("rollback failed: " ++ failure.toString))) with
          pendingSwapProgress := none } w')
      (stopped : w'.pc = .closing (.error e)) : Transition cfg w (.returned answer answers) w'
  | sent {call : Call} {out : Outgoing} (at_ : w.pc = .sending call out) :
      Transition cfg w .sent w.sent
  | shutdown {result : Except WaferError Unit} {attempts : Nat → DlqAttempt}
      (at_ : w.pc = .closing result) :
      Transition cfg w (.shutdown attempts) (w.shutdown result attempts)

section Inversion

variable {cfg : LoopConfig} {w w' : World}

theorem advance_transition (h : w.advance = some w') : Transition cfg w .advance w' := by
  simp only [World.advance] at h
  split at h
  case h_1 hp =>
    obtain rfl := Option.some.inj h
    exact .window hp
  case h_2 hp =>
    obtain rfl := Option.some.inj h
    simp only [World.checkSwap]
    split
    · next hr => exact .rerun hp hr
    next hr =>
    simp only [World.takePendingSwap]
    split
    · next hu =>
      split
      · next hs => exact .pickup hp hr hu hs
      · next hs => exact .slotEmpty hp hr hu hs
    · next hu => exact .move (.noSwap hp hr (Bool.eq_false_iff.mpr hu))
  case h_3 id hp =>
    obtain rfl := Option.some.inj h
    simp only [World.claim, HotSwapProgress.tryClaim]
    cases hc : (w.requests id).progress.claim with
    | pending => exact .claimed hp hc
    | runner => exact .move (.ignored hp (by rw [hc]; rintro ⟨⟩))
    | withdrawn => exact .move (.ignored hp (by rw [hc]; rintro ⟨⟩))
  case h_4 hp =>
    obtain rfl := Option.some.inj h
    simp only [World.nextInput]
    split
    · next hh => exact .unhold hp hh
    · next hh => exact .move (.wait hp hh)
  case h_5 hp =>
    obtain rfl := Option.some.inj h
    simp only [World.pollSwap]
    split
    · next hu => exact .move (.swapFirst hp hu)
    · next hu => exact .move (.retryNext hp (Bool.eq_false_iff.mpr hu))
  case h_6 hp =>
    obtain rfl := Option.some.inj h
    simp only [World.pollRetry]
    split
    · next hn => exact .retry hp hn
    · split
      · next hc =>
        refine .move (.drained hp hc.1 ?_)
        have := List.min?_eq_none_iff.mp hc.2
        simpa [ErrorPolicyExecutor.pendingRetries] using this
      · exact .move (.idle hp)
  case h_7 taken hp =>
    obtain rfl := Option.some.inj h
    simp only [World.recheck]
    split
    · next hu => exact .hold hp hu
    · next hu => exact .hand hp (Bool.eq_false_iff.mpr hu)
  case h_8 => cases h

theorem select_transition {branch : Branch} (hp : w.pc = .recvSelect)
    (h : w.selectBranch branch = some w') : Transition cfg w (.select branch) w' := by
  cases branch with
  | cancelled =>
    simp only [World.selectBranch] at h
    split at h
    · next hc =>
      obtain rfl := Option.some.inj h
      exact .move (.cancelled hp hc)
    · exact absurd h nofun
  | recv =>
    simp only [World.selectBranch] at h
    split at h
    · exact absurd h nofun
    · split at h
      · next hm =>
        obtain rfl := Option.some.inj h
        exact .dequeue hp hm
      · next hc =>
        obtain rfl := Option.some.inj h
        exact .eof hp hc
      · exact absurd h nofun
  | swap =>
    simp only [World.selectBranch] at h
    split at h
    · next hu =>
      obtain rfl := Option.some.inj h
      exact .move (.swap hp hu)
    · exact absurd h nofun
  | timer =>
    simp only [World.selectBranch] at h
    split at h
    · split at h
      · obtain rfl := Option.some.inj h
        exact .move (.timer hp)
      · exact absurd h nofun
    · exact absurd h nofun

theorem applied_transition {id : Nat} (hp : w.pc = .applying id) (lc : Lifecycle)
    (attempts : Nat → DlqAttempt) :
    Transition cfg w (.applied lc attempts) (w.applyPayload cfg id lc attempts) := by
  have hr := tryReplace_replaced cfg.role (w.requests id) w.node lc
  have hl : ∀ s, (World.tryReplace cfg.role w.node (w.requests id) lc).2.2 = some s →
      (w.requests id).replacement = some s := fun _ => tryReplace_left
  simp only [World.applyPayload]
  generalize hv : World.tryReplace cfg.role w.node (w.requests id) lc = r at hr hl ⊢
  obtain ⟨result, node, left⟩ := r
  rcases result with e | u
  · cases hr
    exact .initFailed hp hl
  · exact .adopted hp hr hl (congrArg Prod.fst hv)

theorem failCall_transition {call : Call} {node : LoadedNode} {error : WasmProcessError}
    {answer : GuestAnswer} {answers : FailureAnswers} (hp : w.pc = .calling call)
    (hn : node.loaded = w.node.loaded ∧ node.rebuilt = w.node.rebuilt) :
    Transition cfg w (.returned answer answers)
      ({ w with node }.failCall cfg error call.taken.envelope answers) :=
  .failed hp hn.1 hn.2 (World.failCall_handled cfg { w with node } error _ answers)

theorem rollBack_transition {call : Call} {canary : TransformCanaryState} {node : LoadedNode}
    {error : WasmProcessError} {answer : GuestAnswer} {answers : FailureAnswers}
    (hp : w.pc = .calling call) (hr : cfg.role = .transform) (hc : w.canary = some canary)
    (ha : w.node.process call.taken.envelope answer = some (.error error, node))
    (he : error.condemns = true) :
    Transition cfg w (.returned answer answers)
      ({ w with node }.rollBack cfg canary call error answers) := by
  unfold World.rollBack
  dsimp only
  generalize hv : ({ w with node }.restoreReplaced canary error).node.recoverFromCachedPre cfg.role
    answers.rollback = r
  obtain ⟨result, node'⟩ := r
  obtain ⟨hb, hl⟩ := LoadedNode.recoverFromCachedPre_spec hv
  rcases result with failure | u
  · unfold World.escalate
    dsimp only
    split
    · next ht =>
      exact .escalated hp hr hc ha he hb (World.condemn_handled ..) ht
        (World.condemn_coherent ht)
    · next ht =>
      have hh := World.condemn_handled cfg
        { ({ { w with node }.restoreReplaced canary error with
            node := node', generation := w.generation+1 }.reportTo w.pendingSwapProgress
            (·.reportRolledBack 0 ("rollback failed: " ++ failure.toString))) with
          pendingSwapProgress := none } error call.taken.envelope answers
      obtain ⟨e, hs⟩ := hh.pc.resolve_left ht
      exact .lost hp hr hc hh hs
  · exact .rolledBack hp hr hc ha he ((hl rfl).trans hb.symm) hb

theorem returned_transition {call : Call} {answer : GuestAnswer} {answers : FailureAnswers}
    (hp : w.pc = .calling call) (h : w.returned cfg call answer answers = some w') :
    Transition cfg w (.returned answer answers) w' := by
  simp only [World.returned] at h
  split at h
  · next hr =>
    obtain ⟨⟨result, node⟩, ha, rfl⟩ := Option.map_eq_some_iff.mp h
    have hn := LoadedNode.process_frame ha
    rcases result with error | output
    · simp only [World.dispatchTransform]
      split
      · next canary hc =>
        split
        · next he => exact rollBack_transition hp hr hc ha he
        · exact failCall_transition hp hn
      · exact failCall_transition hp hn
    · exact .forwarded hp hn.1 hn.2 (by simp [LoadedNode.emitted, hr, ha])
  · next hr =>
    obtain ⟨⟨result, node⟩, ha, rfl⟩ := Option.map_eq_some_iff.mp h
    have hn := LoadedNode.evaluate_frame ha
    rcases result with error | outcome
    · exact failCall_transition hp hn
    · cases outcome with
      | forward => exact .forwarded hp hn.1 hn.2 (by simp [LoadedNode.emitted, hr, ha])
      | drop => exact .filtered hp hn.1 hn.2
  · next hr =>
    obtain ⟨⟨result, node⟩, ha, rfl⟩ := Option.map_eq_some_iff.mp h
    have hn := LoadedNode.route_frame ha
    rcases result with error | outcome
    · exact failCall_transition hp hn
    · cases outcome with
      | error e => exact .failed hp hn.1 hn.2 (World.applyPolicy_handled ..)
      | ports names =>
        cases names with
        | nil => exact .unrouted hp hn.1 hn.2
        | cons name names => exact .forwarded hp hn.1 hn.2 (by simp [LoadedNode.emitted, hr, ha])

/-- Every enabled event is one of the transitions. -/
theorem step_transition {e : Event} (h : step cfg w e = some w') : Transition cfg w e w' := by
  cases e with
  | arrive envelope =>
    simp only [step] at h
    split at h
    · next hr =>
      obtain ⟨input, hi, rfl⟩ := Option.map_eq_some_iff.mp h
      exact .arrive hr hi
    · exact absurd h nofun
  | close => obtain rfl := Option.some.inj h; exact .close
  | refuse r => obtain rfl := Option.some.inj h; exact .refuse
  | cancel => obtain rfl := Option.some.inj h; exact .cancel
  | tick ns => obtain rfl := Option.some.inj h; exact .tick
  | recordHash nodeId hash =>
    simp only [step] at h
    split at h
    · next ho =>
      obtain rfl := Option.some.inj h
      exact .recordHash ho
    · exact absurd h nofun
  | prepare id kind replacement hash =>
    simp only [step] at h
    split at h
    · next hs =>
      obtain rfl := Option.some.inj h
      exact .prepare hs
    · exact absurd h nofun
  | publish id =>
    simp only [step] at h
    split at h
    · next hs =>
      obtain rfl := Option.some.inj h
      exact .publish hs.1 hs.2
    · exact absurd h nofun
  | withdraw id =>
    simp only [step] at h
    split at h
    · next hs =>
      obtain rfl := Option.some.inj h
      simp only [World.withdraw, HotSwapProgress.tryWithdraw]
      cases hc : (w.requests id).progress.claim with
      | pending => exact .withdrawn hs hc
      | runner => exact .tooLate (by rw [hc]; nofun)
      | withdrawn => exact .tooLate (by rw [hc]; nofun)
    · exact absurd h nofun
  | retract id =>
    simp only [step] at h
    split at h
    · next hc =>
      obtain rfl := Option.some.inj h
      exact .retract hc
    · exact absurd h nofun
  | advance => exact advance_transition h
  | select branch =>
    simp only [step] at h
    split at h
    · next hp => exact select_transition hp h
    · exact absurd h nofun
  | applied lc attempts =>
    simp only [step] at h
    split at h
    · next id hp =>
      obtain rfl := Option.some.inj h
      exact applied_transition hp lc attempts
    · exact absurd h nofun
  | returned answer answers =>
    simp only [step] at h
    split at h
    · next call hp => exact returned_transition hp h
    · exact absurd h nofun
  | sent =>
    simp only [step] at h
    split at h
    · next call out hp =>
      obtain rfl := Option.some.inj h
      exact .sent hp
    · exact absurd h nofun
  | shutdown attempts =>
    simp only [step] at h
    split at h
    · next result hp =>
      obtain rfl := Option.some.inj h
      exact .shutdown hp
    · exact absurd h nofun

/-- The trace only grows. -/
theorem Transition.trace_suffix {e : Event} (h : Transition cfg w e w') : w.trace <:+ w'.trace := by
  cases h with
  | arrive | close | refuse | cancel | tick | recordHash | prepare | tooLate | retract | move | window
  | slotEmpty | eof | hold | shutdown | pickup | filtered | unrouted | sent => exact List.suffix_rfl
  | publish | withdrawn | claimed | adopted | initFailed | rerun | retry | dequeue | forwarded
  | rolledBack => exact List.suffix_cons ..
  | unhold | hand => exact (List.suffix_cons ..).trans (List.suffix_cons ..)
  | failed at_ loaded rebuilt handled | lost at_ role canary handled =>
    obtain ⟨pc, node, policy, metrics, state, generation, rfl⟩ := handled.frame
    exact List.suffix_rfl
  | escalated at_ role canary answered condemns rebuilt handled =>
    obtain ⟨pc, node, policy, metrics, state, generation, rfl⟩ := handled.frame
    exact List.suffix_cons ..

/-- Only a call that traps or is unrecoverable while a canary is held is rolled back. What runs
afterwards is the canary's snapshot with the node's configuration. -/
theorem Transition.of_rolledBack {e : Event} {call : Call} {after : Option (Pre × String)}
    (h : Transition cfg w e w') (ht : w'.trace = .rolledBack call after :: w.trace) :
    cfg.role = .transform ∧ w.pc = .calling call ∧ w'.node.loaded = after ∧ w'.canary = none ∧
      ∃ canary answer answers error node, w.canary = some canary ∧ e = .returned answer answers ∧
        w.node.process call.taken.envelope answer = some (.error error, node) ∧
        error.condemns = true ∧ after = w.node.rebuilt.map fun r => (canary.snapshot, r.2) := by
  cases h with
  | arrive | close | refuse | cancel | tick | recordHash | prepare | tooLate | retract | move | window
  | slotEmpty | eof | hold | shutdown | pickup | filtered | unrouted | sent =>
    exact absurd ht.symm (List.cons_ne_self _ _)
  | publish | withdrawn | claimed | adopted | initFailed | rerun | retry | dequeue | forwarded
  | unhold | hand => exact absurd (List.cons.inj ht).1 nofun
  | failed at_ loaded rebuilt handled | lost at_ role canary handled =>
    obtain ⟨pc, node, policy, metrics, state, generation, rfl⟩ := handled.frame
    exact absurd ht.symm (List.cons_ne_self _ _)
  | @rolledBack _ canary node node' error answer answers at_ role canary_eq answered condemns loaded
    rebuilt =>
    obtain ⟨rfl, rfl⟩ := Obs.rolledBack.inj (List.cons.inj ht).1
    refine ⟨role, at_, rfl, rfl, canary, answer, answers, error, node, canary_eq, rfl, answered,
      condemns, ?_⟩
    rw [← (LoadedNode.process_frame answered).2, ← LoadedNode.rebuilt_setCachedPre, ← rebuilt]
    exact loaded
  | @escalated _ canary node node' error _ answer answers _ at_ role canary_eq answered condemns
    rebuilt handled running coherent =>
    have hb := handled.rebuilt
    obtain ⟨pc, node', policy, metrics, state, generation, rfl⟩ := handled.frame
    obtain ⟨rfl, rfl⟩ := Obs.rolledBack.inj (List.cons.inj ht).1
    refine ⟨role, at_, rfl, rfl, canary, answer, answers, error, node, canary_eq, rfl, answered,
      condemns, ?_⟩
    rw [← (LoadedNode.process_frame answered).2, ← LoadedNode.rebuilt_setCachedPre, ← rebuilt]
    exact coherent.trans hb

/-- A replacement that does not validate or initialise changes neither node nor canary. -/
theorem Transition.of_initFailed {e : Event} {id : Nat} (h : Transition cfg w e w')
    (ht : w'.trace = .initFailed id :: w.trace) : w'.node = w.node ∧ w'.canary = w.canary := by
  cases h with
  | arrive | close | refuse | cancel | tick | recordHash | prepare | tooLate | retract | move | window
  | slotEmpty | eof | hold | shutdown | pickup | filtered | unrouted | sent =>
    exact absurd ht.symm (List.cons_ne_self _ _)
  | publish | withdrawn | claimed | adopted | rerun | retry | dequeue | forwarded | unhold | hand
  | rolledBack | escalated => exact absurd (List.cons.inj ht).1 nofun
  | failed at_ loaded rebuilt handled | lost at_ role canary handled =>
    obtain ⟨pc, node, policy, metrics, state, generation, rfl⟩ := handled.frame
    exact absurd ht.symm (List.cons_ne_self _ _)
  | initFailed => exact ⟨rfl, rfl⟩

theorem trace_suffix_of_reaches (h : Lib.Reaches (step cfg) w w') : w.trace <:+ w'.trace :=
  Lib.exec_relation (R := fun w w' : World => w.trace <:+ w'.trace) (fun _ => List.suffix_rfl)
    (fun _ _ _ => List.IsSuffix.trans) (fun _ _ _ hs => (step_transition hs).trace_suffix) h.choose_spec

/-- A property of the entered loop that every transition keeps holds after every run. -/
theorem runLoop_invariant {P : World → Prop} {setup : LoopSetup} {events : List Event}
    (hstep : ∀ {w e w'}, P w → Transition cfg w e w' → P w') (h0 : P (World.start cfg setup))
    (h : runLoop cfg setup events = some w) : P w :=
  Lib.exec_invariant (fun _ _ _ hp hs => hstep hp (step_transition hs)) h h0

end Inversion

end Wafer
