import Wafer.Dag.Graph
import Wafer.Lib.Execution
import Wafer.Runner.ErrorPolicy

/-!
# Runs of an error policy

An `ErrorPolicyExecutor` with the counters of its node, under any sequence of
failures, retries, flushes and condemned messages. Without a dead-letter sink
every attempt to dead-letter is a loss. Validation refuses the actions that ask
for one, but a full retry buffer and a flush attempt it all the same.

## Main results

- `PolicyRun.no_dead_letters` — when a node without dead-letter sink loses nothing
-/

namespace Wafer

def ResolvedSimpleAction.ofConfig : SimpleAction → ResolvedSimpleAction
  | .skip => .skip
  | .dlq => .dlq
  | .teardown => .teardown

def ResolvedRetryConfig.ofConfig (value : RetryConfig) : ResolvedRetryConfig :=
  ⟨value.retries, value.backoffMs, .ofConfig value.exhausted⟩

def ResolvedErrorPolicy.ofConfig (value : ErrorPolicyConfig) : ResolvedErrorPolicy where
  badInput := .ofConfig value.badInput
  dependencyFailed := .ofConfig value.dependencyFailed
  processingFailed := .ofConfig value.processingFailed
  timedOut := .ofConfig value.timedOut
  retryBufferCapacity := value.retryBufferCapacity

/-- `resolve_error_policy`: the node's own policy beats the pipeline's. -/
def Config.resolveErrorPolicy (config : Config) (nodeId : String) : ResolvedErrorPolicy :=
  .ofConfig ((config.effectiveErrorPolicy nodeId).getD config.errorPolicy)

/-- The executor `build_pipeline` makes for a processing node: without a `dead_letter` table there
is no dead-letter channel. -/
def Config.errorPolicyExecutor (config : Config) (nodeId : String) : ErrorPolicyExecutor :=
  .new (config.resolveErrorPolicy nodeId) (config.deadLetter.map fun _ => {}) nodeId

/-- No action of the policy asks for the dead-letter queue. -/
structure ResolvedErrorPolicy.DlqFree (policy : ResolvedErrorPolicy) : Prop where
  badInput : policy.badInput ≠ .dlq
  timedOut : policy.timedOut ≠ .dlq
  dependencyFailed : policy.dependencyFailed.exhausted ≠ .dlq
  processingFailed : policy.processingFailed.exhausted ≠ .dlq

theorem ResolvedErrorPolicy.dlqFree_ofConfig {policy : ErrorPolicyConfig}
    (h : policy.dlqActions = []) : (ResolvedErrorPolicy.ofConfig policy).DlqFree := by
  have hconv : ∀ action, ResolvedSimpleAction.ofConfig action = .dlq → action = .dlq := by
    intro action ha
    cases action with
    | dlq => rfl
    | skip | teardown => cases ha
  simp only [ErrorPolicyConfig.dlqActions, List.map_eq_nil_iff, List.filter_eq_nil_iff,
    List.forall_mem_cons, decide_eq_true_eq] at h
  exact ⟨fun ha => h.1 (hconv _ ha), fun ha => h.2.1 (hconv _ ha), fun ha => h.2.2.1 (hconv _ ha),
    fun ha => h.2.2.2.1 (hconv _ ha)⟩

/-- Without a dead-letter sink an accepted configuration has no `dlq` action. -/
theorem Config.dlqFree_of_validate {toposort : Toposort} {config : Config} {nodeId : String}
    {policy : ErrorPolicyConfig} (h : config.validate toposort = .ok ())
    (hd : config.deadLetter = none) (hn : config.effectiveErrorPolicy nodeId = some policy) :
    (config.resolveErrorPolicy nodeId).DlqFree := by
  have hc := check_eq_nil h
    (show config.checkDeadLetterRequiredForErrorPolicy ∈ config.checks toposort by simp [checks])
  rw [checkDeadLetterRequiredForErrorPolicy, if_neg (by simp [hd])] at hc
  have hid : nodeId ∈ config.nodeIds := by
    obtain ⟨wasm, hw, -⟩ := Option.map_eq_some_iff.mp hn
    obtain ⟨node, hnode, -⟩ := Option.bind_eq_some_iff.mp hw
    exact mem_nodeIds.mpr ⟨node, hnode⟩
  have hp := List.flatMap_eq_nil_iff.mp hc nodeId ((List.mem_insertionSort _).mpr hid)
  rw [hn] at hp
  rw [resolveErrorPolicy, hn]
  exact ResolvedErrorPolicy.dlqFree_ofConfig (by simpa using hp)

/-! ## The runs -/

structure PolicyRun where
  executor : ErrorPolicyExecutor
  metrics : NodeMetrics := {}

inductive PolicyOp
  /-- a failed call -/
  | handle (now : Nat) (attempt : DlqAttempt) (error : WasmProcessError) (envelope : RuntimeEnvelope)
  /-- a due entry leaves the retry buffer -/
  | retry (now : Nat)
  /-- hot swap, shutdown or failed recovery -/
  | flush (reason : DlqReason) (attempts : Nat → DlqAttempt)
  /-- the instance of the message is replaced -/
  | condemn (attempt : DlqAttempt) (envelope : RuntimeEnvelope) (error : WasmProcessError)
  /-- the node counts something else -/
  | count (metrics : NodeMetrics)

namespace PolicyRun

def step (s : PolicyRun) : PolicyOp → Option PolicyRun
  | .handle now attempt error envelope =>
    let r := s.executor.handle now attempt error envelope
    some ⟨r.2, (continueAfterPolicyAction r.1 s.metrics).2⟩
  | .retry now => (s.executor.nextReadyRetry now).map fun r => { s with executor := r.2 }
  | .flush reason attempts =>
    let r := s.executor.flushToDlq reason attempts s.metrics
    some ⟨r.1, r.2⟩
  | .condemn attempt envelope error =>
    let r := s.executor.recordCondemned attempt envelope error s.metrics
    some ⟨r.1, r.2⟩
  | .count metrics =>
    if metrics.dlqSent = s.metrics.dlqSent ∧ metrics.dlqLost = s.metrics.dlqLost then
      some { s with metrics }
    else none

/-- A run of the executor of a node, from its construction. -/
def run (config : Config) (nodeId : String) (ops : List PolicyOp) : Option PolicyRun :=
  Lib.exec step ⟨config.errorPolicyExecutor nodeId, {}⟩ ops

end PolicyRun

/-- The category whose retries the error gets. -/
def WasmProcessError.retryCategory : WasmProcessError → Option ErrorCategory
  | .dependencyFailed _ => some .dependencyFailed
  | .processingFailed _ => some .processingFailed
  | _ => none

/-- The operation attempts no dead letter: no failure with retries left meets a full retry buffer,
and nothing is flushed. -/
def PolicyOp.Spares (s : PolicyRun) : PolicyOp → Prop
  | .handle _ _ error envelope => ∀ category, error.retryCategory = some category →
    envelope.retryCount < (s.executor.retryConfig category).retries →
      s.executor.retryBuffer.isFull = false
  | .flush _ _ => s.executor.pendingRetries = 0
  | _ => True

namespace ErrorPolicyExecutor

variable {ex : ErrorPolicyExecutor} {envelope : RuntimeEnvelope} {m : NodeMetrics}

/-- Without a sender every dead letter is lost, whatever the channel would answer. -/
theorem sendToDlq_none (h : ex.dlqSender = none) (attempt : DlqAttempt) (envelope : RuntimeEnvelope)
    (category : Option ErrorCategory) (message : String) (count : Nat) (reason : DlqReason) :
    ex.sendToDlq attempt envelope category message count reason = (.dlqClosed, ex) := by
  rw [sendToDlq, h]

theorem flushEntries_none (h : ex.dlqSender = none) (reason : DlqReason) (entries : List RetryEntry)
    (attempts : Nat → DlqAttempt) :
    flushEntries reason entries attempts ex m =
      (ex, { m with dlqLost := m.dlqLost + entries.length }) := by
  induction entries generalizing attempts m with
  | nil => rfl
  | cons entry entries ih =>
    rw [flushEntries, sendToDlq_none h]
    dsimp only
    rw [ih]
    simp only [recordDlqFate, NodeMetrics.recordDlqLost, List.length_cons, Nat.add_right_comm,
      Nat.add_assoc]

theorem flushToDlq_none (h : ex.dlqSender = none) (reason : DlqReason)
    (attempts : Nat → DlqAttempt) : ex.flushToDlq reason attempts m =
      ({ ex with retryBuffer := { ex.retryBuffer with entries := [] } },
        { m with dlqLost := m.dlqLost + ex.pendingRetries }) :=
  @flushEntries_none { ex with retryBuffer := { ex.retryBuffer with entries := [] } } m h reason
    ex.retryBuffer.entries attempts

/-- What a decision without sender and `dlq` action comes to: nothing is sent, and only a full retry
buffer loses the envelope. -/
structure Unsent (ex : ErrorPolicyExecutor) (r : ErrorPolicyAction × ErrorPolicyExecutor)
    (full : Prop) : Prop where
  sender : r.2.dlqSender = none
  config : r.2.config = ex.config
  sent : r.1 ≠ .dlqSent
  answered : r.1 ≠ .dlqFull
  lost : r.1 = .dlqClosed ↔ full

/-- An action without the dead-letter queue sends and loses nothing. -/
theorem Unsent.of_action {ex' : ErrorPolicyExecutor} {action : ErrorPolicyAction} {full : Prop}
    (hs : ex'.dlqSender = none) (hc : ex'.config = ex.config)
    (haction : action ≠ .dlqSent ∧ action ≠ .dlqFull ∧ action ≠ .dlqClosed) (hfull : ¬ full) :
    Unsent ex (action, ex') full where
  sender := hs
  config := hc
  sent := haction.1
  answered := haction.2.1
  lost := iff_of_false haction.2.2 hfull

theorem tryRetry_unsent (hd : ex.dlqSender = none) (hf : ex.config.DlqFree) (now : Nat)
    (attempt : DlqAttempt) (category : ErrorCategory) (message : String) :
    Unsent ex (ex.tryRetry now attempt envelope category message)
      (envelope.retryCount < (ex.retryConfig category).retries ∧ ex.retryBuffer.isFull = true) := by
  have hexhausted : (ex.retryConfig category).exhausted ≠ .dlq := by
    cases category with
    | dependencyFailed => exact hf.dependencyFailed
    | badInput | processingFailed | timedOut | unrecoverable => exact hf.processingFailed
  unfold tryRetry
  dsimp only
  split
  · next hle =>
    have hnot : ¬ (envelope.retryCount < (ex.retryConfig category).retries ∧
        ex.retryBuffer.isFull = true) := fun h => absurd h.1 (Nat.not_lt.mpr hle)
    split
    · exact .of_action hd rfl (by decide) hnot
    · next he => exact absurd he hexhausted
    · exact .of_action hd rfl (by decide) hnot
  · next hlt =>
    split
    · next hfull =>
      rw [sendToDlq_none hd]
      exact ⟨hd, rfl, nofun, nofun, iff_of_true rfl ⟨Nat.lt_of_not_le hlt, hfull⟩⟩
    · next hroom => exact .of_action hd rfl (by decide) fun h => hroom h.2

theorem handle_unsent (hd : ex.dlqSender = none) (hf : ex.config.DlqFree) (now : Nat)
    (attempt : DlqAttempt) (error : WasmProcessError) :
    Unsent ex (ex.handle now attempt error envelope)
      (∃ category, error.retryCategory = some category ∧
        envelope.retryCount < (ex.retryConfig category).retries ∧
          ex.retryBuffer.isFull = true) := by
  have hnot : error.retryCategory = none → ¬ ∃ category,
      error.retryCategory = some category ∧
        envelope.retryCount < (ex.retryConfig category).retries ∧
          ex.retryBuffer.isFull = true := by
    rintro hnone ⟨category, hc, -⟩
    rw [hnone] at hc
    cases hc
  have htimed : ∀ {message}, error.retryCategory = none →
      Unsent ex (ex.timedOut attempt envelope message) (∃ category,
        error.retryCategory = some category ∧
          envelope.retryCount < (ex.retryConfig category).retries ∧
            ex.retryBuffer.isFull = true) := by
    intro message hnone
    unfold timedOut
    split
    · exact .of_action hd rfl (by decide) (hnot hnone)
    · next ht => exact absurd ht hf.timedOut
    · exact .of_action hd rfl (by decide) (hnot hnone)
  have hretry : ∀ category message, error.retryCategory = some category →
      Unsent ex (ex.tryRetry now attempt envelope category message) (∃ category,
        error.retryCategory = some category ∧
          envelope.retryCount < (ex.retryConfig category).retries ∧
            ex.retryBuffer.isFull = true) := by
    intro category message hc
    obtain ⟨hs, hconf, hsent, hans, hlost⟩ :=
      @tryRetry_unsent ex envelope hd hf now attempt category message
    refine ⟨hs, hconf, hsent, hans, hlost.trans ⟨fun h => ⟨category, hc, h⟩, ?_⟩⟩
    rintro ⟨category', hc', h⟩
    obtain rfl := Option.some.inj (hc.symm.trans hc')
    exact h
  cases error with
  | dependencyFailed message => exact hretry .dependencyFailed message rfl
  | processingFailed message => exact hretry .processingFailed message rfl
  | timedOut => exact htimed rfl
  | unrecoverable message => exact .of_action hd rfl (by decide) (hnot rfl)
  | badInput message =>
    simp only [handle]
    split
    · exact .of_action hd rfl (by decide) (hnot rfl)
    · next hb => exact absurd hb hf.badInput
    · exact .of_action hd rfl (by decide) (hnot rfl)
  | trapped code message =>
    simp only [handle]
    split
    · exact htimed rfl
    · exact .of_action hd rfl (by decide) (hnot rfl)

end ErrorPolicyExecutor

namespace PolicyRun

variable {s t : PolicyRun} {op : PolicyOp} {ops : List PolicyOp}

/-- No sender, and no action that asks for one. -/
structure NoSink (s : PolicyRun) : Prop where
  sender : s.executor.dlqSender = none
  free : s.executor.config.DlqFree

/-- A step sends nothing, and loses nothing exactly when it spares the dead-letter queue. -/
theorem NoSink.step (h : s.NoSink) (hs : PolicyRun.step s op = some t) :
    t.NoSink ∧ t.metrics.dlqSent = s.metrics.dlqSent ∧ s.metrics.dlqLost ≤ t.metrics.dlqLost ∧
      (t.metrics.dlqLost = s.metrics.dlqLost ↔ op.Spares s) := by
  obtain ⟨hd, hf⟩ := h
  cases op with
  | handle now attempt error envelope =>
    obtain rfl := Option.some.inj hs
    have hu := @ErrorPolicyExecutor.handle_unsent s.executor envelope hd hf now attempt error
    generalize s.executor.handle now attempt error envelope = r at hu
    obtain ⟨action, executor⟩ := r
    obtain ⟨hsender, hconfig, hsent, hfull, hlost⟩ := hu
    refine ⟨⟨hsender, hconfig ▸ hf⟩, ?_⟩
    have hspares : PolicyOp.Spares s (.handle now attempt error envelope) ↔ action ≠ .dlqClosed := by
      rw [Ne, hlost]
      constructor
      · rintro hall ⟨category, hc, hlt, hful⟩
        exact absurd hful (by simp [hall category hc hlt])
      · intro hnot category hc hlt
        by_contra hful
        exact hnot ⟨category, hc, hlt, by simpa using hful⟩
    rw [hspares]
    cases action with
    | dlqSent => exact absurd rfl hsent
    | dlqFull => exact absurd rfl hfull
    | dlqClosed =>
      exact ⟨rfl, Nat.le_succ _, by simp [continueAfterPolicyAction, NodeMetrics.recordDlqLost]⟩
    | retried | skipped | exhaustedSkip | teardown =>
      exact ⟨rfl, le_rfl, iff_of_true rfl (by rintro ⟨⟩)⟩
  | retry now =>
    obtain ⟨r, hr, rfl⟩ := Option.map_eq_some_iff.mp hs
    obtain ⟨p, hp, rfl⟩ := Option.map_eq_some_iff.mp hr
    exact ⟨⟨hd, hf⟩, rfl, le_rfl, iff_of_true rfl trivial⟩
  | flush reason attempts =>
    obtain rfl := Option.some.inj hs
    rw [ErrorPolicyExecutor.flushToDlq_none hd]
    exact ⟨⟨hd, hf⟩, rfl, Nat.le_add_right _ _, by simp [PolicyOp.Spares]⟩
  | condemn attempt envelope error =>
    obtain rfl := Option.some.inj hs
    rw [ErrorPolicyExecutor.recordCondemned, hd]
    exact ⟨⟨hd, hf⟩, rfl, le_rfl, iff_of_true rfl trivial⟩
  | count metrics =>
    simp only [PolicyRun.step] at hs
    split at hs
    · next hm =>
      obtain rfl := Option.some.inj hs
      exact ⟨⟨hd, hf⟩, hm.1, hm.2.ge, iff_of_true hm.2 trivial⟩
    · cases hs

/-- For a processing node of an accepted configuration without dead-letter sink: nothing is sent to
the dead-letter queue and nothing is lost there exactly when no failure with retries left meets a
full retry buffer and no retry is pending at a flush. -/
theorem no_dead_letters {toposort : Toposort} {config : Config} {nodeId : String}
    {policy : ErrorPolicyConfig} (hv : config.validate toposort = .ok ())
    (hd : config.deadLetter = none) (hn : config.effectiveErrorPolicy nodeId = some policy)
    (h : run config nodeId ops = some s) :
    Lib.StepsMeet step (fun s op => op.Spares s) ⟨config.errorPolicyExecutor nodeId, {}⟩ ops ↔
      s.metrics.dlqSent = 0 ∧ s.metrics.dlqLost = 0 := by
  have hstart : NoSink ⟨config.errorPolicyExecutor nodeId, {}⟩ :=
    ⟨by simp [Config.errorPolicyExecutor, ErrorPolicyExecutor.new, hd],
      Config.dlqFree_of_validate hv hd hn⟩
  constructor
  · intro hmeet
    refine (Lib.exec_invariant_where (C := fun s op => PolicyOp.Spares s op)
      (P := fun s => s.NoSink ∧ s.metrics.dlqSent = 0 ∧ s.metrics.dlqLost = 0) ?_ h hmeet
      ⟨hstart, rfl, rfl⟩).2
    rintro s op t ⟨hns, hsent, hlost⟩ hspares hs
    obtain ⟨ht, htsent, -, hiff⟩ := hns.step hs
    exact ⟨ht, htsent.trans hsent, (hiff.mpr hspares).trans hlost⟩
  · intro hend
    refine (Lib.StepsMeet.of_final (I := NoSink)
      (G := fun s => s.metrics.dlqSent = 0 ∧ s.metrics.dlqLost = 0)
      (fun s op t hns hs => (hns.step hs).1) ?_ h hstart hend).2
    rintro s op t hns hs ⟨hsent, hlost⟩
    obtain ⟨-, htsent, hle, hiff⟩ := hns.step hs
    have hzero : s.metrics.dlqLost = 0 := by omega
    exact ⟨⟨htsent.symm.trans hsent, hzero⟩, hiff.mp (hlost.trans hzero.symm)⟩

/-! A pipeline that skips what it cannot process, with room for one retry. -/

def skipPolicy : ErrorPolicyConfig where
  badInput := .skip
  dependencyFailed := { retries := 3, exhausted := .skip }
  processingFailed := { retries := 2, exhausted := .skip }
  timedOut := .skip
  retryBufferCapacity := 1

def sinklessConfig : Config where
  errorPolicy := skipPolicy
  nodes := [("in", .source .stdin), ("scale", .transform { plugin := .wasm "scale.wasm" }),
    ("out", .sink .stdout)]
  edges := [{ fromNode := "in", toNode := "scale" }, { fromNode := "scale", toNode := "out" }]

def dependencyFails (id : String) : PolicyOp :=
  .handle 0 ⟨0, .ok⟩ (.dependencyFailed "down") (.new id 0 "in" [])

theorem sinklessConfig_accepted : sinklessConfig.validate listToposort = .ok () := by
  decide +kernel

/-- One failure is buffered, retried and fails for good. -/
theorem no_dead_letters_retried :
    ∃ s, run sinklessConfig "scale"
        [dependencyFails "m", .retry (100 * nsPerMs), .flush .shutdown fun _ => ⟨0, .closed⟩] =
          some s ∧
      s.metrics.retries = 1 ∧ s.metrics.dlqSent = 0 ∧ s.metrics.dlqLost = 0 := by
  have hr : ∃ s, run sinklessConfig "scale"
      [dependencyFails "m", .retry (100 * nsPerMs), .flush .shutdown fun _ => ⟨0, .closed⟩] =
        some s ∧ s.metrics.retries = 1 := ⟨_, rfl, rfl⟩
  obtain ⟨s, h, hm⟩ := hr
  refine ⟨s, h, hm, (no_dead_letters sinklessConfig_accepted rfl rfl h).mp ?_⟩
  refine ⟨fun _ _ _ => rfl, fun t ht => ⟨trivial, fun u hu => ⟨?_, fun _ _ => trivial⟩⟩⟩
  obtain rfl := Option.some.inj ht
  obtain rfl := Option.some.inj hu
  rfl

/-- The second failure finds the retry buffer full. -/
theorem full_buffer_loses :
    ¬ ∀ toposort (config : Config) nodeId policy, config.validate toposort = .ok () →
      config.deadLetter = none → config.effectiveErrorPolicy nodeId = some policy →
      ∀ ops s, run config nodeId ops = some s → s.metrics.dlqSent = 0 ∧ s.metrics.dlqLost = 0 := by
  intro h
  have hlost := (h listToposort sinklessConfig "scale" skipPolicy sinklessConfig_accepted rfl rfl
    [dependencyFails "m1", dependencyFails "m2"] _ rfl).2
  exact absurd hlost (by decide)

end PolicyRun

end Wafer
