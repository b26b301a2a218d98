import Mathlib.Algebra.BigOperators.Group.List.Basic
import Wafer.Orchestrator.Completion
import Wafer.Orchestrator.DlqSink
import Wafer.Runner.DeadLetters

/-!
# Conservation of dead letters

A pipeline under its supervisor, with the dead-letter channel between the node
tasks and the dead-letter task. Whether a `try_send` finds room is left open:
while a node flushes, the task takes records out. A `try_send` only succeeds as
long as the receiver is there.

## Main definitions

- `LaunchedPipeline` — a pipeline that is built with a dead-letter sink
- `SupervisedPipeline.step`, `SupervisedPipeline.run`

## Main results

- `SupervisedPipeline.dead_letters_conserved`
-/

namespace Wafer

/-! ## The records of a pipeline -/

namespace Pipeline

def dlqRecords (p : Pipeline) (nodeId : String) : List DlqEnvelope :=
  (p.tasks nodeId).elim [] NodeTask.dlqRecords

/-- The node's `dlq_sent`. -/
def dlqSent (p : Pipeline) (nodeId : String) : Nat :=
  (p.tasks nodeId).elim 0 (·.metrics.dlqSent)

/-- The `dead_lettered` of the queue in front of a node. -/
def deadLettered (p : Pipeline) (nodeId : String) : Nat :=
  (p.tasks nodeId).elim 0 (·.input.metrics.deadLettered)

/-- The node still holds a sender of the dead-letter channel. -/
def holdsDlqSender (cfg : PipelineConfig) (p : Pipeline) (nodeId : String) : Bool :=
  (p.tasks nodeId).any (·.holdsDlqSender (cfg.wiring.collectDownstreamSenders nodeId))

variable {cfg : PipelineConfig} {p p' : Pipeline} {e : PipelineEvent} {nodeId : String}

/-- Sends are only left for the node's own senders, and never for a sink. -/
def OutboxSound (cfg : PipelineConfig) (p : Pipeline) : Prop :=
  ∀ n, ∀ entry ∈ p.outbox n, entry.1 ∈ cfg.wiring.collectDownstreamSenders n ∧
    ∀ l, p.tasks n ≠ some (.sink l)

/-- What one step does to the dead letters: the queues count one more exactly when a record is
added, and only a task's own steps send records. -/
structure Moves (cfg : PipelineConfig) (p : Pipeline) (e : PipelineEvent) (p' : Pipeline) :
    Prop where
  tasks : ∀ n, p'.tasks n = p.tasks n ∨
    ∃ t i t', p.tasks n = some t ∧ p'.tasks n = some t' ∧ t.step i = some t' ∧
      ((∀ te, i ≠ .own te) ∨ ∃ te, e = .task n te)
  queues : p'.deadLetters = p.deadLetters ∧ p'.deadLettered = p.deadLettered ∨
    ∃ record n m dlq, e = .deliver m dlq ∧ p.outbox m ≠ [] ∧ n ∈ cfg.destinations ∧
      p'.deadLetters = record :: p.deadLetters ∧
      p'.deadLettered = Function.update p.deadLettered n (p.deadLettered n+1)
  outbox : OutboxSound cfg p'

/-- A task step that is no refusal leaves the counters of all queues. -/
theorem deadLettered_of_step {t t' : NodeTask} {i : TaskInput} (ht : p.tasks nodeId = some t)
    (hs : t.step i = some t') (hi : ∀ r, i ≠ .refuse r)
    (hu : p'.tasks = Function.update p.tasks nodeId (some t')) :
    p'.deadLettered = p.deadLettered := by
  funext n
  simp only [deadLettered, hu]
  by_cases hn : n = nodeId
  · subst hn
    simp only [Function.update_self, ht, Option.elim_some]
    exact NodeTask.step_deadLettered hs hi
  · rw [Function.update_of_ne hn]

theorem step_kind {t t' : NodeTask} {i : TaskInput} (h : t.step i = some t')
    (ht : ∀ l, t ≠ .sink l) (l : SinkLoop) : t' ≠ .sink l := by
  rintro rfl
  cases task_step h with
  | sink => exact ht _ rfl

/-- The sends that are left stay sound when the tasks step and no new ones are added. -/
theorem OutboxSound.of_tasks (ho : OutboxSound cfg p)
    (ht : ∀ n, p'.tasks n = p.tasks n ∨ ∃ t i t', p.tasks n = some t ∧ p'.tasks n = some t' ∧
      t.step i = some t')
    (hsub : ∀ n, ∀ entry ∈ p'.outbox n, entry ∈ p.outbox n ∨
      entry.1 ∈ cfg.wiring.collectDownstreamSenders n ∧ ∃ t, p'.tasks n = some t ∧
        t.sending.isSome = true) : OutboxSound cfg p' := by
  intro n entry hentry
  rcases hsub n entry hentry with hold | ⟨hs, t, hn, hsend⟩
  · obtain ⟨hs, hk⟩ := ho n entry hold
    refine ⟨hs, ?_⟩
    rintro l hl
    rcases ht n with hn | ⟨t, i, t', hn, hn', hstep⟩
    · exact hk l (hn ▸ hl)
    · obtain rfl := Option.some.inj (hn'.symm.trans hl)
      exact step_kind hstep (fun l hl => hk l (hl ▸ hn)) l rfl
  · refine ⟨hs, ?_⟩
    rintro l hl
    obtain rfl := Option.some.inj (hn.symm.trans hl)
    cases hsend

theorem toNode_mem_destinations {sender : DownstreamSender}
    (h : sender ∈ cfg.wiring.collectDownstreamSenders nodeId) :
    sender.toNode ∈ cfg.destinations := by
  obtain ⟨edge, he, rfl⟩ := List.mem_map.mp h
  obtain ⟨toNode, hd, hm⟩ := List.mem_flatMap.mp (List.mem_filter.mp he).1
  obtain ⟨def_, -, rfl⟩ := List.mem_map.mp hm
  exact hd

/-- A step that another task or the orchestrator makes a task do. -/
theorem not_own {i : TaskInput} (hi : i = .close ∨ i = .cancel ∨ (∃ envelope, i = .arrive envelope) ∨
    ∃ r, i = .refuse r) (e : TaskEvent) : i ≠ .own e := by
  rintro rfl
  rcases hi with h | h | ⟨_, h⟩ | ⟨_, h⟩ <;> cases h

theorem not_refuse {i : TaskInput} (hi : i = .close ∨ i = .cancel ∨
    (∃ envelope, i = .arrive envelope) ∨ ∃ e, i = .own e) (r : QueueMetrics.Refusal) :
    i ≠ .refuse r := by
  rintro rfl
  rcases hi with h | h | ⟨_, h⟩ | ⟨_, h⟩ <;> cases h

theorem Moves.close {t t' : NodeTask} (ho : OutboxSound cfg p) (ht : p.tasks nodeId = some t)
    (h : t.close = some t') : Moves cfg p (.close nodeId) (p.setTask nodeId t') := by
  have hs : t.step .close = some t' := h
  have htasks : ∀ n, (p.setTask nodeId t').tasks n = p.tasks n ∨
      ∃ t i t'', p.tasks n = some t ∧ (p.setTask nodeId t').tasks n = some t'' ∧
        t.step i = some t'' ∧ ∀ e, i ≠ .own e := by
    intro n
    by_cases hn : n = nodeId
    · subst hn
      exact .inr ⟨t, .close, t', ht, Function.update_self .., hs, not_own (.inl rfl)⟩
    · exact .inl (Function.update_of_ne hn ..)
  refine ⟨fun n => (htasks n).imp_right ?_, .inl ⟨rfl, deadLettered_of_step ht hs (not_refuse (.inl rfl)) rfl⟩, ?_⟩
  · rintro ⟨t, i, t'', h1, h2, h3, h4⟩
    exact ⟨t, i, t'', h1, h2, h3, .inl h4⟩
  · refine ho.of_tasks (fun n => (htasks n).imp_right ?_) fun n entry he => .inl he
    rintro ⟨t, i, t'', h1, h2, h3, -⟩
    exact ⟨t, i, t'', h1, h2, h3⟩

theorem Moves.cancel (ho : OutboxSound cfg p) (h : p.step cfg .cancel = some p') :
    Moves cfg p .cancel p' := by
  have htasks : ∀ n, p'.tasks n = p.tasks n ∨
      ∃ t t', p.tasks n = some t ∧ p'.tasks n = some t' ∧ t.step .cancel = some t' := by
    intro n
    refine (step_tasks h n).imp_right ?_
    rintro ⟨t, i, t', ht, ht', hi, hc⟩
    cases hc
    exact ⟨t, t', ht, ht', hi⟩
  have hframe : p'.deadLetters = p.deadLetters ∧ p'.outbox = p.outbox := by
    obtain rfl := Option.some.inj h
    exact ⟨rfl, rfl⟩
  refine ⟨fun n => (htasks n).imp_right ?_, .inl ⟨hframe.1, ?_⟩, ?_⟩
  · rintro ⟨t, t', h1, h2, h3⟩
    exact ⟨t, .cancel, t', h1, h2, h3, .inl (not_own (.inr (.inl rfl)))⟩
  · funext n
    rcases htasks n with hn | ⟨t, t', h1, h2, h3⟩
    · simp only [deadLettered, hn]
    · simp only [deadLettered, h1, h2, Option.elim_some]
      exact NodeTask.step_deadLettered h3 (not_refuse (.inr (.inl rfl)))
  · refine ho.of_tasks (fun n => (htasks n).imp_right ?_) fun n entry he => .inl (hframe.2 ▸ he)
    rintro ⟨t, t', h1, h2, h3⟩
    exact ⟨t, .cancel, t', h1, h2, h3⟩

/-- The new sends of a task are for its own senders. -/
theorem fireTask_senders {t : NodeTask} {te : TaskEvent} (h : p.fireTask cfg nodeId t te = some p') :
    p'.deadLetters = p.deadLetters ∧ ∀ n, ∀ entry ∈ p'.outbox n, entry ∈ p.outbox n ∨
      n = nodeId ∧ entry.1 ∈ cfg.wiring.collectDownstreamSenders nodeId ∧
        ∃ t', t.fire te = some t' ∧ t'.sending.isSome = true := by
  obtain ⟨t', hf, rfl⟩ := Option.map_eq_some_iff.mp h
  dsimp only
  split
  · next out _ hout =>
    refine ⟨rfl, fun n entry he => ?_⟩
    by_cases hn : n = nodeId
    · subst hn
      simp only [Function.update_self] at he
      obtain ⟨s, hs, rfl⟩ := List.mem_map.mp he
      have hs := (sendMatching_perm _ _).mem_iff.mp hs
      exact .inr ⟨rfl, (List.mem_filter.mp hs).1, t', hf, by rw [hout]; rfl⟩
    · simp only [Function.update_of_ne hn] at he
      exact .inl he
  · exact ⟨rfl, fun n entry he => .inl he⟩

theorem Moves.task {te : TaskEvent} (ho : OutboxSound cfg p)
    (h : p.step cfg (.task nodeId te) = some p') : Moves cfg p (.task nodeId te) p' := by
  obtain ⟨t, t', ht, hs, hf, hu⟩ := step_task h
  have hself : p'.tasks nodeId = some t' := by rw [hu, Function.update_self]
  have htasks : ∀ n, p'.tasks n = p.tasks n ∨ n = nodeId := by
    intro n
    by_cases hn : n = nodeId
    · exact .inr hn
    · exact .inl (by rw [hu, Function.update_of_ne hn])
  have hsend : p'.deadLetters = p.deadLetters ∧ ∀ n, ∀ entry ∈ p'.outbox n, entry ∈ p.outbox n ∨
      entry.1 ∈ cfg.wiring.collectDownstreamSenders n ∧
        ∃ t, p'.tasks n = some t ∧ t.sending.isSome = true := by
    simp only [step] at h
    split at h
    · obtain ⟨u, hu, hfire⟩ := Option.bind_eq_some_iff.mp h
      obtain ⟨hd, hout⟩ := fireTask_senders hfire
      refine ⟨hd, fun n entry he => (hout n entry he).imp_right ?_⟩
      rintro ⟨rfl, hs, t'', hf', hsend⟩
      obtain rfl := Option.some.inj (ht.symm.trans hu)
      obtain rfl := Option.some.inj (hf.symm.trans hf')
      exact ⟨hs, t', hself, hsend⟩
    · cases h
  have hi := not_refuse (.inr (.inr (.inr ⟨te, rfl⟩)))
  refine ⟨fun n => (htasks n).imp_right ?_, .inl ⟨hsend.1, deadLettered_of_step ht hs hi hu⟩, ?_⟩
  · rintro rfl
    exact ⟨t, .own te, t', ht, hself, hs, .inr ⟨te, rfl⟩⟩
  · refine ho.of_tasks (fun n => (htasks n).imp_right ?_) hsend.2
    rintro rfl
    exact ⟨t, .own te, t', ht, hself, hs⟩

theorem sendOne_refused {sender : DownstreamSender} {receiving : Bool} {q : InputQueue}
    {envelope : RuntimeEnvelope} {dlq : DlqAttempt} {r : QueueMetrics.Refusal}
    (h : sendOne sender receiving q envelope dlq = .refused r) : r ≠ .deadLettered := by
  rintro rfl
  unfold sendOne at h
  repeat' split at h
  all_goals cases h

theorem recordRefusal_deadLettered (m : QueueMetrics) (r : QueueMetrics.Refusal) :
    (m.recordRefusal r).deadLettered = m.deadLettered + if r = .deadLettered then 1 else 0 := by
  cases r <;> rfl

/-- A refusal at a node is counted by its queue. -/
theorem deadLettered_of_refuse {t t' : NodeTask} {r : QueueMetrics.Refusal}
    (ht : p.tasks nodeId = some t) (hs : t.refuse r = some t')
    (hu : p'.tasks = Function.update p.tasks nodeId (some t')) :
    p'.deadLettered = Function.update p.deadLettered nodeId
      (p.deadLettered nodeId + if r = .deadLettered then 1 else 0) := by
  funext n
  by_cases hn : n = nodeId
  · subst hn
    simp only [deadLettered, hu, Function.update_self, ht, Option.elim_some]
    rw [NodeTask.refuse_input hs]
    exact recordRefusal_deadLettered ..
  · simp only [deadLettered, hu, Function.update_of_ne hn]

/-- One `send_one` at the destination: the queue counts a dead letter exactly when there is a
record. -/
theorem deliver_queues {sender : DownstreamSender} {envelope : RuntimeEnvelope} {dlq : DlqAttempt}
    (h : p.deliver sender envelope dlq = some p') :
    p'.outbox = p.outbox ∧
    (∀ n, p'.tasks n = p.tasks n ∨ ∃ t i t', p.tasks n = some t ∧ p'.tasks n = some t' ∧
      t.step i = some t' ∧ ∀ e, i ≠ .own e) ∧
    (p'.deadLetters = p.deadLetters ∧ p'.deadLettered = p.deadLettered ∨
      ∃ record, p'.deadLetters = record :: p.deadLetters ∧ p'.deadLettered =
        Function.update p.deadLettered sender.toNode (p.deadLettered sender.toNode+1)) := by
  have htasks : ∀ {t t' i}, p.tasks sender.toNode = some t → t.step i = some t' →
      (∀ e, i ≠ .own e) → ∀ n, (p.setTask sender.toNode t').tasks n = p.tasks n ∨
        ∃ t i t'', p.tasks n = some t ∧ (p.setTask sender.toNode t').tasks n = some t'' ∧
          t.step i = some t'' ∧ ∀ e, i ≠ .own e := by
    intro t t' i ht hs hi n
    by_cases hn : n = sender.toNode
    · subst hn
      exact .inr ⟨t, i, t', ht, Function.update_self .., hs, hi⟩
    · exact .inl (Function.update_of_ne hn ..)
  unfold deliver at h
  split at h
  · cases h
  next t ht =>
  split at h
  · cases h
  · obtain ⟨t', hs, rfl⟩ := Option.map_eq_some_iff.mp h
    have hs : t.step (.arrive envelope) = some t' := hs
    refine ⟨rfl, htasks ht hs (not_own (.inr (.inr (.inl ⟨_, rfl⟩)))), .inl ⟨rfl, ?_⟩⟩
    exact deadLettered_of_step ht hs (not_refuse (.inr (.inr (.inl ⟨_, rfl⟩)))) rfl
  · next r hr =>
    obtain ⟨t', hs, rfl⟩ := Option.map_eq_some_iff.mp h
    refine ⟨rfl, htasks (i := .refuse r) ht hs (not_own (.inr (.inr (.inr ⟨_, rfl⟩)))),
      .inl ⟨rfl, ?_⟩⟩
    rw [deadLettered_of_refuse ht hs rfl, if_neg (sendOne_refused hr), Nat.add_zero,
      Function.update_eq_self]
  · next record hr =>
    obtain ⟨t', hs, rfl⟩ := Option.map_eq_some_iff.mp h
    refine ⟨rfl, htasks (i := .refuse .deadLettered) ht hs (not_own (.inr (.inr (.inr ⟨_, rfl⟩)))),
      .inr ⟨record, rfl, ?_⟩⟩
    exact deadLettered_of_refuse ht hs rfl

theorem Moves.deliver {dlq : DlqAttempt} (ho : OutboxSound cfg p)
    (h : p.step cfg (.deliver nodeId dlq) = some p') : Moves cfg p (.deliver nodeId dlq) p' := by
  simp only [step] at h
  split at h
  · cases h
  next sender envelope rest hout =>
  obtain ⟨q, hd, rfl⟩ := Option.map_eq_some_iff.mp h
  obtain ⟨hq, htasks, hqueues⟩ := deliver_queues hd
  have hsender := (ho nodeId (sender, envelope) (by rw [hout]; exact .head _)).1
  refine ⟨fun n => (htasks n).imp_right ?_, hqueues.imp_right ?_, ?_⟩
  · rintro ⟨t, i, t', h1, h2, h3, h4⟩
    exact ⟨t, i, t', h1, h2, h3, .inl h4⟩
  · rintro ⟨record, hr, hc⟩
    exact ⟨record, sender.toNode, nodeId, dlq, rfl, by rw [hout]; rintro ⟨⟩,
      toNode_mem_destinations hsender, hr, hc⟩
  · refine ho.of_tasks (fun n => (htasks n).imp_right ?_) ?_
    · rintro ⟨t, i, t', h1, h2, h3, -⟩
      exact ⟨t, i, t', h1, h2, h3⟩
    · intro n entry he
      left
      by_cases hn : n = nodeId
      · subst hn
        simp only [Function.update_self] at he
        rw [hout]
        exact .tail _ he
      · simp only [Function.update_of_ne hn] at he
        exact hq ▸ he

end Pipeline

/-! ## The supervised pipeline -/

/-- What `build_pipeline` makes of a configuration with a `dead_letter` table: one task for each
node, and a sender of the dead-letter channel in every error policy. -/
structure LaunchedPipeline extends PipelineConfig where
  nodeIds : List String
  distinct : nodeIds.Nodup
  spawned : ∀ n, n ∈ nodeIds ↔ (nodes n).isSome = true
  sink : DeadLetterConfig
  hasSink : deadLetter = true
  senders : ∀ n loop setup, nodes n = some (.runner loop setup) → setup.dlqSender = some {}

structure SupervisedPipeline where
  pipeline : Pipeline
  orchestrator : PipelineOrchestrator
  /-- records in the dead-letter channel -/
  channel : List DlqEnvelope := []
  dlq : DlqTask

inductive SupervisedEvent
  /-- a step of a node task, of its senders or of its queue -/
  | node (e : PipelineEvent)
  /-- the cancellation token fires -/
  | cancel
  /-- the loop of a node task has returned -/
  | complete (nodeId : String)
  /-- a node task ends without its loop: `init()` of the adapter failed, or a panic -/
  | fail (nodeId : String) (how : TaskEnd)
  | dlq (e : DlqEvent)
  | completeDlq
  /-- a step of `run_until_complete` -/
  | supervise (e : SupervisorEvent)

/-- Steps of `run_until_complete` itself. -/
def SupervisorEvent.own : SupervisorEvent → Bool
  | .cancel | .exit .. | .exitDlq _ => false
  | _ => true

namespace SupervisedPipeline

def start (cfg : LaunchedPipeline) : SupervisedPipeline where
  pipeline := .start cfg.toPipelineConfig
  orchestrator := { nodes := cfg.nodeIds, dlqHandle := true }
  dlq := .start cfg.sink

/-- The task of the node ended while its loop was running. -/
def crashed (s : SupervisedPipeline) (nodeId : String) : Bool :=
  (s.orchestrator.ends nodeId).isSome && (s.pipeline.tasks nodeId).any (·.result.isNone)

/-- The task of the node is in its loop. -/
def live (s : SupervisedPipeline) (nodeId : String) : Bool :=
  (s.orchestrator.ends nodeId).isNone && (s.pipeline.tasks nodeId).any (·.result.isNone)

/-- No task holds a sender of the dead-letter channel any more. -/
def sendersGone (cfg : LaunchedPipeline) (s : SupervisedPipeline) : Bool :=
  cfg.nodeIds.all fun n => !(s.live n && s.pipeline.holdsDlqSender cfg.toPipelineConfig n)

/-- A step of the pipeline. A task that crashed takes no more steps, and what it held is dropped. -/
def stepNode (cfg : LaunchedPipeline) (s : SupervisedPipeline) : PipelineEvent → Option Pipeline
  | .cancel => none
  | .close nodeId =>
    if (cfg.wiring.upstream nodeId).all fun n => s.pipeline.released n || s.crashed n then
      (s.pipeline.tasks nodeId).bind fun t => t.close.map (s.pipeline.setTask nodeId)
    else none
  | .task nodeId e =>
    if s.crashed nodeId then none else s.pipeline.step cfg.toPipelineConfig (.task nodeId e)
  | .deliver nodeId attempt =>
    if s.live nodeId then s.pipeline.step cfg.toPipelineConfig (.deliver nodeId attempt) else none

/-- The records a step of the pipeline puts into the dead-letter channel. -/
def newRecords (cfg : LaunchedPipeline) (p p' : Pipeline) : List DlqEnvelope :=
  cfg.nodeIds.flatMap (fun n => (p'.dlqRecords n).drop (p.dlqRecords n).length) ++
    p'.deadLetters.take (p'.deadLetters.length - p.deadLetters.length)

/-- All node tasks see the token. -/
def cancelTasks (cfg : LaunchedPipeline) (s : SupervisedPipeline) : Option SupervisedPipeline :=
  (s.pipeline.step cfg.toPipelineConfig .cancel).map fun pipeline => { s with pipeline }

/-- A node task ends; the drop guard of `spawn_node_task` cancels the pipeline if it failed. -/
def endTask (cfg : LaunchedPipeline) (s : SupervisedPipeline) (nodeId : String) (how : TaskEnd) :
    Option SupervisedPipeline :=
  (s.orchestrator.step (.exit nodeId how)).bind fun orchestrator =>
    if how.failed then cancelTasks cfg { s with orchestrator } else some { s with orchestrator }

/-- Fire one event; `none` where it is not enabled. -/
def step (cfg : LaunchedPipeline) (polls : EventLoopPolls) (s : SupervisedPipeline) :
    SupervisedEvent → Option SupervisedPipeline
  | .node e =>
    (s.stepNode cfg e).bind fun pipeline =>
      let sent := newRecords cfg s.pipeline pipeline
      -- a `try_send` only succeeds while there is a receiver
      if sent = [] ∨ s.dlq.ended.isNone = true then
        some { s with pipeline, channel := s.channel ++ sent }
      else none
  | .cancel =>
    (s.orchestrator.step .cancel).bind fun orchestrator => cancelTasks cfg { s with orchestrator }
  | .complete nodeId =>
    (s.pipeline.tasks nodeId).bind fun t =>
      t.result.bind fun result => s.endTask cfg nodeId (.returned result)
  | .fail nodeId how =>
    if how.failed ∧ s.live nodeId then s.endTask cfg nodeId how else none
  | .dlq e =>
    (s.dlq.step polls s.channel (s.sendersGone cfg) e).map fun next =>
      { s with dlq := next.1, channel := next.2 }
  | .completeDlq =>
    s.dlq.ended.bind fun how =>
      (s.orchestrator.step (.exitDlq how)).map fun orchestrator => { s with orchestrator }
  | .supervise e =>
    if e.own then (s.orchestrator.step e).map fun orchestrator => { s with orchestrator } else none

def run (cfg : LaunchedPipeline) (polls : EventLoopPolls) (events : List SupervisedEvent) :
    Option SupervisedPipeline :=
  Lib.exec (step cfg polls) (start cfg) events

/-- All records the dead-letter channel accepted. -/
def records (cfg : LaunchedPipeline) (p : Pipeline) : List DlqEnvelope :=
  cfg.nodeIds.flatMap p.dlqRecords ++ p.deadLetters

/-! ## What a step of the pipeline sends -/

section Sent

variable {cfg : LaunchedPipeline} {s : SupervisedPipeline} {p p' : Pipeline} {e : PipelineEvent}

/-- A step of the pipeline adds records behind those a node had, and counts them. -/
theorem moves_records (h : p.Moves cfg.toPipelineConfig e p') (n : String) :
    ∃ more, p'.dlqRecords n = p.dlqRecords n ++ more ∧ p'.dlqSent n = p.dlqSent n + more.length := by
  rcases h.tasks n with hn | ⟨t, i, t', ht, ht', hs, -⟩
  · exact ⟨[], by simp [Pipeline.dlqRecords, hn], by simp [Pipeline.dlqSent, hn]⟩
  · simp only [Pipeline.dlqRecords, Pipeline.dlqSent, ht, ht', Option.elim_some]
    exact NodeTask.step_grows hs

/-- What is recorded after a step was recorded before, or is sent by the step. -/
theorem records_perm (h : p.Moves cfg.toPipelineConfig e p') :
    (records cfg p').Perm (records cfg p ++ newRecords cfg p p') := by
  have hnode : ∀ n, p'.dlqRecords n =
      p.dlqRecords n ++ (p'.dlqRecords n).drop (p.dlqRecords n).length := by
    intro n
    obtain ⟨more, hr, -⟩ := moves_records h n
    rw [hr, List.drop_left]
  have hnodes : (cfg.nodeIds.flatMap p'.dlqRecords).Perm (cfg.nodeIds.flatMap p.dlqRecords ++
      cfg.nodeIds.flatMap fun n => (p'.dlqRecords n).drop (p.dlqRecords n).length) := by
    refine List.Perm.trans (.of_eq ?_) (List.flatMap_append_perm ..).symm
    exact congrArg (List.flatMap · cfg.nodeIds) (funext hnode)
  have hdead : p'.deadLetters =
      p'.deadLetters.take (p'.deadLetters.length - p.deadLetters.length) ++ p.deadLetters := by
    rcases h.queues with ⟨hd, -⟩ | ⟨record, _, _, _, -, -, -, hd, -⟩
    · simp [hd]
    · simp [hd]
  unfold records newRecords
  generalize (cfg.nodeIds.flatMap fun n => (p'.dlqRecords n).drop (p.dlqRecords n).length) = sent
    at hnodes ⊢
  generalize p'.deadLetters.take (p'.deadLetters.length - p.deadLetters.length) = refused
    at hdead ⊢
  rw [hdead, List.perm_iff_count]
  intro record
  have hcount := hnodes.count_eq record
  simp only [List.count_append] at hcount ⊢
  omega

/-- Raising one entry of a table raises the sum over distinct keys by as much. -/
theorem sum_map_update {keys : List String} {f : String → Nat} {k : String} (hd : keys.Nodup)
    (hk : k ∈ keys) : (keys.map (Function.update f k (f k+1))).sum = (keys.map f).sum + 1 := by
  induction keys with
  | nil => cases hk
  | cons key keys ih =>
    obtain ⟨hnot, hd⟩ := List.nodup_cons.mp hd
    simp only [List.map_cons, List.sum_cons]
    by_cases hkey : key = k
    · subst hkey
      have hrest : keys.map (Function.update f key (f key+1)) = keys.map f := by
        apply List.map_congr_left
        intro n hn
        apply Function.update_of_ne
        rintro rfl
        exact hnot hn
      rw [Function.update_self, hrest]
      omega
    · rw [Function.update_of_ne hkey, ih hd ((List.mem_cons.mp hk).resolve_left (Ne.symm hkey))]
      omega

/-- The queues count what is dead-lettered at them. -/
theorem moves_deadLetters (h : p.Moves cfg.toPipelineConfig e p')
    (hp : p.deadLetters.length = (cfg.destinations.map p.deadLettered).sum) :
    p'.deadLetters.length = (cfg.destinations.map p'.deadLettered).sum := by
  rcases h.queues with ⟨hd, hc⟩ | ⟨record, n, m, dlq, -, -, hn, hd, hc⟩
  · rw [hd, hc, hp]
  · rw [hd, hc, sum_map_update cfg.nodup hn, List.length_cons, hp]

/-- A step of the supervised pipeline is a step of the pipeline, or closes a queue that crashed
tasks have left. -/
theorem stepNode_moves (ho : Pipeline.OutboxSound cfg.toPipelineConfig s.pipeline)
    (h : s.stepNode cfg e = some p') : s.pipeline.Moves cfg.toPipelineConfig e p' := by
  cases e with
  | cancel => cases h
  | close nodeId =>
    simp only [stepNode] at h
    split at h
    · obtain ⟨t, ht, hm⟩ := Option.bind_eq_some_iff.mp h
      obtain ⟨t', hc, rfl⟩ := Option.map_eq_some_iff.mp hm
      exact .close ho ht hc
    · cases h
  | task nodeId te =>
    simp only [stepNode] at h
    split at h
    · cases h
    · exact .task ho h
  | deliver nodeId dlq =>
    simp only [stepNode] at h
    split at h
    · exact .deliver ho h
    · cases h

/-- A task in its loop whose envelope is still being sent holds a sender. -/
theorem holdsDlqSender_of_outbox {n : String} (hl : s.live n = true)
    (ho : Pipeline.OutboxSound cfg.toPipelineConfig s.pipeline) (hn : s.pipeline.outbox n ≠ []) :
    s.pipeline.holdsDlqSender cfg.toPipelineConfig n = true := by
  obtain ⟨entry, rest, he⟩ := List.exists_cons_of_ne_nil hn
  obtain ⟨hs, hk⟩ := ho n entry (by rw [he]; exact .head _)
  have hne := List.ne_nil_of_mem hs
  simp only [live, Bool.and_eq_true, Option.any_eq_true] at hl
  obtain ⟨-, t, ht, hr⟩ := hl
  simp only [Pipeline.holdsDlqSender, ht, Option.any_some]
  cases t with
  | sink l => exact absurd ht (hk l)
  | source l q | passthrough l => simp [NodeTask.holdsDlqSender, hr, hne]
  | runner cfg w => exact hr

theorem sendersGone_iff : s.sendersGone cfg = true ↔ ∀ n ∈ cfg.nodeIds, s.live n = true →
    s.pipeline.holdsDlqSender cfg.toPipelineConfig n = false := by
  simp only [sendersGone, List.all_eq_true, Bool.not_eq_true', Bool.and_eq_false_imp]

/-- A task that may step and is not in its loop has returned. -/
theorem returned_of_not_live {n : String} {t : NodeTask} (ht : s.pipeline.tasks n = some t)
    (hc : s.crashed n = false) (hl : s.live n = false) : t.result.isNone = false := by
  cases he : (s.orchestrator.ends n).isSome with
  | true => simpa [crashed, ht, he] using hc
  | false =>
    rw [Option.isSome_eq_false_iff] at he
    simpa [live, ht, he] using hl

/-- Without a sender nothing is sent. -/
theorem newRecords_of_sendersGone (ho : Pipeline.OutboxSound cfg.toPipelineConfig s.pipeline)
    (hn : ∀ n, (s.pipeline.tasks n).isSome = true → n ∈ cfg.nodeIds)
    (hg : s.sendersGone cfg = true) (h : s.stepNode cfg e = some p') :
    newRecords cfg s.pipeline p' = [] := by
  have hm := stepNode_moves ho h
  rw [sendersGone_iff] at hg
  have hnode : ∀ n ∈ cfg.nodeIds, p'.dlqRecords n = s.pipeline.dlqRecords n := by
    intro n hmem
    rcases hm.tasks n with heq | ⟨t, i, t', ht, ht', hs, hi⟩
    · simp only [Pipeline.dlqRecords, heq]
    · simp only [Pipeline.dlqRecords, ht, ht', Option.elim_some]
      rcases hi with hi | ⟨te, rfl⟩
      · exact NodeTask.step_dlqRecords hs hi
      · -- the node's own step: its task has returned, or holds no sender
        simp only [stepNode] at h
        split at h
        · cases h
        next hc =>
        have hsilent : t.holdsDlqSender (cfg.wiring.collectDownstreamSenders n) = false := by
          cases hl : s.live n with
          | true => simpa [Pipeline.holdsDlqSender, ht] using hg n hmem hl
          | false =>
            exact NodeTask.holdsDlqSender_of_returned
              (returned_of_not_live ht (by simpa using hc) hl) _
        exact (NodeTask.step_silent hsilent hs).2
  have hdead : p'.deadLetters = s.pipeline.deadLetters := by
    rcases hm.queues with ⟨hd, -⟩ | ⟨record, n, m, dlq, rfl, hout, -⟩
    · exact hd
    · -- a task that sends is in its loop and holds a sender
      simp only [stepNode] at h
      split at h
      · next hl =>
        have hholds := holdsDlqSender_of_outbox hl ho hout
        have hmem : m ∈ cfg.nodeIds := by
          apply hn
          simp only [live, Bool.and_eq_true, Option.any_eq_true] at hl
          obtain ⟨-, t, ht, -⟩ := hl
          rw [ht]
          rfl
        rw [hg m hmem hl] at hholds
        cases hholds
      · cases h
  have hflat : cfg.nodeIds.flatMap
      (fun n => (p'.dlqRecords n).drop (s.pipeline.dlqRecords n).length) = [] := by
    rw [List.flatMap_eq_nil_iff]
    intro n hmem
    rw [hnode n hmem, List.drop_length]
  rw [newRecords, hflat, hdead, Nat.sub_self, List.take_zero, List.append_nil]

/-- A sender that is gone does not come back. -/
theorem sendersGone_of_moves (hg : s.sendersGone cfg = true)
    (hm : s.pipeline.Moves cfg.toPipelineConfig e p') {s' : SupervisedPipeline}
    (hp : s'.pipeline = p')
    (he : ∀ n how, s.orchestrator.ends n = some how → s'.orchestrator.ends n = some how) :
    s'.sendersGone cfg = true := by
  rw [sendersGone_iff] at hg ⊢
  intro n hmem hl
  simp only [live, Bool.and_eq_true, Option.any_eq_true, hp] at hl
  obtain ⟨hends, t', ht', hr'⟩ := hl
  have hends' : (s.orchestrator.ends n).isNone = true := by
    cases hend : s.orchestrator.ends n with
    | none => rfl
    | some how =>
      rw [he n how hend] at hends
      cases hends
  simp only [Pipeline.holdsDlqSender, hp, ht', Option.any_some]
  rcases hm.tasks n with heq | ⟨t, i, u, ht, hu, hs, -⟩
  · rw [heq] at ht'
    have hgone := hg n hmem (by simp [live, hends', ht', hr'])
    simpa [Pipeline.holdsDlqSender, ht'] using hgone
  · obtain rfl := Option.some.inj (hu.symm.trans ht')
    refine (NodeTask.step_silent ?_ hs).1
    cases hr : t.result.isNone with
    | true =>
      have hgone := hg n hmem (by simp [live, hends', ht, hr])
      simpa [Pipeline.holdsDlqSender, ht] using hgone
    | false => exact NodeTask.holdsDlqSender_of_returned hr _

/-- Steps that no task makes by itself record nothing. -/
theorem records_of_quiet (h : p.Moves cfg.toPipelineConfig e p') (ht : ∀ n te, e ≠ .task n te)
    (hd : ∀ n dlq, e ≠ .deliver n dlq) : records cfg p' = records cfg p := by
  have hnode : p'.dlqRecords = p.dlqRecords := by
    funext n
    rcases h.tasks n with heq | ⟨t, i, t', h1, h2, hs, hi⟩
    · simp only [Pipeline.dlqRecords, heq]
    · simp only [Pipeline.dlqRecords, h1, h2, Option.elim_some]
      refine NodeTask.step_dlqRecords hs (hi.resolve_right ?_)
      rintro ⟨te, he⟩
      exact ht n te he
  rcases h.queues with ⟨hdead, -⟩ | ⟨record, n, m, dlq, he, -⟩
  · rw [records, records, hnode, hdead]
  · exact absurd he (hd m dlq)

end Sent

/-! ## The invariant -/

/-- Every record that was accepted has been received or is in the channel, unless the dead-letter
task has failed; it only sees the end of the channel once all senders are gone. -/
structure Conserved (cfg : LaunchedPipeline) (s : SupervisedPipeline) : Prop where
  outbox : s.pipeline.OutboxSound cfg.toPipelineConfig
  spawned : ∀ n, (s.pipeline.tasks n).isSome = true → n ∈ cfg.nodeIds
  counted : ∀ n, s.pipeline.dlqSent n = (s.pipeline.dlqRecords n).length
  queues : s.pipeline.deadLetters.length = (cfg.destinations.map s.pipeline.deadLettered).sum
  held : s.dlq.failed = false → (s.dlq.received ++ s.channel).Perm (records cfg s.pipeline)
  closed : s.dlq.closing = true → s.channel = [] ∧ s.sendersGone cfg = true
  sound : s.dlq.Sound
  ended : ∀ how, s.orchestrator.dlqEnd = some how → s.dlq.ended = some how
  supervised : s.orchestrator.Supervised
  handle : s.orchestrator.dlqHandle = true

section Steps

variable {cfg : LaunchedPipeline} {polls : EventLoopPolls} {s s' : SupervisedPipeline}
  {e : PipelineEvent} {p' : Pipeline}

/-- What the pipeline itself keeps. -/
theorem Conserved.moves (hc : s.Conserved cfg) (hm : s.pipeline.Moves cfg.toPipelineConfig e p') :
    (∀ n, (p'.tasks n).isSome = true → n ∈ cfg.nodeIds) ∧
    (∀ n, p'.dlqSent n = (p'.dlqRecords n).length) ∧
    p'.deadLetters.length = (cfg.destinations.map p'.deadLettered).sum := by
  refine ⟨?_, ?_, moves_deadLetters hm hc.queues⟩
  · intro n hn
    apply hc.spawned
    rcases hm.tasks n with heq | ⟨t, i, t', ht, -⟩
    · rwa [← heq]
    · rw [ht]
      rfl
  · intro n
    obtain ⟨more, hr, hs⟩ := moves_records hm n
    rw [hs, hr, hc.counted, List.length_append]

/-- Steps of `run_until_complete` and ends of node tasks. -/
theorem Conserved.supervise {o : PipelineOrchestrator} {e : SupervisorEvent} (hc : s.Conserved cfg)
    (h : s.orchestrator.step e = some o)
    (hd : ∀ how, o.dlqEnd = some how → s.dlq.ended = some how) :
    Conserved cfg { s with orchestrator := o } := by
  have hf := PipelineOrchestrator.step_frame h
  have hgone : s.sendersGone cfg = true →
      SupervisedPipeline.sendersGone cfg { s with orchestrator := o } = true := by
    intro hg
    rw [sendersGone_iff] at hg ⊢
    intro n hn hl
    apply hg n hn
    -- a task that is in its loop now was so before
    simp only [live, Bool.and_eq_true] at hl ⊢
    refine ⟨?_, hl.2⟩
    cases hend : s.orchestrator.ends n with
    | none => rfl
    | some how =>
      have hl := hl.1
      rw [hf.ends n how hend] at hl
      cases hl
  exact ⟨hc.outbox, hc.spawned, hc.counted, hc.queues, hc.held,
    fun hd => (hc.closed hd).imp_right hgone, hc.sound, hd, hc.supervised.step h,
    hf.dlqHandle.trans hc.handle⟩

theorem Conserved.supervise_of_ne {o : PipelineOrchestrator} {e : SupervisorEvent}
    (hc : s.Conserved cfg) (h : s.orchestrator.step e = some o) (he : ∀ how, e ≠ .exitDlq how) :
    Conserved cfg { s with orchestrator := o } := by
  refine hc.supervise h fun how hd => hc.ended how ?_
  rw [← (PipelineOrchestrator.step_frame h).dlqEnd he, hd]

theorem Conserved.cancelTasks (hc : s.Conserved cfg) (h : s.cancelTasks cfg = some s') :
    s'.Conserved cfg := by
  obtain ⟨p', hp, rfl⟩ := Option.map_eq_some_iff.mp h
  have hm := Pipeline.Moves.cancel hc.outbox hp
  obtain ⟨hspawned, hcounted, hqueues⟩ := hc.moves hm
  have hr := records_of_quiet hm (fun n te he => nomatch he) (fun n dlq he => nomatch he)
  refine ⟨hm.outbox, hspawned, hcounted, hqueues, fun hf => ?_, fun hd => ?_, hc.sound, hc.ended,
    hc.supervised, hc.handle⟩
  · rw [hr]
    exact hc.held hf
  · obtain ⟨hchannel, hgone⟩ := hc.closed hd
    exact ⟨hchannel, sendersGone_of_moves hgone hm rfl fun _ _ he => he⟩

theorem Conserved.endTask {nodeId : String} {how : TaskEnd} (hc : s.Conserved cfg)
    (h : s.endTask cfg nodeId how = some s') : s'.Conserved cfg := by
  obtain ⟨o, ho, hs⟩ := Option.bind_eq_some_iff.mp h
  have hco := hc.supervise_of_ne ho (fun how he => nomatch he)
  split at hs
  · exact hco.cancelTasks hs
  · obtain rfl := Option.some.inj hs
    exact hco

theorem Conserved.node (hc : s.Conserved cfg) (h : s.step cfg polls (.node e) = some s') :
    s'.Conserved cfg := by
  obtain ⟨p', hp, hs⟩ := Option.bind_eq_some_iff.mp h
  have hm := stepNode_moves hc.outbox hp
  obtain ⟨hspawned, hcounted, hqueues⟩ := hc.moves hm
  dsimp only at hs
  split at hs
  · obtain rfl := Option.some.inj hs
    refine ⟨hm.outbox, hspawned, hcounted, hqueues, fun hf => ?_, fun hd => ?_, hc.sound, hc.ended,
      hc.supervised, hc.handle⟩
    · calc s.dlq.received ++ (s.channel ++ newRecords cfg s.pipeline p')
        _ = s.dlq.received ++ s.channel ++ newRecords cfg s.pipeline p' :=
          (List.append_assoc ..).symm
        List.Perm _ (records cfg s.pipeline ++ newRecords cfg s.pipeline p') :=
          (hc.held hf).append_right _
        List.Perm _ (records cfg p') := (records_perm hm).symm
    · -- nothing is sent any more
      obtain ⟨hchannel, hgone⟩ := hc.closed hd
      have hnew := newRecords_of_sendersGone hc.outbox hc.spawned hgone hp
      refine ⟨?_, sendersGone_of_moves hgone hm rfl fun _ _ he => he⟩
      show s.channel ++ newRecords cfg s.pipeline p' = []
      rw [hchannel, hnew, List.append_nil]
  · cases hs

theorem Conserved.dlq {e : DlqEvent} (hf : polls.Fifo) (hc : s.Conserved cfg)
    (h : s.step cfg polls (.dlq e) = some s') : s'.Conserved cfg := by
  obtain ⟨⟨t', channel'⟩, ht, rfl⟩ := Option.map_eq_some_iff.mp h
  refine ⟨hc.outbox, hc.spawned, hc.counted, hc.queues, fun hfail => ?_, fun hd => ?_,
    hc.sound.step hf ht, fun how hd => (DlqTask.step_ended (hc.ended how hd) ht).1, hc.supervised,
    hc.handle⟩
  · rcases DlqTask.step_received ht with hfailed | hr
    · rw [hfailed] at hfail
      cases hfail
    · have hbefore : s.dlq.failed = false := by
        by_contra hb
        rw [DlqTask.step_failed (by simpa using hb) ht] at hfail
        cases hfail
      show (t'.received ++ channel').Perm _
      rw [hr]
      exact hc.held hbefore
  · rcases DlqTask.step_closing hd ht with ⟨hclosing, hchannel⟩ | ⟨hgone, hchannel⟩
    · obtain ⟨hempty, hgone⟩ := hc.closed hclosing
      exact ⟨hchannel.trans hempty, hgone⟩
    · exact ⟨hchannel, hgone⟩

theorem Conserved.step {e : SupervisedEvent} (hf : polls.Fifo) (hc : s.Conserved cfg)
    (h : s.step cfg polls e = some s') : s'.Conserved cfg := by
  cases e with
  | node e => exact hc.node h
  | dlq e => exact hc.dlq hf h
  | cancel =>
    have hb : (s.orchestrator.step .cancel).bind (fun orchestrator =>
        SupervisedPipeline.cancelTasks cfg { s with orchestrator }) = some s' := h
    obtain ⟨o, ho, hs⟩ := Option.bind_eq_some_iff.mp hb
    exact (hc.supervise_of_ne ho (fun how he => nomatch he)).cancelTasks hs
  | complete nodeId =>
    obtain ⟨t, -, ht⟩ := Option.bind_eq_some_iff.mp h
    obtain ⟨result, -, hs⟩ := Option.bind_eq_some_iff.mp ht
    exact hc.endTask hs
  | fail nodeId how =>
    simp only [SupervisedPipeline.step] at h
    split at h
    · exact hc.endTask h
    · cases h
  | completeDlq =>
    obtain ⟨how, hd, hm⟩ := Option.bind_eq_some_iff.mp h
    obtain ⟨o, ho, rfl⟩ := Option.map_eq_some_iff.mp hm
    refine hc.supervise ho ?_
    intro how' hd'
    simp only [PipelineOrchestrator.step] at ho
    split at ho
    · obtain rfl := Option.some.inj ho
      rwa [← Option.some.inj hd']
    · cases ho
  | supervise e =>
    simp only [SupervisedPipeline.step] at h
    split at h
    · next hown =>
      obtain ⟨o, ho, rfl⟩ := Option.map_eq_some_iff.mp h
      refine hc.supervise_of_ne ho ?_
      rintro how rfl
      cases hown
    · cases h

/-- Nothing was sent by a task that was just spawned. -/
theorem spawn_records (cfg : LaunchedPipeline) {n : String} {spec : NodeSpec}
    (hn : cfg.nodes n = some spec) :
    (cfg.spawn n spec).dlqRecords = [] ∧ (cfg.spawn n spec).metrics.dlqSent = 0 ∧
      (cfg.spawn n spec).input.metrics.deadLettered = 0 := by
  have hq : (cfg.wiring.takeReceiver n).metrics.deadLettered = 0 := by
    unfold QueueWiring.takeReceiver
    split <;> rfl
  cases spec with
  | source | sink | passthrough => exact ⟨rfl, rfl, hq⟩
  | runner loop setup =>
    refine ⟨?_, rfl, rfl⟩
    show ErrorPolicyExecutor.dlqRecords (.new setup.policy setup.dlqSender _) = []
    rw [cfg.senders n loop setup hn]
    rfl

theorem Conserved.start (cfg : LaunchedPipeline) : (SupervisedPipeline.start cfg).Conserved cfg := by
  have hnode : ∀ n, (SupervisedPipeline.start cfg).pipeline.dlqRecords n = [] ∧
      (SupervisedPipeline.start cfg).pipeline.dlqSent n = 0 ∧ (SupervisedPipeline.start cfg).pipeline.deadLettered n = 0 := by
    intro n
    simp only [SupervisedPipeline.start, Pipeline.start, Pipeline.dlqRecords, Pipeline.dlqSent, Pipeline.deadLettered]
    cases hn : cfg.nodes n with
    | none => exact ⟨rfl, rfl, rfl⟩
    | some spec => exact spawn_records cfg hn
  have hlists : (SupervisedPipeline.start cfg).dlq.received = [] ∧ (SupervisedPipeline.start cfg).dlq.closing = false := by
    simp only [SupervisedPipeline.start, DlqTask.start]
    cases cfg.sink <;> exact ⟨rfl, rfl⟩
  refine ⟨fun n entry he => ?_, fun n hn => ?_, fun n => ?_, ?_, fun _ => ?_, fun hd => ?_,
    .start _, fun how hd => ?_, .start .., rfl⟩
  · cases he
  · rw [cfg.spawned, ← hn]
    exact (Option.isSome_map ..).symm
  · rw [(hnode n).1, (hnode n).2.1]
    rfl
  · have hzero : (SupervisedPipeline.start cfg).pipeline.deadLettered = fun _ => 0 := by
      funext n
      exact (hnode n).2.2
    rw [hzero]
    simp [SupervisedPipeline.start, Pipeline.start]
  · have hzero : (SupervisedPipeline.start cfg).pipeline.dlqRecords = fun _ => [] := by
      funext n
      exact (hnode n).1
    rw [hlists.1, records, hzero]
    simp [SupervisedPipeline.start, Pipeline.start]
  · rw [hlists.2] at hd
    cases hd
  · cases hd

end Steps

/-- When `run_until_complete` has returned `Ok`, the records the dead-letter task has written are
those the channel accepted, each once: as many as the nodes count as `dlq_sent` and the queues as
`dead_lettered`. -/
theorem dead_letters_conserved {cfg : LaunchedPipeline} {polls : EventLoopPolls}
    {events : List SupervisedEvent} {s : SupervisedPipeline} (hf : polls.Fifo)
    (h : run cfg polls events = some s) (hr : s.orchestrator.pc = .returned (.ok ())) :
    s.dlq.written.Perm (records cfg s.pipeline) ∧
      s.dlq.written.length = (cfg.nodeIds.map s.pipeline.dlqSent).sum +
        (cfg.destinations.map s.pipeline.deadLettered).sum := by
  have hc : s.Conserved cfg := Lib.exec_invariant (fun _ _ _ => Conserved.step hf) h (.start cfg)
  have hended := hc.ended _ ((hc.supervised.returned_ok hr).2 hc.handle)
  have hperm : s.dlq.written.Perm (records cfg s.pipeline) := by
    have hclosing : s.dlq.closing = true := DlqTask.closing_of_ended hended rfl
    have hfailed : s.dlq.failed = false := by simp [DlqTask.failed, hended, TaskEnd.failed]
    have hheld := hc.held hfailed
    rw [(hc.closed hclosing).1, List.append_nil] at hheld
    rwa [hc.sound.written hended]
  refine ⟨hperm, ?_⟩
  have hsum : cfg.nodeIds.map s.pipeline.dlqSent =
      cfg.nodeIds.map fun n => (s.pipeline.dlqRecords n).length :=
    List.map_congr_left fun n _ => hc.counted n
  rw [hperm.length_eq, records, List.length_append, List.length_flatMap, hc.queues, hsum]

/-! A source, a filter behind a queue for one message, and a dead-letter topic. The source's second
message finds the queue full, and the guest refuses the first. -/

/-- An event loop that takes the requests in order. -/
def inOrder : EventLoopPolls
  | requests, outgoing, .outgoing request => (outgoing ++ [request]).isPrefixOf requests
  | _, _, _ => true

theorem inOrder_fifo : inOrder.Fifo := by
  intro requests outgoing request h
  exact List.isPrefixOf_iff_prefix.mp h

def refusingSetup : LoopSetup :=
  { screenSetup with
    policy := ⟨.dlq, ⟨0, 0, .skip⟩, ⟨1, 1, .skip⟩, .skip, 1⟩, dlqSender := some {} }

def alarmed : LaunchedPipeline where
  nodes n :=
    if n = "meter" then some .source
    else if n = "screen" then some (.runner ⟨.filter, "screen", .standard⟩ refusingSetup)
    else if n = "last" then some (.sink none)
    else none
  edges := [{ fromNode := "meter", toNode := "screen", overflow := some .deadLetter },
    { fromNode := "screen", toNode := "last" }]
  defaultQueueCapacity := 1
  deadLetter := true
  destinations := ["screen", "last"]
  nodup := screen_last_nodup
  grouped n := by simp [eq_comm]
  endpoints := by simp
  nodeIds := ["meter", "screen", "last"]
  distinct := by decide
  spawned n := by
    simp only [List.mem_cons, List.not_mem_nil, or_false]
    by_cases h1 : n = "meter"
    · simp [h1]
    by_cases h2 : n = "screen"
    · simp [h2]
    by_cases h3 : n = "last" <;> simp [h1, h2, h3]
  sink := .mqtt "broker" 1883 "dlq" 8
  hasSink := rfl
  senders n loop setup h := by
    split at h
    · cases h
    · split at h
      · obtain ⟨-, rfl⟩ := NodeSpec.runner.inj (Option.some.inj h)
        rfl
      · split at h <;> cases h

def overflowed : DlqEnvelope :=
  { timestamp := 7, sourceNode := "meter", errorCategory := none
    errorMessage := "destination queue full", retryCount := 0
    reason := .queueFull "meter:default->screen:default"
    original := (RuntimeEnvelope.new "n" 1 "meter" []).ensureTraceId "u"
    traceId := some "u", parentId := none }

def refused : DlqEnvelope :=
  { timestamp := 9, sourceNode := "screen", errorCategory := some .badInput, errorMessage := "odd"
    retryCount := 0, reason := .badInput
    original := (RuntimeEnvelope.new "m" 0 "meter" []).ensureTraceId "t"
    traceId := some "t", parentId := none }

def alarmedMeter : List PipelineEvent :=
  [.task "meter" (.source (.poll (.item (metered "m" 0) "t"))),
    .deliver "meter" ⟨0, .ok⟩, .task "meter" (.source .sent),
    .task "meter" (.source (.poll (.item (metered "n" 1) "u"))),
    .deliver "meter" ⟨7, .ok⟩, .task "meter" (.source .sent), .task "meter" (.source (.poll .eof)),
    .task "meter" (.source .closed), .close "screen"]

def refuseAnswer : Event :=
  .returned (.evaluate { result := .ok (.error (.badInput "odd")) })
    { noFailure with policyAttempt := ⟨9, .ok⟩ }

def alarmedScreen : List Event :=
  idleRound ++ [.select .recv, .advance, refuseAnswer] ++ idleRound ++
    [.select .recv, .advance, .advance, .shutdown noAttempts]

def alarmedLast : List SinkEvent := [.recv, .tryRecv, .flush (.ok ()), .finish (.ok ())]

def alarmedDlq : List DlqEvent :=
  [.start (.ok ()), .record {}, .publish (.ok ()) (.ok ()), .poll (.outgoing (.publish overflowed)),
    .record {}, .publish (.ok ()) (.ok ()), .closed {}, .disconnect (.ok ()),
    .poll (.outgoing (.publish refused)), .poll (.outgoing .disconnect), .joinEventLoop]

def alarmedJoins : List SupervisorEvent :=
  [.join "last", .join "screen", .join "meter", .joinedAll, .joinDlq]

/-- The nodes end, both records are published, and `run_until_complete` joins everything. -/
def alarmedRun : List SupervisedEvent :=
  alarmedMeter.map .node ++ (ofNode "screen" alarmedScreen).map .node ++ [.node (.close "last")] ++
    alarmedLast.map (fun e => .node (.task "last" (.sink e))) ++ alarmed.nodeIds.map .complete ++
    alarmedDlq.map .dlq ++ [.completeDlq] ++ alarmedJoins.map .supervise

def returnedOk : SupervisorPc → Bool
  | .returned (.ok ()) => true
  | _ => false

theorem dead_letters_conserved_alarmed :
    ∃ s, run alarmed inOrder alarmedRun = some s ∧ s.orchestrator.pc = .returned (.ok ()) ∧
      s.dlq.written = [overflowed, refused] ∧ s.dlq.written.Perm (records alarmed s.pipeline) ∧
      s.dlq.written.length = (alarmed.nodeIds.map s.pipeline.dlqSent).sum +
        (alarmed.destinations.map s.pipeline.deadLettered).sum := by
  have hr : (run alarmed inOrder alarmedRun).any (fun s =>
      returnedOk s.orchestrator.pc && s.dlq.written = [overflowed, refused]) = true := by
    decide +kernel
  rw [Option.any_eq_true] at hr
  obtain ⟨s, h, hs⟩ := hr
  rw [Bool.and_eq_true, decide_eq_true_eq] at hs
  obtain ⟨hpc, hw⟩ := hs
  have hpc : s.orchestrator.pc = .returned (.ok ()) := by
    unfold returnedOk at hpc
    split at hpc
    · assumption
    · cases hpc
  exact ⟨s, h, hpc, hw, dead_letters_conserved inOrder_fifo h hpc⟩

end SupervisedPipeline

end Wafer
