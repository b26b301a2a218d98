import Wafer.Orchestrator.Builder
import Wafer.Orchestrator.Passthrough
import Wafer.Runner.Sink
import Wafer.Runner.Source
import Wafer.Runner.SwapBarrier

/-!
# The running pipeline

Every node of a pipeline is a task with its own loop and its own input queue.
A step is a step of one task, one `send_one` of the envelope a task is sending,
the last sender of a queue going away, or cancellation. The order is arbitrary.

## Main definitions

- `NodeTask` — the task of a node, over the loops
- `PipelineConfig`, `Pipeline` — what is wired and what runs
- `Pipeline.step`, `Pipeline.run`
-/

namespace Wafer

/-! ## Tasks -/

/-- What is started for a node: an I/O adapter, a node with an instance, or one without. -/
inductive NodeSpec
  | source
  | sink (batchTimeout : Option Nat)
  | passthrough
  | runner (cfg : LoopConfig) (setup : LoopSetup)

/-- A source has no receiver: an edge into it would end in a queue nobody reads. -/
inductive NodeTask
  | source (loop : SourceLoop) (input : InputQueue)
  | sink (loop : SinkLoop)
  | passthrough (loop : PassthroughLoop)
  | runner (cfg : LoopConfig) (world : World)

/-- A step of a task that it makes by itself. -/
inductive TaskEvent
  | source (e : SourceEvent)
  | sink (e : SinkEvent)
  | passthrough (e : PassthroughEvent)
  | runner (e : Event)

namespace TaskEvent

/-- Steps of the task itself, not of its senders or of the orchestrator. -/
def own : TaskEvent → Bool
  | source .cancel => false
  | sink (.arrive _) | sink .close | sink (.refuse _) | sink .cancel => false
  | passthrough (.arrive _) | passthrough .close | passthrough (.refuse _)
  | passthrough .cancel => false
  | runner (.arrive _) | runner .close | runner (.refuse _) | runner .cancel => false
  | _ => true

/-- The step after the last `send_one` of an envelope. -/
def isSent : TaskEvent → Bool
  | source .sent | passthrough .sent | runner .sent => true
  | _ => false

end TaskEvent

namespace NodeTask

def input : NodeTask → InputQueue
  | source _ q => q
  | sink l => l.input
  | passthrough l => l.input
  | runner _ w => w.input

/-- The task still holds its receiver. -/
def receiving : NodeTask → Bool
  | source .. => false
  | sink l => l.running
  | passthrough l => l.running
  | runner _ w => w.running

def cancelled : NodeTask → Bool
  | source l _ => l.cancelled
  | sink l => l.cancelled
  | passthrough l => l.cancelled
  | runner _ w => w.cancelled

/-- What the task returned. -/
def result : NodeTask → Option (Except WaferError Unit)
  | source l _ =>
    match l.pc with
    | .exited r => some r
    | _ => none
  | sink l =>
    match l.pc with
    | .exited r => some r
    | _ => none
  | passthrough l =>
    match l.pc with
    | .exited => some (.ok ())
    | _ => none
  | runner _ w =>
    match w.pc with
    | .exited r => some r
    | _ => none

/-- The envelope the task is sending, and to which senders. -/
def sending : NodeTask → Option Outgoing
  | source l _ =>
    match l.pc with
    | .sending envelope => some ⟨.all, envelope⟩
    | _ => none
  | sink _ => none
  | passthrough l =>
    match l.pc with
    | .sending envelope => some ⟨.all, envelope⟩
    | _ => none
  | runner _ w =>
    match w.pc with
    | .sending _ out => some out
    | _ => none

def fire : NodeTask → TaskEvent → Option NodeTask
  | source l q, .source e => (l.step e).map (source · q)
  | sink l, .sink e => (l.step e).map sink
  | passthrough l, .passthrough e => (l.step e).map passthrough
  | runner cfg w, .runner e => (step cfg w e).map (runner cfg)
  | _, _ => none

def arrive (t : NodeTask) (envelope : RuntimeEnvelope) : Option NodeTask :=
  match t with
  | source .. => none
  | sink _ => t.fire (.sink (.arrive envelope))
  | passthrough _ => t.fire (.passthrough (.arrive envelope))
  | runner .. => t.fire (.runner (.arrive envelope))

def refuse (t : NodeTask) (r : QueueMetrics.Refusal) : Option NodeTask :=
  match t with
  | source l q => some (.source l (q.refuse r))
  | sink _ => t.fire (.sink (.refuse r))
  | passthrough _ => t.fire (.passthrough (.refuse r))
  | runner .. => t.fire (.runner (.refuse r))

def close (t : NodeTask) : Option NodeTask :=
  match t with
  | source l q => some (.source l { q with closed := true })
  | sink _ => t.fire (.sink .close)
  | passthrough _ => t.fire (.passthrough .close)
  | runner .. => t.fire (.runner .close)

def cancel (t : NodeTask) : Option NodeTask :=
  match t with
  | source .. => t.fire (.source .cancel)
  | sink _ => t.fire (.sink .cancel)
  | passthrough _ => t.fire (.passthrough .cancel)
  | runner .. => t.fire (.runner .cancel)

end NodeTask

/-- What happens to a task: a step of its own, or one of its senders or of the orchestrator. -/
inductive TaskInput
  | own (e : TaskEvent)
  | arrive (envelope : RuntimeEnvelope)
  | refuse (r : QueueMetrics.Refusal)
  | close
  | cancel

def NodeTask.step (t : NodeTask) : TaskInput → Option NodeTask
  | .own e => if e.own then t.fire e else none
  | .arrive envelope => t.arrive envelope
  | .refuse r => t.refuse r
  | .close => t.close
  | .cancel => t.cancel

/-- Whose step a loop's event is. -/
def TaskEvent.input : TaskEvent → TaskInput
  | sink (.arrive envelope) | passthrough (.arrive envelope) | runner (.arrive envelope) =>
    .arrive envelope
  | sink (.refuse r) | passthrough (.refuse r) | runner (.refuse r) => .refuse r
  | sink .close | passthrough .close | runner .close => .close
  | source .cancel | sink .cancel | passthrough .cancel | runner .cancel => .cancel
  | e => .own e

/-- Every step of a task is a step of its loop, or of the queue in front of a source. -/
inductive TaskStep : NodeTask → TaskInput → NodeTask → Prop
  | source {l l' : SourceLoop} {q : InputQueue} {e : SourceEvent} {i : TaskInput}
      (fired : l.step e = some l') (input : (TaskEvent.source e).input = i) :
      TaskStep (.source l q) i (.source l' q)
  | refused {l : SourceLoop} {q : InputQueue} {r : QueueMetrics.Refusal} :
      TaskStep (.source l q) (.refuse r) (.source l (q.refuse r))
  | closed {l : SourceLoop} {q : InputQueue} :
      TaskStep (.source l q) .close (.source l { q with closed := true })
  | sink {l l' : SinkLoop} {e : SinkEvent} {i : TaskInput} (fired : l.step e = some l')
      (input : (TaskEvent.sink e).input = i) : TaskStep (.sink l) i (.sink l')
  | passthrough {l l' : PassthroughLoop} {e : PassthroughEvent} {i : TaskInput}
      (fired : l.step e = some l') (input : (TaskEvent.passthrough e).input = i) :
      TaskStep (.passthrough l) i (.passthrough l')
  | runner {cfg : LoopConfig} {w w' : World} {e : Event} {i : TaskInput}
      (fired : step cfg w e = some w') (input : (TaskEvent.runner e).input = i) :
      TaskStep (.runner cfg w) i (.runner cfg w')

section Steps

variable {t t' : NodeTask} {i : TaskInput}

theorem TaskEvent.input_of_own {e : TaskEvent} (h : e.own = true) : e.input = .own e := by
  cases e with
  | source e | sink e | passthrough e | runner e =>
    cases e <;> first
      | rfl
      | exact (nomatch h)

theorem TaskStep.of_fire {e : TaskEvent} (h : t.fire e = some t') : TaskStep t e.input t' := by
  cases t with
  | source l q =>
    cases e with
    | source e =>
      obtain ⟨l', hl, rfl⟩ := Option.map_eq_some_iff.mp h
      exact .source hl rfl
    | sink | passthrough | runner => exact absurd h nofun
  | sink l =>
    cases e with
    | sink e =>
      obtain ⟨l', hl, rfl⟩ := Option.map_eq_some_iff.mp h
      exact .sink hl rfl
    | source | passthrough | runner => exact absurd h nofun
  | passthrough l =>
    cases e with
    | passthrough e =>
      obtain ⟨l', hl, rfl⟩ := Option.map_eq_some_iff.mp h
      exact .passthrough hl rfl
    | source | sink | runner => exact absurd h nofun
  | runner cfg w =>
    cases e with
    | runner e =>
      obtain ⟨w', hw, rfl⟩ := Option.map_eq_some_iff.mp h
      exact .runner hw rfl
    | source | sink | passthrough => exact absurd h nofun

theorem task_step (h : t.step i = some t') : TaskStep t i t' := by
  cases i with
  | own e =>
    simp only [NodeTask.step] at h
    split at h
    · next ho =>
      rw [← TaskEvent.input_of_own ho]
      exact .of_fire h
    · exact absurd h nofun
  | arrive envelope =>
    cases t with
    | source => exact absurd h nofun
    | sink => exact .of_fire (e := .sink (.arrive envelope)) h
    | passthrough => exact .of_fire (e := .passthrough (.arrive envelope)) h
    | runner => exact .of_fire (e := .runner (.arrive envelope)) h
  | refuse r =>
    cases t with
    | source =>
      obtain rfl := Option.some.inj h
      exact .refused
    | sink => exact .of_fire (e := .sink (.refuse r)) h
    | passthrough => exact .of_fire (e := .passthrough (.refuse r)) h
    | runner => exact .of_fire (e := .runner (.refuse r)) h
  | close =>
    cases t with
    | source =>
      obtain rfl := Option.some.inj h
      exact .closed
    | sink => exact .of_fire (e := .sink .close) h
    | passthrough => exact .of_fire (e := .passthrough .close) h
    | runner => exact .of_fire (e := .runner .close) h
  | cancel =>
    cases t with
    | source => exact .of_fire (e := .source .cancel) h
    | sink => exact .of_fire (e := .sink .cancel) h
    | passthrough => exact .of_fire (e := .passthrough .cancel) h
    | runner => exact .of_fire (e := .runner .cancel) h

/-- The runner of a task does a run of its loop. -/
theorem runner_run {cfg : LoopConfig} {w : World} {inputs : List TaskInput}
    (h : Lib.exec NodeTask.step (.runner cfg w) inputs = some t) :
    ∃ w', t = .runner cfg w' ∧ Lib.Reaches (step cfg) w w' := by
  refine Lib.exec_invariant (P := fun t => ∃ w', t = .runner cfg w' ∧
    Lib.Reaches (step cfg) w w') ?_ h ⟨w, rfl, .refl⟩
  rintro _ i t' ⟨w', rfl, hr⟩ hs
  cases task_step hs with
  | runner fired => exact ⟨_, rfl, hr.tail fired⟩

end Steps

/-- A configuration that `DagGraph::from_config` accepts: edges join declared nodes. The
destinations are listed in the order the wiring happens to visit them. -/
structure PipelineConfig where
  nodes : String → Option NodeSpec
  edges : List EdgeDef
  defaultQueueCapacity : Nat
  deadLetter : Bool
  destinations : List String
  nodup : destinations.Nodup
  grouped : ∀ n, n ∈ destinations ↔ ∃ e ∈ edges, e.toNode = n
  endpoints : ∀ e ∈ edges, (nodes e.fromNode).isSome = true ∧ (nodes e.toNode).isSome = true

namespace PipelineConfig

def wiring (cfg : PipelineConfig) : QueueWiring :=
  { wireQueues cfg.destinations cfg.edges cfg.defaultQueueCapacity with
    dlqSender := cfg.deadLetter }

def spawn (cfg : PipelineConfig) (nodeId : String) : NodeSpec → NodeTask
  | .source => .source { nodeId } (cfg.wiring.takeReceiver nodeId)
  | .sink batchTimeout =>
    .sink { nodeId, batchTimeout, input := cfg.wiring.takeReceiver nodeId }
  | .passthrough => .passthrough { input := cfg.wiring.takeReceiver nodeId }
  | .runner loop setup =>
    let loop := { loop with nodeId }
    .runner loop
      (.start loop { setup with capacity := (cfg.wiring.takeReceiver nodeId).capacity })

end PipelineConfig

/-- The tasks, the sends each has left, and the dead letters of full queues, newest first. -/
structure Pipeline where
  tasks : String → Option NodeTask
  outbox : String → List (DownstreamSender × RuntimeEnvelope) := fun _ => []
  deadLetters : List DlqEnvelope := []

inductive PipelineEvent
  | cancel
  /-- the last sender into the node's queue is dropped -/
  | close (nodeId : String)
  | task (nodeId : String) (e : TaskEvent)
  /-- the next `send_one` of the envelope the node is sending -/
  | deliver (nodeId : String) (dlq : DlqAttempt)

namespace Pipeline

def start (cfg : PipelineConfig) : Pipeline where
  tasks nodeId := (cfg.nodes nodeId).map (cfg.spawn nodeId)

def setTask (p : Pipeline) (nodeId : String) (t : NodeTask) : Pipeline :=
  { p with tasks := Function.update p.tasks nodeId (some t) }

/-- The node holds no sender: its task has returned, or it is a sink, which gets none. -/
def released (p : Pipeline) (nodeId : String) : Bool :=
  match p.tasks nodeId with
  | some (.sink _) => true
  | some t => t.result.isSome
  | none => true

/-- A task that starts to send gets one send for each selected sender. -/
def fireTask (cfg : PipelineConfig) (p : Pipeline) (nodeId : String) (t : NodeTask)
    (e : TaskEvent) : Option Pipeline :=
  (t.fire e).map fun t' =>
    match t.sending, t'.sending with
    | none, some out =>
      let senders := sendMatching (cfg.wiring.collectDownstreamSenders nodeId) out.selection
      { p.setTask nodeId t' with
        outbox := Function.update p.outbox nodeId (senders.map fun s => (s, out.envelope)) }
    | _, _ => p.setTask nodeId t'

/-- One `send_one`; `none` while it waits for room. -/
def deliver (p : Pipeline) (sender : DownstreamSender) (envelope : RuntimeEnvelope)
    (dlq : DlqAttempt) : Option Pipeline :=
  match p.tasks sender.toNode with
  | none => none
  | some t =>
    match sendOne sender t.receiving t.input envelope dlq with
    | .waits => none
    | .enqueued => (t.arrive envelope).map (p.setTask sender.toNode)
    | .refused r => (t.refuse r).map (p.setTask sender.toNode)
    | .deadLettered record => (t.refuse .deadLettered).map fun t' =>
        { p.setTask sender.toNode t' with deadLetters := record :: p.deadLetters }

/-- Fire one event; `none` where it is not enabled. -/
def step (cfg : PipelineConfig) (p : Pipeline) : PipelineEvent → Option Pipeline
  | .cancel => some { p with tasks := fun n => (p.tasks n).bind NodeTask.cancel }
  | .close nodeId =>
    if (cfg.wiring.upstream nodeId).all p.released then
      (p.tasks nodeId).bind fun t => t.close.map (p.setTask nodeId)
    else none
  | .task nodeId e =>
    if e.own = true ∧ (e.isSent = true → p.outbox nodeId = []) then
      (p.tasks nodeId).bind fun t => p.fireTask cfg nodeId t e
    else none
  | .deliver nodeId dlq =>
    match p.outbox nodeId with
    | [] => none
    | (sender, envelope) :: rest =>
      (p.deliver sender envelope dlq).map fun p' =>
        { p' with outbox := Function.update p'.outbox nodeId rest }

def run (cfg : PipelineConfig) (events : List PipelineEvent) : Option Pipeline :=
  Lib.exec (step cfg) (start cfg) events

/-! ## The tasks along a run -/

section Tasks

variable {cfg : PipelineConfig} {p p' : Pipeline} {e : PipelineEvent} {nodeId : String}
  {t t' : NodeTask}

theorem fireTask_tasks {e : TaskEvent} (h : p.fireTask cfg nodeId t e = some p') :
    ∃ t', t.fire e = some t' ∧ p'.tasks = Function.update p.tasks nodeId (some t') := by
  obtain ⟨t', hf, rfl⟩ := Option.map_eq_some_iff.mp h
  refine ⟨t', hf, ?_⟩
  dsimp only
  split <;> rfl

/-- The sends of a step are those that were left, or those of an envelope its task starts to send. -/
theorem fireTask_outbox {e : TaskEvent} (h : p.fireTask cfg nodeId t e = some p') {n : String}
    {entry : DownstreamSender × RuntimeEnvelope} (hm : entry ∈ p'.outbox n) :
    entry ∈ p.outbox n ∨ n = nodeId ∧ ∃ t' out, t.fire e = some t' ∧ t'.sending = some out ∧
      entry.2 = out.envelope := by
  obtain ⟨t', hf, rfl⟩ := Option.map_eq_some_iff.mp h
  dsimp only at hm
  split at hm
  · next out _ ho =>
    by_cases hn : n = nodeId
    · subst hn
      simp only [Function.update_self] at hm
      obtain ⟨s, -, rfl⟩ := List.mem_map.mp hm
      exact .inr ⟨rfl, t', out, hf, ho, rfl⟩
    · simp only [Function.update_of_ne hn] at hm
      exact .inl hm
  · exact .inl hm

/-- One `send_one` is an arrival or a refusal at the destination. -/
theorem deliver_tasks {sender : DownstreamSender} {envelope : RuntimeEnvelope} {dlq : DlqAttempt}
    (h : p.deliver sender envelope dlq = some p') :
    p'.outbox = p.outbox ∧ ∃ t i t', p.tasks sender.toNode = some t ∧ t.step i = some t' ∧
      p'.tasks = Function.update p.tasks sender.toNode (some t') ∧
      (i = .arrive envelope ∨ ∃ r, i = .refuse r) := by
  unfold deliver at h
  split at h
  · exact absurd h nofun
  next t ht =>
  split at h
  · exact absurd h nofun
  · obtain ⟨t', hs, rfl⟩ := Option.map_eq_some_iff.mp h
    exact ⟨rfl, t, .arrive envelope, t', ht, hs, rfl, .inl rfl⟩
  · next r _ =>
    obtain ⟨t', hs, rfl⟩ := Option.map_eq_some_iff.mp h
    exact ⟨rfl, t, .refuse r, t', ht, hs, rfl, .inr ⟨r, rfl⟩⟩
  · obtain ⟨t', hs, rfl⟩ := Option.map_eq_some_iff.mp h
    exact ⟨rfl, t, .refuse .deadLettered, t', ht, hs, rfl, .inr ⟨_, rfl⟩⟩

theorem cancel_enabled (t : NodeTask) : ∃ t', t.cancel = some t' := by
  cases t <;> exact ⟨_, rfl⟩

theorem step_task {te : TaskEvent} (h : p.step cfg (.task nodeId te) = some p') :
    ∃ t t', p.tasks nodeId = some t ∧ t.step (.own te) = some t' ∧ t.fire te = some t' ∧
      p'.tasks = Function.update p.tasks nodeId (some t') := by
  simp only [step] at h
  split at h
  · next hg =>
    obtain ⟨t, ht, hp⟩ := Option.bind_eq_some_iff.mp h
    obtain ⟨t', hf, hu⟩ := fireTask_tasks hp
    refine ⟨t, t', ht, ?_, hf, hu⟩
    simpa only [NodeTask.step, if_pos hg.1] using hf
  · exact absurd h nofun

/-- Where a step of the task of `nodeId` comes from. -/
inductive Causes (p : Pipeline) (nodeId : String) : PipelineEvent → TaskInput → Prop
  | own {e : TaskEvent} : Causes p nodeId (.task nodeId e) (.own e)
  | arrive {m : String} {dlq : DlqAttempt} {envelope : RuntimeEnvelope}
      (left : envelope ∈ (p.outbox m).map Prod.snd) :
      Causes p nodeId (.deliver m dlq) (.arrive envelope)
  | refuse {m : String} {dlq : DlqAttempt} {r : QueueMetrics.Refusal} :
      Causes p nodeId (.deliver m dlq) (.refuse r)
  | close : Causes p nodeId (.close nodeId) .close
  | cancel : Causes p nodeId .cancel .cancel

/-- A step of the pipeline is at most one step of each task. -/
theorem step_tasks (h : p.step cfg e = some p') (n : String) :
    p'.tasks n = p.tasks n ∨ ∃ t i t', p.tasks n = some t ∧ p'.tasks n = some t' ∧
      t.step i = some t' ∧ p.Causes n e i := by
  cases e with
  | cancel =>
    obtain rfl := Option.some.inj h
    cases ht : p.tasks n with
    | none => exact .inl (congrArg (·.bind NodeTask.cancel) ht)
    | some t =>
      obtain ⟨t', hc⟩ := cancel_enabled t
      exact .inr ⟨t, .cancel, t', rfl, (congrArg (·.bind NodeTask.cancel) ht).trans hc, hc, .cancel⟩
  | close nodeId =>
    simp only [step] at h
    split at h
    · obtain ⟨t, ht, hm⟩ := Option.bind_eq_some_iff.mp h
      obtain ⟨t', hc, rfl⟩ := Option.map_eq_some_iff.mp hm
      by_cases hn : n = nodeId
      · subst hn
        exact .inr ⟨t, .close, t', ht, Function.update_self .., hc, .close⟩
      · exact .inl (Function.update_of_ne hn ..)
    · exact absurd h nofun
  | task nodeId e =>
    obtain ⟨t, t', ht, hs, -, hu⟩ := step_task h
    by_cases hn : n = nodeId
    · subst hn
      exact .inr ⟨t, .own e, t', ht, by rw [hu, Function.update_self], hs, .own⟩
    · exact .inl (by rw [hu, Function.update_of_ne hn])
  | deliver nodeId dlq =>
    simp only [step] at h
    split at h
    · exact absurd h nofun
    next sender envelope rest ho =>
    obtain ⟨q, hd, rfl⟩ := Option.map_eq_some_iff.mp h
    obtain ⟨-, t, i, t', ht, hs, hu, hi⟩ := deliver_tasks hd
    by_cases hn : n = sender.toNode
    · subst hn
      refine .inr ⟨t, i, t', ht, (congrFun hu _).trans (Function.update_self ..), hs, ?_⟩
      rcases hi with rfl | ⟨r, rfl⟩
      · refine .arrive (m := nodeId) ?_
        rw [ho]
        exact .head _
      · exact .refuse
    · exact .inl ((congrFun hu _).trans (Function.update_of_ne hn ..))

/-- What is left to send was left before the step, or its task is sending it now. -/
theorem step_outbox (h : p.step cfg e = some p') {n : String}
    {entry : DownstreamSender × RuntimeEnvelope} (hm : entry ∈ p'.outbox n) :
    entry ∈ p.outbox n ∨ ∃ t out, p'.tasks n = some t ∧ t.sending = some out ∧
      entry.2 = out.envelope := by
  cases e with
  | cancel =>
    obtain rfl := Option.some.inj h
    exact .inl hm
  | close nodeId =>
    simp only [step] at h
    split at h
    · obtain ⟨t, -, ht⟩ := Option.bind_eq_some_iff.mp h
      obtain ⟨t', -, rfl⟩ := Option.map_eq_some_iff.mp ht
      exact .inl hm
    · exact absurd h nofun
  | task nodeId e =>
    simp only [step] at h
    split at h
    · obtain ⟨t, -, hf⟩ := Option.bind_eq_some_iff.mp h
      refine (fireTask_outbox hf hm).imp_right ?_
      rintro ⟨rfl, t', out, ht, hs, he⟩
      obtain ⟨t'', ht', hu⟩ := fireTask_tasks hf
      obtain rfl := Option.some.inj (ht.symm.trans ht')
      exact ⟨t', out, by rw [hu, Function.update_self], hs, he⟩
    · exact absurd h nofun
  | deliver nodeId dlq =>
    simp only [step] at h
    split at h
    · exact absurd h nofun
    next sender envelope rest ho =>
    obtain ⟨q, hd, rfl⟩ := Option.map_eq_some_iff.mp h
    have hq := (deliver_tasks hd).1
    by_cases hn : n = nodeId
    · subst hn
      simp only [Function.update_self] at hm
      exact .inl (by rw [ho]; exact .tail _ hm)
    · simp only [Function.update_of_ne hn] at hm
      exact .inl (hq ▸ hm)

/-- Tasks neither appear nor go away. -/
theorem tasks_isSome {events : List PipelineEvent} (h : run cfg events = some p) (n : String) :
    (p.tasks n).isSome = (cfg.nodes n).isSome := by
  refine Lib.exec_invariant (P := fun p => (p.tasks n).isSome = (cfg.nodes n).isSome) ?_ h ?_
  · intro p e p' hp hs
    rcases step_tasks hs n with hn | ⟨t, i, t', ht, ht', -⟩
    · rw [hn, hp]
    · rw [← hp, ht, ht']
      rfl
  · exact Option.isSome_map ..

/-- Every task does a run of its own loop from how it was spawned. -/
theorem tasks_run {events : List PipelineEvent} (h : run cfg events = some p) (ht : p.tasks nodeId = some t) :
    ∃ spec inputs, cfg.nodes nodeId = some spec ∧
      Lib.exec NodeTask.step (cfg.spawn nodeId spec) inputs = some t ∧
      (.cancel ∈ inputs → .cancel ∈ events) := by
  refine Lib.exec_induction (P := fun events p => ∀ t, p.tasks nodeId = some t →
    ∃ spec inputs, cfg.nodes nodeId = some spec ∧
      Lib.exec NodeTask.step (cfg.spawn nodeId spec) inputs = some t ∧
      (.cancel ∈ inputs → .cancel ∈ events)) ?_ ?_ h t ht
  · intro t ht
    obtain ⟨spec, hs, rfl⟩ := Option.map_eq_some_iff.mp ht
    exact ⟨spec, [], hs, rfl, nofun⟩
  · intro events p e p' ih hs t ht
    rcases step_tasks hs nodeId with hn | ⟨u, i, t', hu, ht', hi, hc⟩
    · obtain ⟨spec, inputs, hspec, hr, hc⟩ := ih t (hn ▸ ht)
      exact ⟨spec, inputs, hspec, hr, fun h => List.mem_append_left _ (hc h)⟩
    · obtain rfl := Option.some.inj (ht'.symm.trans ht)
      obtain ⟨spec, inputs, hspec, hr, hcs⟩ := ih u hu
      refine ⟨spec, inputs ++ [i], hspec, ?_, ?_⟩
      · rw [Lib.exec_append, hr]
        exact (congrArg (·.bind some) hi).trans rfl
      · intro hm
        rw [List.mem_append, List.mem_singleton] at hm ⊢
        refine hm.imp hcs ?_
        rintro rfl
        cases hc with
        | cancel => rfl

end Tasks

end Pipeline

end Wafer
