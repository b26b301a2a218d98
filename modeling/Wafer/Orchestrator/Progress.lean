import Wafer.Dag.Graph
import Wafer.Orchestrator.DeadLetters
import Wafer.Orchestrator.TaskSteps
import Wafer.Runner.NodeUse

/-!
# A pipeline never gets stuck

Tasks wait for each other in both directions: a receiver for input, a `Slow`
sender for room. As long as a task has not returned, some task can nevertheless
go on, if need be after the clock has: an idle receiver that nobody closes has a
running task upstream, a sender that waits for room has a receiver downstream
with something to read, and the edges have no cycle.

## Main definitions

- `TaskEvent.working` — steps that wait for neither the clock nor a shutdown
- `NodeTask.starved`, `Pipeline.blocked` — waiting for input, and for room
- `Pipeline.Linked` — the invariant: who sends, who is closed, what is wired

## Main results

- `Pipeline.never_stuck`
-/

namespace Wafer

/-! ## Nodes -/

/-- The runner of a role only gets nodes of its kind. -/
def LoadedNode.fits (role : Role) : LoadedNode → Bool
  | wasm _ => true
  | nativeTransform _ => role = .transform
  | nativeFilter _ => role = .filter

namespace LoadedNode

variable {role : Role} {node node' : LoadedNode}

theorem fits_recover (lc : Lifecycle) :
    (node.recoverFromCachedPre role lc).2.fits role = node.fits role := by
  cases node <;> rfl

theorem fits_setCachedPre (pre : Pre) : (node.setCachedPre pre).fits role = node.fits role := by
  cases node <;> rfl

theorem fits_afterCall {envelope : RuntimeEnvelope} {answer : GuestAnswer}
    (h : node.afterCall role envelope answer = some node') : node'.fits role = node.fits role := by
  cases role with
  | transform =>
    obtain ⟨r, hr, rfl⟩ := Option.map_eq_some_iff.mp h
    simp only [process] at hr
    split at hr
    · obtain rfl := Option.some.inj hr
      rfl
    · obtain rfl := Option.some.inj hr
      rfl
    · cases hr
  | filter =>
    obtain ⟨r, hr, rfl⟩ := Option.map_eq_some_iff.mp h
    simp only [evaluate] at hr
    split at hr
    · obtain rfl := Option.some.inj hr
      rfl
    · obtain rfl := Option.some.inj hr
      rfl
    · cases hr
  | router =>
    obtain ⟨r, hr, rfl⟩ := Option.map_eq_some_iff.mp h
    simp only [route] at hr
    split at hr
    · obtain rfl := Option.some.inj hr
      rfl
    · cases hr

/-- A replacement leaves a native node, and a Wasm node a Wasm node. -/
theorem fits_tryReplace (request : Request) (lc : Lifecycle) :
    (World.tryReplace role node request lc).2.1.fits role = node.fits role := by
  cases node with
  | wasm w =>
    obtain ⟨w', hw⟩ := tryReplace_wasm role w request lc
    rw [hw]
    rfl
  | nativeTransform | nativeFilter =>
    simp only [World.tryReplace, World.tryApply]
    split
    · rfl
    · split <;> rfl

theorem fits_recovered (h : Recovered role node node') : node'.fits role = node.fits role := by
  cases h with
  | kept => rfl
  | recovered lc => exact fits_recover lc

/-- There is an answer that a call of the node can get. -/
theorem exists_answer (hf : node.fits role = true) (envelope : RuntimeEnvelope) :
    ∃ answer, (node.afterCall role envelope answer).isSome = true := by
  cases node with
  | wasm w =>
    cases role with
    | transform => exact ⟨.process { result := .error (none, "") }, rfl⟩
    | filter => exact ⟨.evaluate { result := .error (none, "") }, rfl⟩
    | router => exact ⟨.route { result := .error (none, "") }, rfl⟩
  | nativeTransform n =>
    obtain rfl : role = .transform := of_decide_eq_true hf
    exact ⟨.native, rfl⟩
  | nativeFilter n =>
    obtain rfl : role = .filter := of_decide_eq_true hf
    exact ⟨.native, rfl⟩

end LoadedNode

/-! ## The runner loops -/

namespace World

variable {cfg : LoopConfig} {w w' : World} {e : Event}

theorem step_fits (h : step cfg w e = some w') : w'.node.fits cfg.role = w.node.fits cfg.role := by
  have hn := step_node h
  generalize w'.node = node at hn ⊢
  cases hn with
  | kept => rfl
  | replaced at_ => exact LoadedNode.fits_tryReplace ..
  | called after recovered =>
    rw [LoadedNode.fits_recovered recovered, LoadedNode.fits_afterCall after]
  | rolledBack role after recovered =>
    rw [LoadedNode.fits_recovered recovered, LoadedNode.fits_recover, LoadedNode.fits_setCachedPre,
      LoadedNode.fits_afterCall after]

/-- Past the end of its input a loop only waits in `select!` for a retry. -/
def Timed (w : World) : Prop :=
  w.pc = .recvSelect → w.eof = true → w.policy.nextRetryDeadline ≠ none

theorem timed_of_pc (hp : w.pc ≠ .recvSelect) : w.Timed := fun h => absurd h hp

theorem Timed.pollRetry : w.pollRetry.Timed := by
  unfold World.pollRetry
  split
  · exact timed_of_pc (by rintro ⟨⟩)
  · split
    · exact timed_of_pc (by rintro ⟨⟩)
    · next hd => exact fun _ he hn => hd ⟨he, hn⟩

theorem Timed.step (ht : w.Timed) (h : Wafer.step cfg w e = some w') : w'.Timed := by
  cases step_transition h with
  | arrive | close | refuse | cancel | tick | recordHash | prepare | publish | withdrawn | tooLate
  | retract => exact ht
  | move moves =>
    cases moves with
    | idle at_ =>
      have ha : some w.pollRetry = some { w with pc := .recvSelect } := by
        simpa only [Wafer.step, advance, at_] using h
      rw [← Option.some.inj ha]
      exact .pollRetry
    | _ => exact timed_of_pc (by rintro ⟨⟩)
  | window | rerun | pickup | slotEmpty | claimed | adopted | initFailed | unhold | retry | dequeue
  | eof | hold | hand | forwarded | filtered | unrouted | rolledBack | sent | shutdown =>
    exact timed_of_pc (by rintro ⟨⟩)
  | failed at_ loaded rebuilt handled | lost at_ role canary handled =>
    refine timed_of_pc fun hp => ?_
    rcases handled.pc with hq | ⟨e, hq⟩ <;>
    · rw [hp] at hq
      cases hq
  | escalated at_ role canary answered condemns rebuilt handled running =>
    refine timed_of_pc fun hp => ?_
    have hq : Pc.recvSelect = Pc.top := hp.symm.trans running
    cases hq

end World

/-! ## Tasks -/

/-- A step of the task's own loop that waits for neither the clock nor a shutdown: no tick, no batch
timer, no cancellation branch, and nothing the control plane does. -/
def TaskEvent.working : TaskEvent → Bool
  | source (.poll _) | source .wake | source .sent | source .closed => true
  | sink .recv | sink (.collect _) | sink .tryRecv | sink (.flush _) | sink (.finish _) => true
  | passthrough .recv | passthrough .sent => true
  | runner .advance | runner (.select .recv) | runner (.select .timer) | runner (.applied _ _)
  | runner (.returned _ _) | runner .sent | runner (.shutdown _) => true
  | _ => false

def TaskEvent.isTick : TaskEvent → Bool
  | source (.tick _) | runner (.tick _) => true
  | _ => false

namespace NodeTask

/-- The task waits for input. -/
def starved : NodeTask → Bool
  | source .. => false
  | sink l =>
    match l.pc with
    | .receiving => l.input.idle
    | _ => false
  | passthrough l =>
    match l.pc with
    | .receiving => l.input.idle
    | _ => false
  | runner _ w =>
    match w.pc with
    | .recvSelect => !w.eof && w.input.idle
    | _ => false

def fits : NodeTask → Bool
  | runner cfg w => w.node.fits cfg.role
  | _ => true

def Timed : NodeTask → Prop
  | runner _ w => w.Timed
  | _ => True

variable {t t' : NodeTask} {i : TaskInput}

theorem starved_idle (h : t.starved = true) : t.input.idle = true := by
  cases t with
  | source => cases h
  | sink | passthrough =>
    simp only [starved] at h
    split at h
    · exact h
    · cases h
  | runner =>
    simp only [starved] at h
    split at h
    · exact (Bool.and_eq_true_iff.mp h).2
    · cases h

theorem step_fits (h : t.step i = some t') : t'.fits = t.fits := by
  cases task_step h with
  | source | refused | closed | sink | passthrough => rfl
  | runner fired => exact World.step_fits fired

theorem Timed.step (ht : t.Timed) (h : t.step i = some t') : t'.Timed := by
  cases task_step h with
  | source | refused | closed | sink | passthrough => trivial
  | runner fired => exact World.Timed.step ht fired

/-- Whatever is receiving has not returned. -/
theorem result_of_receiving (h : t.receiving = true) : t.result = none := by
  cases t with
  | source => cases h
  | sink l | passthrough l =>
    cases hp : l.pc <;>
      simp_all [result, receiving, SinkLoop.running, PassthroughLoop.running]
  | runner cfg w => cases hp : w.pc <;> simp_all [result, receiving, World.running]

end NodeTask

/-! ## What a task does next -/

/-- The task can do a working step, if need be after the clock has gone on. The step that ends a
send comes without waiting. -/
def NodeTask.Works (t : NodeTask) : Prop :=
  ∃ (ticks : List TaskEvent) (e : TaskEvent) (t₁ t₂ : NodeTask),
    (∀ x ∈ ticks, x.isTick = true) ∧ Lib.exec NodeTask.fire t ticks = some t₁ ∧
      t₁.fire e = some t₂ ∧ e.working = true ∧
        (e.isSent = true → ticks = [] ∧ t.sending.isSome = true)

namespace NodeTask

variable {t : NodeTask}

theorem Works.now (e : TaskEvent) (t' : NodeTask) (hf : t.fire e = some t')
    (hw : e.working = true) (hs : e.isSent = true → t.sending.isSome = true) : t.Works :=
  ⟨[], e, t, t', List.forall_mem_nil _, rfl, hf, hw, fun h => ⟨rfl, hs h⟩⟩

theorem Works.after (tick e : TaskEvent) (t₁ t₂ : NodeTask) (hk : tick.isTick = true)
    (ht : t.fire tick = some t₁) (hf : t₁.fire e = some t₂) (hw : e.working = true)
    (hs : e.isSent = false) : t.Works := by
  refine ⟨[tick], e, t₁, t₂, ?_, ?_, hf, hw, fun h => absurd h (by simp [hs])⟩
  · rintro x hx
    rwa [List.mem_singleton.mp hx]
  · rw [Lib.exec_cons, ht]
    rfl

theorem source_works {l : SourceLoop} {q : InputQueue} (hr : (source l q).result = none) :
    (source l q).Works := by
  cases hp : l.pc with
  | polling =>
    refine .now (.source (.poll .eof)) (.source (l.polled .eof) q) ?_ rfl (by rintro ⟨⟩)
    simp only [fire, SourceLoop.step, hp, Option.map_some]
  | backoff until_ =>
    -- the clock goes on to the end of the backoff
    have hle : until_ ≤ l.now + (until_ - l.now) := by omega
    refine .after (.source (.tick (until_ - l.now))) (.source .wake)
      (.source { l with now := l.now + (until_ - l.now) } q)
      (.source { l with now := l.now + (until_ - l.now), pc := .polling } q) rfl rfl ?_ rfl rfl
    simp only [fire, SourceLoop.step, hp, if_pos hle, Option.map_some]
  | sending envelope =>
    refine .now (.source .sent) (.source { l with pc := .polling } q) ?_ rfl ?_
    · simp only [fire, SourceLoop.step, hp, Option.map_some]
    · simp [sending, hp]
  | closing outcome =>
    refine .now (.source .closed) (.source { l with pc := .exited outcome } q) ?_ rfl
      (by rintro ⟨⟩)
    simp only [fire, SourceLoop.step, hp, Option.map_some]
  | exited outcome => simp [result, hp] at hr

theorem sink_works {l : SinkLoop} (hr : (sink l).result = none) (hs : (sink l).starved = false) :
    (sink l).Works := by
  suffices h : ∃ e l', l.step e = some l' ∧ (TaskEvent.sink e).working = true by
    obtain ⟨e, l', hl, hw⟩ := h
    refine .now (.sink e) (.sink l') ?_ hw (by rintro ⟨⟩)
    simp only [fire, hl, Option.map_some]
  cases hp : l.pc with
  | receiving =>
    have hi : l.input.idle = false := by simpa [starved, hp] using hs
    rcases InputQueue.recv_of_not_idle hi with ⟨envelope, rest, hm⟩ | hc
    · exact ⟨.recv, _, by simp only [SinkLoop.step, hp, hm]; rfl, rfl⟩
    · exact ⟨.recv, _, by simp only [SinkLoop.step, hp, hc]; rfl, rfl⟩
  | collecting envelope | drainCollecting envelope =>
    exact ⟨.collect (.ok ()), _, by simp only [SinkLoop.step, hp]; rfl, rfl⟩
  | draining =>
    refine ⟨.tryRecv, ?_⟩
    cases hm : l.input.recv <;>
      exact ⟨_, by simp only [SinkLoop.step, hp, hm]; rfl, rfl⟩
  | idleFlush | flushing => exact ⟨.flush (.ok ()), _, by simp only [SinkLoop.step, hp]; rfl, rfl⟩
  | closing flushed => exact ⟨.finish (.ok ()), _, by simp only [SinkLoop.step, hp]; rfl, rfl⟩
  | exited outcome => simp [result, hp] at hr

theorem passthrough_works {l : PassthroughLoop} (hr : (passthrough l).result = none)
    (hs : (passthrough l).starved = false) : (passthrough l).Works := by
  suffices h : ∃ e l', l.step e = some l' ∧ (TaskEvent.passthrough e).working = true ∧
      ((TaskEvent.passthrough e).isSent = true → (passthrough l).sending.isSome = true) by
    obtain ⟨e, l', hl, hw, hsent⟩ := h
    refine .now (.passthrough e) (.passthrough l') ?_ hw hsent
    simp only [fire, hl, Option.map_some]
  cases hp : l.pc with
  | receiving =>
    have hi : l.input.idle = false := by simpa [starved, hp] using hs
    rcases InputQueue.recv_of_not_idle hi with ⟨envelope, rest, hm⟩ | hc
    · exact ⟨.recv, _, by simp only [PassthroughLoop.step, hp, hm]; rfl, rfl, by rintro ⟨⟩⟩
    · exact ⟨.recv, _, by simp only [PassthroughLoop.step, hp, hc]; rfl, rfl, by rintro ⟨⟩⟩
  | sending envelope =>
    exact ⟨.sent, _, by simp only [PassthroughLoop.step, hp]; rfl, rfl, fun _ => by simp [sending, hp]⟩
  | exited => simp [result, hp] at hr

/-- A call of a node that fits its loop returns. -/
theorem returned_isSome {cfg : LoopConfig} {w : World} (hf : w.node.fits cfg.role = true)
    (call : Call) : ∃ answer answers, (w.returned cfg call answer answers).isSome = true := by
  obtain ⟨answer, ha⟩ := LoadedNode.exists_answer hf call.taken.envelope
  refine ⟨answer, ⟨⟨0, .ok⟩, fun _ => ⟨0, .ok⟩, {}, 0, {}⟩, ?_⟩
  unfold LoadedNode.afterCall at ha
  unfold World.returned
  cases hr : cfg.role <;> simpa only [hr, Option.isSome_map] using ha

theorem runner_works {cfg : LoopConfig} {w : World} (hr : (runner cfg w).result = none)
    (hs : (runner cfg w).starved = false) (hf : w.node.fits cfg.role = true) (ht : w.Timed) :
    (runner cfg w).Works := by
  have hnow : ∀ {e : Event}, (Wafer.step cfg w e).isSome = true →
      (TaskEvent.runner e).working = true →
      ((TaskEvent.runner e).isSent = true → (runner cfg w).sending.isSome = true) →
      (runner cfg w).Works := by
    intro e he hw hsent
    obtain ⟨w', he⟩ := Option.isSome_iff_exists.mp he
    refine .now (.runner e) (.runner cfg w') ?_ hw hsent
    simp only [fire, he, Option.map_some]
  have hadvance (h : w.advance.isSome = true) : (runner cfg w).Works :=
    hnow (e := .advance) h rfl (by rintro ⟨⟩)
  cases hp : w.pc with
  | top | swapCheck | waiting | recvTop | recvRetry | claiming | received =>
    exact hadvance (by simp only [World.advance, hp, Option.isSome_some])
  | applying id =>
    refine hnow (e := .applied {} fun _ => ⟨0, .ok⟩) ?_ rfl (by rintro ⟨⟩)
    simp only [Wafer.step, hp, Option.isSome_some]
  | recvSelect =>
    cases he : w.eof with
    | false =>
      have hi : w.input.idle = false := by simpa [starved, hp, he] using hs
      refine hnow (e := .select .recv) ?_ rfl (by rintro ⟨⟩)
      rcases InputQueue.recv_of_not_idle hi with ⟨envelope, rest, hm⟩ | hc
      · simp [Wafer.step, hp, World.selectBranch, he, hm]
      · simp [Wafer.step, hp, World.selectBranch, he, hc]
    | true =>
      -- only retries are left: the clock goes on to the first of them
      obtain ⟨deadline, hd⟩ := Option.ne_none_iff_exists'.mp (ht hp he)
      have hle : deadline ≤ w.now + (deadline - w.now) := by omega
      refine .after (.runner (.tick (deadline - w.now))) (.runner (.select .timer))
        (.runner cfg { w with now := w.now + (deadline - w.now) })
        (.runner cfg { w with now := w.now + (deadline - w.now), pc := .recvTop }) rfl rfl ?_ rfl rfl
      simp only [fire, Wafer.step, hp, World.selectBranch, hd, if_pos hle, Option.map_some]
  | calling call =>
    obtain ⟨answer, answers, ha⟩ := returned_isSome hf call
    refine hnow (e := .returned answer answers) ?_ rfl (by rintro ⟨⟩)
    simp only [Wafer.step, hp]
    exact ha
  | sending call out =>
    refine hnow (e := .sent) ?_ rfl fun _ => by simp only [sending, hp, Option.isSome_some]
    simp only [Wafer.step, hp, Option.isSome_some]
  | closing outcome =>
    refine hnow (e := .shutdown fun _ => ⟨0, .ok⟩) ?_ rfl (by rintro ⟨⟩)
    simp only [Wafer.step, hp, Option.isSome_some]
  | exited outcome => simp [result, hp] at hr

/-- A task that has not returned and does not wait for input can go on. -/
theorem works (hr : t.result = none) (hs : t.starved = false) (hf : t.fits = true) (ht : t.Timed) :
    t.Works := by
  cases t with
  | source => exact source_works hr
  | sink => exact sink_works hr hs
  | passthrough => exact passthrough_works hr hs
  | runner => exact runner_works hr hs hf ht

end NodeTask

/-! ## The pipeline -/

namespace Pipeline

variable {cfg : PipelineConfig} {p p' : Pipeline} {e : PipelineEvent} {n m : String}
  {t : NodeTask}

theorem released_of_task (ht : p.tasks n = some t) :
    p.released n = true ↔ (∃ l, t = .sink l) ∨ t.result.isSome = true := by
  unfold released
  rw [ht]
  cases t <;> simp

/-- A node without senders gets none. -/
theorem released_step (h : p.step cfg e = some p') (hr : p.released n = true) :
    p'.released n = true := by
  rcases step_tasks h n with hn | ⟨t, i, t', ht, ht', hi, -⟩
  · unfold released at hr ⊢
    rwa [hn]
  · rcases (released_of_task ht).mp hr with ⟨l, rfl⟩ | hres
    · refine (released_of_task ht').mpr (.inl ?_)
      cases task_step hi with
      | sink => exact ⟨_, rfl⟩
    · obtain ⟨r, hres⟩ := Option.isSome_iff_exists.mp hres
      exact (released_of_task ht').mpr (.inr (by rw [NodeTask.step_result hres hi]; rfl))

theorem OutboxSound.step (ho : OutboxSound cfg p) (h : p.step cfg e = some p') :
    OutboxSound cfg p' := by
  cases e with
  | cancel => exact (Moves.cancel ho h).outbox
  | close n =>
    simp only [Pipeline.step] at h
    split at h
    · obtain ⟨t, ht, hm⟩ := Option.bind_eq_some_iff.mp h
      obtain ⟨t', hc, rfl⟩ := Option.map_eq_some_iff.mp hm
      exact (Moves.close ho ht hc).outbox
    · cases h
  | task n te => exact (Moves.task ho h).outbox
  | deliver n dlq => exact (Moves.deliver ho h).outbox

/-- What holds of every reachable pipeline: a node with sends left is sending, the senders into a
closed queue are gone, and every queue is as wide as it was wired. -/
structure Linked (cfg : PipelineConfig) (p : Pipeline) : Prop where
  present : ∀ n, (p.tasks n).isSome = (cfg.nodes n).isSome
  sound : OutboxSound cfg p
  sending : ∀ n, p.outbox n ≠ [] → ∃ t out, p.tasks n = some t ∧ t.sending = some out
  closed : ∀ n t, p.tasks n = some t → t.input.closed = true →
    ∀ m ∈ cfg.wiring.upstream n, p.released m = true
  capacity : ∀ n t, p.tasks n = some t → t.input.capacity = (cfg.wiring.takeReceiver n).capacity
  timed : ∀ n t, p.tasks n = some t → t.Timed

theorem Linked.sending_step (hl : p.Linked cfg) (h : p.step cfg e = some p')
    (hn : p'.outbox n ≠ []) : ∃ t out, p'.tasks n = some t ∧ t.sending = some out := by
  obtain ⟨entry, rest, he⟩ := List.exists_cons_of_ne_nil hn
  have hm : entry ∈ p'.outbox n := by
    rw [he]
    exact .head _
  rcases step_outbox h hm with hold | ⟨t, out, ht, ho, -⟩
  · have hne : p.outbox n ≠ [] := List.ne_nil_of_mem hold
    obtain ⟨t, out, ht, ho⟩ := hl.sending n hne
    rcases step_tasks h n with hsame | ⟨u, i, t', hu, ht', hi, hc⟩
    · exact ⟨t, out, hsame.trans ht, ho⟩
    obtain rfl := Option.some.inj (hu.symm.trans ht)
    refine ⟨t', out, ht', NodeTask.step_sending ho hi ?_⟩
    -- the step after the last send needs an empty outbox
    cases hc with
    | @own te =>
      simp only [Pipeline.step] at h
      split at h
      · next hg => simpa [TaskInput.keepsSending] using fun hs => hne (hg.2 hs)
      · cases h
    | arrive | refuse | close | cancel => rfl
  · exact ⟨t, out, ht, ho⟩

theorem Linked.closed_step (hl : p.Linked cfg) (h : p.step cfg e = some p')
    (ht : p'.tasks n = some t) (hc : t.input.closed = true) :
    ∀ m ∈ cfg.wiring.upstream n, p'.released m = true := by
  intro m hm
  refine released_step h ?_
  rcases step_tasks h n with hsame | ⟨u, i, t', hu, ht', hi, hcause⟩
  · exact hl.closed n t (hsame ▸ ht) hc m hm
  obtain rfl := Option.some.inj (ht'.symm.trans ht)
  rcases (NodeTask.step_input hi).closed_iff.mp hc with hc | rfl
  · exact hl.closed n u hu hc m hm
  · cases hcause with
    | close =>
      simp only [Pipeline.step] at h
      split at h
      · next hg => exact List.all_eq_true.mp hg m hm
      · cases h

theorem Linked.step (hl : p.Linked cfg) (h : p.step cfg e = some p') : p'.Linked cfg where
  present n := by
    rcases step_tasks h n with hsame | ⟨u, i, t', hu, ht', -, -⟩
    · rw [hsame, hl.present]
    · rw [← hl.present, hu, ht']
      rfl
  sound := hl.sound.step h
  sending _ := hl.sending_step h
  closed _ _ := hl.closed_step h
  capacity n t ht := by
    rcases step_tasks h n with hsame | ⟨u, i, t', hu, ht', hi, -⟩
    · exact hl.capacity n t (hsame ▸ ht)
    · obtain rfl := Option.some.inj (ht'.symm.trans ht)
      rw [(NodeTask.step_input hi).capacity, hl.capacity n u hu]
  timed n t ht := by
    rcases step_tasks h n with hsame | ⟨u, i, t', hu, ht', hi, -⟩
    · exact hl.timed n t (hsame ▸ ht)
    · obtain rfl := Option.some.inj (ht'.symm.trans ht)
      exact (hl.timed n u hu).step hi

theorem takeReceiver_closed (wiring : QueueWiring) (n : String) :
    (wiring.takeReceiver n).closed = false := by
  unfold QueueWiring.takeReceiver
  split <;> rfl

theorem Linked.start (cfg : PipelineConfig) : (start cfg).Linked cfg where
  present _ := Option.isSome_map ..
  sound _ _ hm := absurd hm List.not_mem_nil
  sending _ hn := absurd rfl hn
  closed n t ht hc := by
    obtain ⟨spec, -, rfl⟩ := Option.map_eq_some_iff.mp ht
    have hopen := takeReceiver_closed cfg.wiring n
    cases spec <;> simp_all [PipelineConfig.spawn, NodeTask.input, World.start]
  capacity n t ht := by
    obtain ⟨spec, -, rfl⟩ := Option.map_eq_some_iff.mp ht
    cases spec <;> rfl
  timed n t ht := by
    obtain ⟨spec, -, rfl⟩ := Option.map_eq_some_iff.mp ht
    cases spec with
    | runner => exact World.timed_of_pc (by rintro ⟨⟩)
    | source | sink | passthrough => trivial

theorem linked {events : List PipelineEvent} (h : run cfg events = some p) : p.Linked cfg :=
  Lib.exec_invariant (fun _ _ _ hl hs => hl.step hs) h (.start cfg)

/-! ### Waiting -/

/-- The next `send_one` of the node waits for room. -/
def Blocked (p : Pipeline) (n : String) : Prop :=
  ∃ sender envelope rest t dlq, p.outbox n = (sender, envelope) :: rest ∧
    p.tasks sender.toNode = some t ∧
      sendOne sender t.receiving t.input envelope dlq = .waits

theorem sendOne_waits {sender : DownstreamSender} {receiving : Bool} {q : InputQueue}
    {envelope : RuntimeEnvelope} {dlq : DlqAttempt}
    (h : sendOne sender receiving q envelope dlq = .waits) :
    receiving = true ∧ q.capacity ≤ q.buffer.length := by
  unfold sendOne at h
  cases receiving with
  | false => cases h
  | true =>
    simp only [Bool.true_eq_false, if_false] at h
    split at h
    · cases h
    · next hfull => exact ⟨rfl, Nat.le_of_not_lt hfull⟩

theorem sendOne_enqueued {sender : DownstreamSender} {receiving : Bool} {q : InputQueue}
    {envelope : RuntimeEnvelope} {dlq : DlqAttempt}
    (h : sendOne sender receiving q envelope dlq = .enqueued) :
    receiving = true ∧ q.buffer.length < q.capacity := by
  unfold sendOne at h
  cases receiving with
  | false => cases h
  | true =>
    simp only [Bool.true_eq_false, if_false] at h
    split at h
    · next hroom => exact ⟨rfl, hroom⟩
    · repeat' split at h
      all_goals cases h

/-- A running receiver of an open queue with room takes an envelope. -/
theorem arrive_isSome {envelope : RuntimeEnvelope} (hr : t.receiving = true)
    (hc : t.input.closed = false) (hl : t.input.buffer.length < t.input.capacity) :
    (t.arrive envelope).isSome = true := by
  have hs : ∃ q, t.input.send envelope = some q := ⟨_, if_pos ⟨hc, hl⟩⟩
  obtain ⟨q, hq⟩ := hs
  cases t with
  | source => cases hr
  | sink l =>
    have hr : l.running = true := hr
    have hq : l.input.send envelope = some q := hq
    simp [NodeTask.arrive, NodeTask.fire, SinkLoop.step, hr, hq]
  | passthrough l =>
    have hr : l.running = true := hr
    have hq : l.input.send envelope = some q := hq
    simp [NodeTask.arrive, NodeTask.fire, PassthroughLoop.step, hr, hq]
  | runner cfg w =>
    have hr : w.running = true := hr
    have hq : w.input.send envelope = some q := hq
    simp [NodeTask.arrive, NodeTask.fire, Wafer.step, hr, hq]

theorem refuse_isSome (t : NodeTask) (r : QueueMetrics.Refusal) : (t.refuse r).isSome = true := by
  cases t <;> rfl

/-- A `send_one` that does not wait for room comes through. -/
theorem Linked.deliver_enabled (hl : p.Linked cfg) (hn : p.outbox n ≠ []) (hb : ¬ p.Blocked n)
    (dlq : DlqAttempt) : (p.step cfg (.deliver n dlq)).isSome = true := by
  obtain ⟨⟨sender, envelope⟩, rest, he⟩ := List.exists_cons_of_ne_nil hn
  have hm : (sender, envelope) ∈ p.outbox n := by
    rw [he]
    exact .head _
  have hsender := (hl.sound n _ hm).1
  have hdest := toNode_mem_destinations hsender
  obtain ⟨edge, hedge, hto⟩ := (cfg.grouped _).mp hdest
  have hsome := hl.present sender.toNode
  rw [← hto, (cfg.endpoints edge hedge).2, hto] at hsome
  obtain ⟨t, ht⟩ := Option.isSome_iff_exists.mp hsome
  simp only [Pipeline.step, he, Option.isSome_map, deliver, ht]
  cases hs : sendOne sender t.receiving t.input envelope dlq with
  | waits => exact absurd ⟨sender, envelope, rest, t, dlq, he, ht, hs⟩ hb
  | enqueued =>
    obtain ⟨hr, hroom⟩ := sendOne_enqueued hs
    -- the queue is open: its sender here is still at work
    have hopen : t.input.closed = false := by
      by_contra hc
      have hrel := hl.closed _ t ht (by simpa using hc) n (QueueWiring.mem_upstream hsender)
      obtain ⟨u, out, hu, ho⟩ := hl.sending n hn
      rcases (released_of_task hu).mp hrel with ⟨l, rfl⟩ | hres
      · cases ho
      · rw [NodeTask.result_of_sending ho] at hres
        cases hres
    simpa only [Option.isSome_map] using arrive_isSome hr hopen hroom
  | refused r => simpa only [Option.isSome_map] using refuse_isSome t r
  | deadLettered record => simpa only [Option.isSome_map] using refuse_isSome t .deadLettered

/-! ### Going on -/

theorem mem_upstream_edge (hm : m ∈ cfg.wiring.upstream n) :
    ∃ edge ∈ cfg.edges, edge.fromNode = m ∧ edge.toNode = n := by
  obtain ⟨sender, hs, rfl⟩ := List.mem_map.mp hm
  obtain ⟨hs, hto⟩ := List.mem_filter.mp hs
  obtain ⟨toNode, -, hs⟩ := List.mem_flatMap.mp hs
  obtain ⟨edge, hedge, rfl⟩ := List.mem_map.mp hs
  obtain ⟨hedge, hdest⟩ := List.mem_filter.mp hedge
  exact ⟨edge, hedge, rfl, (of_decide_eq_true hdest).trans (of_decide_eq_true hto)⟩

theorem sender_edge {sender : DownstreamSender}
    (hs : sender ∈ cfg.wiring.collectDownstreamSenders n) :
    ∃ edge ∈ cfg.edges, edge.fromNode = n ∧ edge.toNode = sender.toNode :=
  mem_upstream_edge (QueueWiring.mem_upstream hs)

theorem step_task_isSome {te : TaskEvent} {t' : NodeTask} (ht : p.tasks n = some t)
    (hf : t.fire te = some t') (ho : te.own = true) (hs : te.isSent = true → p.outbox n = []) :
    ∃ p', p.step cfg (.task n te) = some p' ∧ p'.tasks n = some t' := by
  have hsome : (p.fireTask cfg n t te).isSome = true := by
    simp only [fireTask, hf, Option.map_some, Option.isSome_some]
  obtain ⟨p', hp⟩ := Option.isSome_iff_exists.mp hsome
  obtain ⟨t'', hf', htasks⟩ := fireTask_tasks hp
  obtain rfl := Option.some.inj (hf.symm.trans hf')
  refine ⟨p', ?_, ?_⟩
  · simp only [Pipeline.step]
    rw [if_pos ⟨ho, hs⟩, ht]
    exact hp
  · rw [htasks, Function.update_self]

end Pipeline

theorem TaskEvent.own_of_isTick {e : TaskEvent} (h : e.isTick = true) :
    e.own = true ∧ e.isSent = false := by
  cases e with
  | source e | sink e | passthrough e | runner e => cases e <;> first | exact ⟨rfl, rfl⟩ | cases h

theorem TaskEvent.own_of_working {e : TaskEvent} (h : e.working = true) : e.own = true := by
  cases e with
  | source e | sink e | passthrough e | runner e => cases e <;> first | rfl | cases h

def PipelineEvent.isTick : PipelineEvent → Bool
  | task _ e => e.isTick
  | _ => false

/-- Something happens that waits for neither the clock nor a shutdown. The last sender into a queue
goes away once. -/
def PipelineEvent.Works (p : Pipeline) : PipelineEvent → Prop
  | .cancel => False
  | .close n => ∃ t, p.tasks n = some t ∧ t.input.closed = false
  | .task _ e => e.working = true
  | .deliver .. => True

/-- The pipeline is wired as the configuration says, with each node in the loop of its role. -/
structure PipelineConfig.Builds (cfg : PipelineConfig) (config : Config) : Prop where
  edges : cfg.edges = config.edges
  capacity : cfg.defaultQueueCapacity = config.engine.defaultQueueCapacity
  fits : ∀ n loop setup, cfg.nodes n = some (.runner loop setup) →
    setup.node.fits loop.role = true

namespace Pipeline

variable {cfg : PipelineConfig} {p : Pipeline} {n : String} {t : NodeTask} {config : Config}

/-- Some step is possible, if need be after the clock has gone on. -/
def GoesOn (cfg : PipelineConfig) (p : Pipeline) : Prop :=
  ∃ ticks e p₁ p₂, (∀ x ∈ ticks, PipelineEvent.isTick x = true) ∧
    Lib.exec (step cfg) p ticks = some p₁ ∧ e.Works p₁ ∧ p₁.step cfg e = some p₂

theorem GoesOn.now {e : PipelineEvent} (hw : e.Works p) (h : (p.step cfg e).isSome = true) :
    p.GoesOn cfg := by
  obtain ⟨p', hp⟩ := Option.isSome_iff_exists.mp h
  exact ⟨[], e, p, p', List.forall_mem_nil _, rfl, hw, hp⟩

theorem exec_ticks {ticks : List TaskEvent} (hk : ∀ x ∈ ticks, x.isTick = true)
    (ht : p.tasks n = some t) {t₁ : NodeTask} (h : Lib.exec NodeTask.fire t ticks = some t₁) :
    ∃ p₁, Lib.exec (step cfg) p (ticks.map (.task n)) = some p₁ ∧ p₁.tasks n = some t₁ := by
  induction ticks generalizing p t with
  | nil => exact ⟨p, rfl, Option.some.inj h ▸ ht⟩
  | cons x ticks ih =>
    obtain ⟨u, hu, hrest⟩ := Lib.exec_cons_eq_some h
    obtain ⟨ho, hs⟩ := TaskEvent.own_of_isTick (hk x (.head _))
    obtain ⟨q, hq, htq⟩ : ∃ q, p.step cfg (.task n x) = some q ∧ q.tasks n = some u :=
      step_task_isSome ht hu ho (by simp [hs])
    obtain ⟨p₁, hp₁, ht₁⟩ := ih (fun y hy => hk y (.tail _ hy)) htq hrest
    refine ⟨p₁, ?_, ht₁⟩
    rw [List.map_cons, Lib.exec_cons, hq]
    exact hp₁

/-- Where a task works, the pipeline goes on. -/
theorem GoesOn.of_works (ht : p.tasks n = some t) (hw : t.Works) (hn : p.outbox n = []) :
    p.GoesOn cfg := by
  obtain ⟨ticks, e, t₁, t₂, hk, hticks, hf, he, hs⟩ := hw
  obtain ⟨p₁, hp₁, ht₁⟩ : ∃ p₁, Lib.exec (step cfg) p (ticks.map (.task n)) = some p₁ ∧
      p₁.tasks n = some t₁ := exec_ticks hk ht hticks
  have houtbox : e.isSent = true → p₁.outbox n = [] := by
    intro hsent
    obtain ⟨rfl, -⟩ := hs hsent
    rwa [← Option.some.inj hp₁]
  obtain ⟨p₂, hp₂, -⟩ := step_task_isSome ht₁ hf (TaskEvent.own_of_working he) houtbox
  refine ⟨ticks.map (.task n), .task n e, p₁, p₂, ?_, hp₁, he, hp₂⟩
  intro x hx
  obtain ⟨y, hy, rfl⟩ := List.mem_map.mp hx
  exact hk y hy

theorem task_fits (hb : cfg.Builds config) {events : List PipelineEvent}
    (h : run cfg events = some p) (ht : p.tasks n = some t) : t.fits = true := by
  obtain ⟨spec, inputs, hspec, hrun, -⟩ := tasks_run h ht
  have hsame := Lib.exec_relation (R := fun t t' : NodeTask => t'.fits = t.fits) (fun _ => rfl)
    (fun _ _ _ h h' => h'.trans h) (fun _ _ _ hs => NodeTask.step_fits hs) hrun
  rw [hsame]
  cases spec with
  | source | sink | passthrough => rfl
  | runner loop setup => exact hb.fits n loop setup hspec

/-- Every queue of an accepted configuration has room for something. -/
theorem capacity_pos {toposort : Toposort} (hv : config.validate toposort = .ok ())
    (hb : cfg.Builds config) (n : String) : 0 < (cfg.wiring.takeReceiver n).capacity := by
  have hcap := capacities_ok hv
  unfold validateChannelCapacities at hcap
  split at hcap
  · cases hcap
  next hdefault =>
  split at hcap
  · cases hcap
  next hedges =>
  unfold QueueWiring.takeReceiver
  split
  · next name capacity hfind =>
    obtain ⟨toNode, -, hc⟩ := List.mem_map.mp (List.mem_of_find?_eq_some hfind)
    obtain ⟨rfl, rfl⟩ := Prod.mk.inj hc
    show 0 < channelCapacity cfg.edges cfg.defaultQueueCapacity toNode
    unfold channelCapacity
    cases hm : ((cfg.edges.filter (·.toNode = toNode)).filterMap EdgeDef.capacity).max? with
    | none =>
      rw [Option.getD_none, hb.capacity]
      exact Nat.pos_of_ne_zero hdefault
    | some c =>
      obtain ⟨edge, hedge, hc⟩ := List.mem_filterMap.mp (List.max?_mem hm)
      have hmem : edge ∈ config.edges := hb.edges ▸ (List.mem_filter.mp hedge).1
      refine Nat.pos_of_ne_zero fun h0 => hedges (List.any_eq_true.mpr ⟨edge, hmem, ?_⟩)
      rw [hc, Option.getD_some.symm.trans h0]
      rfl
  · exact Nat.one_pos

/-- The node is at work: its task has not returned. -/
def Live (p : Pipeline) (n : String) : Prop := ∃ t, p.tasks n = some t ∧ t.result = none

/-- The node waits for input from a node that still holds a sender. -/
def Starved (cfg : PipelineConfig) (p : Pipeline) (n : String) : Prop :=
  ∃ t, p.tasks n = some t ∧ t.starved = true ∧ ∃ m ∈ cfg.wiring.upstream n, p.released m = false

theorem live_of_not_released (h : p.released n = false) : p.Live n := by
  cases ht : p.tasks n with
  | none => simp [released, ht] at h
  | some t =>
    refine ⟨t, ht, ?_⟩
    have hn : ¬ ((∃ l, t = .sink l) ∨ t.result.isSome = true) := fun hr =>
      Bool.false_ne_true (h.symm.trans ((released_of_task ht).mpr hr))
    exact Option.not_isSome_iff_eq_none.mp fun hs => hn (.inr hs)

/-- A receiver whose queue is full has something to read. -/
theorem not_starved_of_full (ht : p.tasks n = some t) (hpos : 0 < t.input.capacity)
    (hfull : t.input.capacity ≤ t.input.buffer.length) : ¬ p.Starved cfg n := by
  rintro ⟨u, hu, hs, -⟩
  obtain rfl := Option.some.inj (ht.symm.trans hu)
  have hidle := NodeTask.starved_idle hs
  have hnil : t.input.buffer = [] := by
    simpa using (Bool.and_eq_true_iff.mp hidle).1
  rw [hnil, List.length_nil] at hfull
  omega

/-- A live node that waits for neither input nor room lets the pipeline go on. -/
theorem Linked.goesOn (hl : p.Linked cfg) (ht : p.tasks n = some t) (hr : t.result = none)
    (hf : t.fits = true) (hs : ¬ p.Starved cfg n) (hb : ¬ p.Blocked n) : p.GoesOn cfg := by
  by_cases ho : p.outbox n = []
  · cases hst : t.starved with
    | false => exact .of_works ht (NodeTask.works hr hst hf (hl.timed n t ht)) ho
    | true =>
      -- everything upstream has returned: the queue is closed next
      have hall : (cfg.wiring.upstream n).all p.released = true := by
        rw [List.all_eq_true]
        intro m hm
        by_contra hm'
        exact hs ⟨t, ht, hst, m, hm, by simpa using hm'⟩
      have hopen : t.input.closed = false := by
        have hidle := NodeTask.starved_idle hst
        simpa using (Bool.and_eq_true_iff.mp hidle).2
      refine .now (e := .close n) ⟨t, ht, hopen⟩ ?_
      simp only [Pipeline.step, if_pos hall, ht, Option.bind_some, Option.isSome_map]
      cases t <;> rfl
  · exact .now (e := .deliver n ⟨0, .ok⟩) trivial (hl.deliver_enabled ho hb _)

/-- As long as some task has not returned, some live node waits for neither input nor room. -/
theorem Linked.goesOn_of_live {toposort : Toposort} (htopo : Toposorts toposort)
    (hv : config.validate toposort = .ok ()) (hb : cfg.Builds config) (hl : p.Linked cfg)
    (hfits : ∀ n t, p.tasks n = some t → t.fits = true)
    (hlive : ∃ n t, p.tasks n = some t ∧ t.result = none) : p.GoesOn cfg := by
  have hw := Config.wellFormed_of_validate htopo hv
  have hfield : ∀ a b, config.Edge a b → a ∈ config.nodeIds ∧ b ∈ config.nodeIds := by
    rintro _ _ ⟨edge, he, rfl, rfl⟩
    exact hw.endpoints edge he
  have hstarved : ∀ n, p.Live n → p.Starved cfg n → ∃ m, config.Edge m n ∧ p.Live m := by
    rintro n - ⟨-, -, -, m, hm, hrel⟩
    obtain ⟨edge, he, hfrom, hto⟩ := mem_upstream_edge hm
    exact ⟨m, ⟨edge, hb.edges ▸ he, hfrom, hto⟩, live_of_not_released hrel⟩
  have hblocked : ∀ n, p.Live n → ¬ p.Starved cfg n → p.Blocked n →
      ∃ m, config.Edge n m ∧ p.Live m ∧ ¬ p.Starved cfg m := by
    rintro n - - ⟨sender, envelope, rest, u, dlq, ho, hu, hwait⟩
    obtain ⟨hrecv, hfull⟩ := sendOne_waits hwait
    have hm : (sender, envelope) ∈ p.outbox n := by
      rw [ho]
      exact .head _
    obtain ⟨edge, he, hfrom, hto⟩ := sender_edge (hl.sound n _ hm).1
    have hpos : 0 < u.input.capacity := by
      rw [hl.capacity _ u hu]
      exact capacity_pos hv hb _
    exact ⟨sender.toNode, ⟨edge, hb.edges ▸ he, hfrom, hto⟩,
      ⟨u, hu, NodeTask.result_of_receiving hrecv⟩, not_starved_of_full hu hpos hfull⟩
  obtain ⟨x, t, ht, hr⟩ := hlive
  obtain ⟨n, ⟨u, hu, hur⟩, hs, hnb⟩ := hw.acyclic.exists_ready config.nodeIds.finite_toSet hfield
    p.Live (p.Starved cfg) p.Blocked hstarved hblocked ⟨t, ht, hr⟩
  exact hl.goesOn hu hur (hfits n u hu) hs hnb

/-- As long as some task of a pipeline that an accepted configuration describes has not returned,
something can happen that waits for neither the clock nor a shutdown, if need be after the clock has
gone on. -/
theorem never_stuck {toposort : Toposort} (htopo : Toposorts toposort)
    (hv : config.validate toposort = .ok ()) (hb : cfg.Builds config) {events : List PipelineEvent}
    (h : run cfg events = some p) (hlive : ∃ n t, p.tasks n = some t ∧ t.result = none) :
    p.GoesOn cfg :=
  (linked h).goesOn_of_live htopo hv hb (fun _ _ ht => task_fits hb h ht) hlive

/-! A source, a Wasm filter and a sink in a row, with room for one message in each queue. -/

def screenedConfig : Config where
  engine := { defaultQueueCapacity := 1 }
  deadLetter := some (.file "dlq.jsonl" 1)
  nodes := [("meter", .source .stdin), ("screen", .filter { plugin := .wasm "screen.wasm" }),
    ("last", .sink .stdout)]
  edges := [{ fromNode := "meter", toNode := "screen" }, { fromNode := "screen", toNode := "last" }]

theorem screened_builds : (screened (.sink none)).Builds screenedConfig where
  edges := rfl
  capacity := rfl
  fits n loop setup h := by
    simp only [screened] at h
    split at h
    · cases h
    split at h
    · cases h
      rfl
    split at h <;> cases h

/-- The source has a second message and the filter has not read the first. -/
def backpressuredRun : List PipelineEvent :=
  [.task "meter" (.source (.poll (.item (metered "m" 0) "t"))), .deliver "meter" ⟨0, .ok⟩,
    .task "meter" (.source .sent), .task "meter" (.source (.poll (.item (metered "n" 1) "t")))]

theorem never_stuck_backpressured : ∃ p, run (screened (.sink none)) backpressuredRun = some p ∧
    p.step (screened (.sink none)) (.deliver "meter" ⟨0, .ok⟩) = none ∧
      p.GoesOn (screened (.sink none)) := by
  have hr : ∃ p, run (screened (.sink none)) backpressuredRun = some p ∧
      p.step (screened (.sink none)) (.deliver "meter" ⟨0, .ok⟩) = none ∧
        ∃ t, p.tasks "last" = some t ∧ t.result = none := ⟨_, rfl, rfl, _, rfl, rfl⟩
  obtain ⟨p, h, hwait, t, ht, hlive⟩ := hr
  have hv : screenedConfig.validate listToposort = .ok () := by decide +kernel
  exact ⟨p, h, hwait, never_stuck listToposort_toposorts hv screened_builds h ⟨"last", t, ht, hlive⟩⟩

end Pipeline

end Wafer
