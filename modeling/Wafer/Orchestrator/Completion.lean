import Wafer.Orchestrator.Pipeline

/-!
# Natural completion

A loop that returns without error and without cancellation has seen the end of
its input: every sender was gone and the channel was empty. Nothing can arrive
after that, so the counters of the channel agree. The argument is local to each
receiver; no order of the nodes enters it.

## Main definitions

- `InputQueue.Ended` — no sender is left and nothing is queued
- `World.Drained`, `SinkLoop.Drained`, `PassthroughLoop.Drained`, `NodeTask.Drained`
-/

namespace Wafer

/-! ## Queues -/

namespace InputQueue

/-- Every sender is gone and the channel is empty. -/
def Ended (q : InputQueue) : Prop := q.closed = true ∧ q.buffer = []

variable {q q' : InputQueue}

/-- Nothing arrives at a queue without senders. -/
theorem Ended.no_send {envelope : RuntimeEnvelope} (h : q.Ended) : q.send envelope ≠ some q' := by
  simp [send, h.1]

theorem Ended.refuse (h : q.Ended) (r : QueueMetrics.Refusal) : (q.refuse r).Ended := h

theorem Ended.no_message {envelope : RuntimeEnvelope} (h : q.Ended) :
    q.recv ≠ .message envelope q' := by
  simp [recv, h.1, h.2]

/-- With the end of input on both sides the counters agree. -/
theorem Counted.balanced (h : q.Counted) (hb : q.buffer = []) :
    q.metrics.enqueued = q.metrics.dequeued := by
  rw [Counted, hb] at h
  exact h

end InputQueue

/-! ## The loops -/

/-- The loop has stopped without an error. -/
def Pc.finished : Pc → Bool
  | closing (.ok ()) | exited (.ok ()) => true
  | _ => false

/-- A runner loop only stops without an error on cancellation or at the end of its input. -/
structure World.Drained (w : World) : Prop where
  counted : w.input.Counted
  ended : w.eof = true → w.input.Ended
  finished : w.pc.finished = true → w.cancelled = true ∨ w.eof = true

namespace World

variable {cfg : LoopConfig} {w w' : World} {e : Event}

theorem Handled.not_finished {n : Nat} (h : Handled n w w') : w'.pc.finished = false := by
  rcases h.pc with hp | ⟨e, hp⟩ <;> rw [hp] <;> rfl

theorem Drained.step (hd : w.Drained) (h : Transition cfg w e w') : w'.Drained := by
  cases h with
  | arrive running room =>
    refine ⟨hd.counted.send room, ?_, hd.finished⟩
    intro he
    exact absurd room (hd.ended he).no_send
  | close => exact ⟨hd.counted, fun he => ⟨rfl, (hd.ended he).2⟩, hd.finished⟩
  | @refuse r => exact ⟨hd.counted.refuse r, fun he => (hd.ended he).refuse r, hd.finished⟩
  | cancel => exact ⟨hd.counted, hd.ended, fun _ => .inl rfl⟩
  | tick | recordHash | prepare | publish | withdrawn | tooLate | retract =>
    exact ⟨hd.counted, hd.ended, hd.finished⟩
  | move m =>
    refine ⟨hd.counted, hd.ended, ?_⟩
    cases m with
    | drained at_ eof => exact fun _ => .inr eof
    | cancelled at_ cancelled => exact fun _ => .inl cancelled
    | noSwap | ignored | wait | swapFirst | retryNext | idle | swap | timer => exact nofun
  | window | rerun | pickup | slotEmpty | claimed | adopted | initFailed | unhold | retry | hold
  | hand | forwarded | filtered | unrouted | rolledBack | sent =>
    exact ⟨hd.counted, hd.ended, nofun⟩
  | dequeue at_ message =>
    refine ⟨hd.counted.recv message, ?_, nofun⟩
    intro he
    exact absurd message (hd.ended he).no_message
  | eof at_ closed =>
    obtain ⟨hb, hc⟩ := InputQueue.recv_closed closed
    exact ⟨hd.counted, fun _ => ⟨hc, hb⟩, nofun⟩
  | failed at_ loaded rebuilt handled | lost at_ role canary handled
  | escalated at_ role canary answered condemns rebuilt handled =>
    have hf := handled.not_finished
    obtain ⟨pc, node, policy, metrics, state, generation, rfl⟩ := handled.frame
    exact ⟨hd.counted, hd.ended, fun h => absurd h (Bool.eq_false_iff.mp hf)⟩
  | @shutdown result attempts at_ =>
    refine ⟨hd.counted, hd.ended, fun h => hd.finished ?_⟩
    cases result with
    | ok u => rw [at_]; rfl
    | error e => exact absurd h nofun

theorem Drained.start (cfg : LoopConfig) (setup : LoopSetup) : (World.start cfg setup).Drained :=
  ⟨rfl, nofun, nofun⟩

/-- Only cancellation cancels a loop. -/
theorem step_cancelled (h : Transition cfg w e w') (he : e ≠ .cancel) :
    w'.cancelled = w.cancelled := by
  cases h with
  | cancel => exact absurd rfl he
  | failed at_ loaded rebuilt handled | lost at_ role canary handled
  | escalated at_ role canary answered condemns rebuilt handled =>
    obtain ⟨pc, node, policy, metrics, state, generation, rfl⟩ := handled.frame
    rfl
  | arrive | close | refuse | tick | recordHash | prepare | publish | withdrawn | tooLate | retract
  | move | window | rerun | pickup | slotEmpty | claimed | adopted | initFailed | unhold | retry
  | dequeue | eof | hold | hand | forwarded | filtered | unrouted | rolledBack | sent
  | shutdown => rfl

end World

/-- A sink only leaves its receiving part on cancellation or at the end of its input. -/
structure SinkLoop.Drained (l : SinkLoop) : Prop where
  counted : l.input.Counted
  stopped : l.stopped = true → l.cancelled = true ∨ l.input.Ended

namespace SinkLoop

variable {l l' : SinkLoop} {e : SinkEvent}

theorem Drained.step (hd : l.Drained) (h : l.step e = some l') : l'.Drained := by
  cases e with
  | arrive envelope =>
    simp only [SinkLoop.step] at h
    split at h
    · obtain ⟨input, hi, rfl⟩ := Option.map_eq_some_iff.mp h
      refine ⟨hd.counted.send hi, fun hs => (hd.stopped hs).imp_right ?_⟩
      intro he
      exact absurd hi he.no_send
    · exact absurd h nofun
  | close =>
    obtain rfl := Option.some.inj h
    exact ⟨hd.counted, fun hs => (hd.stopped hs).imp_right fun he => ⟨rfl, he.2⟩⟩
  | refuse r =>
    obtain rfl := Option.some.inj h
    exact ⟨hd.counted.refuse r, fun hs => (hd.stopped hs).imp_right fun he => he.refuse r⟩
  | cancel =>
    obtain rfl := Option.some.inj h
    exact ⟨hd.counted, fun _ => .inl rfl⟩
  | recv =>
    simp only [SinkLoop.step] at h
    split at h
    · split at h
      · next hm =>
        obtain rfl := Option.some.inj h
        exact ⟨hd.counted.recv hm, nofun⟩
      · next hc =>
        obtain rfl := Option.some.inj h
        obtain ⟨hb, hc⟩ := InputQueue.recv_closed hc
        exact ⟨hd.counted, fun _ => .inr ⟨hc, hb⟩⟩
      · exact absurd h nofun
    · exact absurd h nofun
  | tryRecv =>
    simp only [SinkLoop.step] at h
    split at h
    · next hp =>
      have hs := hd.stopped (by rw [SinkLoop.stopped, hp])
      split at h
      · next hm =>
        obtain rfl := Option.some.inj h
        exact ⟨hd.counted.recv hm, fun _ => hs.imp_right fun he => absurd hm he.no_message⟩
      · obtain rfl := Option.some.inj h
        exact ⟨hd.counted, fun _ => hs⟩
    · exact absurd h nofun
  | stop =>
    simp only [SinkLoop.step] at h
    split at h
    · split at h
      · next hc =>
        obtain rfl := Option.some.inj h
        exact ⟨hd.counted, fun _ => .inl (Bool.and_eq_true_iff.mp hc).1⟩
      · exact absurd h nofun
    · exact absurd h nofun
  | collect answer | flush answer =>
    simp only [SinkLoop.step] at h
    split at h
    · obtain rfl := Option.some.inj h
      exact ⟨hd.counted, fun hs => nomatch hs⟩
    · next hp =>
      obtain rfl := Option.some.inj h
      exact ⟨hd.counted, fun _ => hd.stopped (by rw [SinkLoop.stopped, hp])⟩
    · exact absurd h nofun
  | finish answer =>
    simp only [SinkLoop.step] at h
    split at h
    · next hp =>
      obtain rfl := Option.some.inj h
      exact ⟨hd.counted, fun _ => hd.stopped (by rw [SinkLoop.stopped, hp])⟩
    · exact absurd h nofun
  | idle =>
    simp only [SinkLoop.step] at h
    split at h
    · split at h
      · obtain rfl := Option.some.inj h
        exact ⟨hd.counted, nofun⟩
      · exact absurd h nofun
    · exact absurd h nofun

theorem step_cancelled (h : l.step e = some l') (he : e ≠ .cancel) :
    l'.cancelled = l.cancelled := by
  cases e with
  | cancel => exact absurd rfl he
  | arrive envelope =>
    simp only [SinkLoop.step] at h
    split at h
    · obtain ⟨input, -, rfl⟩ := Option.map_eq_some_iff.mp h
      rfl
    · exact absurd h nofun
  | close | refuse =>
    obtain rfl := Option.some.inj h
    rfl
  | recv | collect | idle | stop | tryRecv | flush | finish =>
    simp only [SinkLoop.step] at h
    repeat' split at h
    all_goals first
      | (obtain rfl := Option.some.inj h; rfl)
      | exact absurd h nofun

end SinkLoop

/-- A passthrough loop only returns on cancellation or at the end of its input. -/
structure PassthroughLoop.Drained (l : PassthroughLoop) : Prop where
  counted : l.input.Counted
  exited : l.pc = .exited → l.cancelled = true ∨ l.input.Ended

namespace PassthroughLoop

variable {l l' : PassthroughLoop} {e : PassthroughEvent}

theorem Drained.step (hd : l.Drained) (h : l.step e = some l') : l'.Drained := by
  cases e with
  | arrive envelope =>
    simp only [PassthroughLoop.step] at h
    split at h
    · obtain ⟨input, hi, rfl⟩ := Option.map_eq_some_iff.mp h
      refine ⟨hd.counted.send hi, fun hs => (hd.exited hs).imp_right ?_⟩
      intro he
      exact absurd hi he.no_send
    · cases h
  | close =>
    obtain rfl := Option.some.inj h
    exact ⟨hd.counted, fun hs => (hd.exited hs).imp_right fun he => ⟨rfl, he.2⟩⟩
  | refuse r =>
    obtain rfl := Option.some.inj h
    exact ⟨hd.counted.refuse r, fun hs => (hd.exited hs).imp_right fun he => he.refuse r⟩
  | cancel =>
    obtain rfl := Option.some.inj h
    exact ⟨hd.counted, fun _ => .inl rfl⟩
  | recv =>
    simp only [PassthroughLoop.step] at h
    split at h
    · split at h
      · next hm =>
        obtain rfl := Option.some.inj h
        exact ⟨hd.counted.recv hm, by rintro ⟨⟩⟩
      · next hc =>
        obtain rfl := Option.some.inj h
        obtain ⟨hb, hc⟩ := InputQueue.recv_closed hc
        exact ⟨hd.counted, fun _ => .inr ⟨hc, hb⟩⟩
      · cases h
    · cases h
  | stop =>
    simp only [PassthroughLoop.step] at h
    split at h
    · split at h
      · next hc =>
        obtain rfl := Option.some.inj h
        exact ⟨hd.counted, fun _ => .inl hc⟩
      · cases h
    · cases h
  | sent =>
    simp only [PassthroughLoop.step] at h
    split at h
    · obtain rfl := Option.some.inj h
      exact ⟨hd.counted, by rintro ⟨⟩⟩
    · cases h

theorem step_cancelled (h : l.step e = some l') (he : e ≠ .cancel) :
    l'.cancelled = l.cancelled := by
  cases e with
  | cancel => exact absurd rfl he
  | arrive envelope =>
    simp only [PassthroughLoop.step] at h
    split at h
    · obtain ⟨input, -, rfl⟩ := Option.map_eq_some_iff.mp h
      rfl
    · cases h
  | close | refuse =>
    obtain rfl := Option.some.inj h
    rfl
  | recv | stop | sent =>
    simp only [PassthroughLoop.step] at h
    repeat' split at h
    all_goals first
      | (obtain rfl := Option.some.inj h; rfl)
      | cases h

end PassthroughLoop

theorem SourceLoop.step_cancelled {l l' : SourceLoop} {e : SourceEvent} (h : l.step e = some l')
    (he : e ≠ .cancel) : l'.cancelled = l.cancelled := by
  cases e with
  | cancel => exact absurd rfl he
  | tick =>
    obtain rfl := Option.some.inj h
    rfl
  | poll answer =>
    simp only [SourceLoop.step] at h
    split at h
    · obtain rfl := Option.some.inj h
      cases answer with
      | item | eof => rfl
      | error message =>
        unfold polled
        dsimp only
        split <;> rfl
    · cases h
  | wake | stop | sent | closed =>
    simp only [SourceLoop.step] at h
    repeat' split at h
    all_goals first
      | (obtain rfl := Option.some.inj h; rfl)
      | cases h

/-! ## Tasks -/

namespace NodeTask

/-- A source never has anything in its queue: nobody receives there. -/
def Drained : NodeTask → Prop
  | source _ q => q.Counted ∧ q.buffer = []
  | sink l => l.Drained
  | passthrough l => l.Drained
  | runner _ w => w.Drained

variable {t t' : NodeTask} {i : TaskInput}

theorem Drained.step (hd : t.Drained) (h : t.step i = some t') : t'.Drained := by
  cases task_step h with
  | source => exact hd
  | @refused l q r => exact ⟨hd.1.refuse r, hd.2⟩
  | closed => exact hd
  | sink fired => exact SinkLoop.Drained.step hd fired
  | passthrough fired => exact PassthroughLoop.Drained.step hd fired
  | runner fired => exact World.Drained.step hd (step_transition fired)

theorem step_cancelled (h : t.step i = some t') (hi : i ≠ .cancel) :
    t'.cancelled = t.cancelled := by
  cases task_step h with
  | source fired input =>
    exact SourceLoop.step_cancelled fired (by rintro rfl; exact hi input.symm)
  | refused | closed => rfl
  | sink fired input => exact SinkLoop.step_cancelled fired (by rintro rfl; exact hi input.symm)
  | passthrough fired input =>
    exact PassthroughLoop.step_cancelled fired (by rintro rfl; exact hi input.symm)
  | runner fired input =>
    exact World.step_cancelled (step_transition fired) (by rintro rfl; exact hi input.symm)

/-- A task that returned without error and without cancellation has an empty queue. -/
theorem Drained.completed (hd : t.Drained) (hc : t.cancelled = false)
    (hr : t.result = some (.ok ())) :
    t.input.metrics.enqueued = t.input.metrics.dequeued ∧ t.input.buffer = [] := by
  have hc' : ¬ t.cancelled = true := Bool.eq_false_iff.mp hc
  suffices h : t.input.Counted ∧ t.input.buffer = [] from ⟨h.1.balanced h.2, h.2⟩
  cases t with
  | source => exact hd
  | sink l =>
    refine ⟨hd.counted, ((hd.stopped ?_).resolve_left hc').2⟩
    simp only [result] at hr
    split at hr
    · next hp => rw [SinkLoop.stopped, hp]
    · exact absurd hr nofun
  | passthrough l =>
    refine ⟨hd.counted, ((hd.exited ?_).resolve_left hc').2⟩
    simp only [result] at hr
    split at hr
    · next hp => exact hp
    · exact absurd hr nofun
  | runner cfg w =>
    refine ⟨hd.counted, (hd.ended ((hd.finished ?_).resolve_left hc')).2⟩
    simp only [result] at hr
    split at hr
    · next hp =>
      obtain rfl := Option.some.inj hr
      rw [hp]
      rfl
    · exact absurd hr nofun

end NodeTask

/-! ## The pipeline -/

theorem PipelineConfig.spawn_drained (cfg : PipelineConfig) (nodeId : String) (spec : NodeSpec) :
    (cfg.spawn nodeId spec).Drained ∧ (cfg.spawn nodeId spec).cancelled = false := by
  have ht : (cfg.wiring.takeReceiver nodeId).Counted ∧
      (cfg.wiring.takeReceiver nodeId).buffer = [] := by
    unfold QueueWiring.takeReceiver
    split <;> exact ⟨rfl, rfl⟩
  cases spec with
  | source => exact ⟨ht, rfl⟩
  | sink => exact ⟨⟨ht.1, fun hs => nomatch hs⟩, rfl⟩
  | passthrough => exact ⟨⟨ht.1, fun hs => nomatch hs⟩, rfl⟩
  | runner => exact ⟨.start .., rfl⟩

/-- When every task of a run without cancellation has returned without error, the counters of every
wired queue agree and its channel is empty. -/
theorem completion_drains_queues {cfg : PipelineConfig} {events : List PipelineEvent}
    {p : Pipeline} (h : Pipeline.run cfg events = some p) (hc : .cancel ∉ events)
    (hr : ∀ n t, p.tasks n = some t → t.result = some (.ok ())) {nodeId : String}
    (hd : nodeId ∈ cfg.destinations) :
    ∃ t, p.tasks nodeId = some t ∧ t.input.metrics.enqueued = t.input.metrics.dequeued ∧
      t.input.buffer = [] := by
  obtain ⟨edge, he, rfl⟩ := (cfg.grouped nodeId).mp hd
  have hsome := Pipeline.tasks_isSome h edge.toNode
  rw [(cfg.endpoints edge he).2] at hsome
  obtain ⟨t, ht⟩ := Option.isSome_iff_exists.mp hsome
  obtain ⟨spec, inputs, -, hrun, hcancel⟩ := Pipeline.tasks_run h ht
  have hinv : t.Drained ∧ t.cancelled = false := by
    refine Lib.exec_invariant_where (P := fun t : NodeTask => t.Drained ∧ t.cancelled = false)
      (C := fun _ i => i ≠ .cancel) ?_ hrun (.of_forall ?_) (cfg.spawn_drained ..)
    · intro s i t hs hi hstep
      exact ⟨hs.1.step hstep, (NodeTask.step_cancelled hstep hi).trans hs.2⟩
    · rintro s i hi rfl
      exact hc (hcancel hi)
  exact ⟨t, ht, hinv.1.completed hinv.2 (hr _ t ht)⟩

/-! A source, a Wasm filter and a third node in a row. -/

def screenStore : Store := { nodeId := "screen", capabilities := {}, memoryLimit := 1 }

def screenSetup : LoopSetup where
  node := .wasm
    { store := screenStore, bindings := preA.instantiate, cachedPre := preA, fuelLimit := none,
      capabilities := {}, memoryLimit := 1, epochDeadline := none, configJson := "{}",
      pluginVersion := "1" }
  coherent := rfl
  capacity := 1
  policy := ⟨.skip, ⟨0, 0, .skip⟩, ⟨1, 1, .skip⟩, .skip, 1⟩
  dlqSender := none
  hashes := fun _ => none

theorem screen_last_nodup : ["screen", "last"].Nodup := by decide

def screened (last : NodeSpec) : PipelineConfig where
  nodes n :=
    if n = "meter" then some .source
    else if n = "screen" then some (.runner ⟨.filter, "screen", .standard⟩ screenSetup)
    else if n = "last" then some last
    else none
  edges := [{ fromNode := "meter", toNode := "screen" }, { fromNode := "screen", toNode := "last" }]
  defaultQueueCapacity := 1
  deadLetter := false
  destinations := ["screen", "last"]
  nodup := screen_last_nodup
  grouped n := by simp [eq_comm]
  endpoints := by simp

def ofNode (nodeId : String) (events : List Event) : List PipelineEvent :=
  events.map fun e => .task nodeId (.runner e)

/-- An item that a source makes. -/
def metered (id : String) (timestamp : Nat) : SourceItem := ⟨.new id timestamp "meter" [], rfl⟩

/-- The source yields one message and ends. -/
def meterRun : List PipelineEvent :=
  [.task "meter" (.source (.poll (.item (metered "m" 0) "t"))),
    .deliver "meter" ⟨0, .ok⟩, .task "meter" (.source .sent), .task "meter" (.source (.poll .eof)),
    .task "meter" (.source .closed), .close "screen"]

/-- The message is in the filter's guest. -/
def screenCalled : List PipelineEvent :=
  meterRun ++ ofNode "screen" (idleRound ++ [.select .recv, .advance])

def keepAnswer : Event := .returned (.evaluate { result := .ok (.ok true) }) noFailure

/-- The filter sees the end of its input and returns, then the sink does. -/
def screenEnd : List PipelineEvent :=
  ofNode "screen" (idleRound ++ [.select .recv, .advance, .advance, .shutdown noAttempts]) ++
    [.close "last", .task "last" (.sink .recv), .task "last" (.sink (.collect (.ok ()))),
      .task "last" (.sink .recv), .task "last" (.sink .tryRecv),
      .task "last" (.sink (.flush (.ok ()))), .task "last" (.sink (.finish (.ok ())))]

def completedRun : List PipelineEvent :=
  screenCalled ++ ofNode "screen" [keepAnswer] ++
    ([.deliver "screen" ⟨0, .ok⟩] ++ ofNode "screen" [.sent] ++ screenEnd)

theorem completion_drains_queues_screened :
    ∃ p, Pipeline.run (screened (.sink none)) completedRun = some p ∧
      ∃ t, p.tasks "last" = some t ∧ t.input.metrics.dequeued = 1 ∧
        t.input.metrics.enqueued = t.input.metrics.dequeued ∧ t.input.buffer = [] := by
  have hr : ∃ p, Pipeline.run (screened (.sink none)) completedRun = some p ∧
      (∃ t, p.tasks "last" = some t ∧ t.input.metrics.dequeued = 1 ∧ t.result = some (.ok ())) ∧
      (∃ t, p.tasks "screen" = some t ∧ t.result = some (.ok ())) ∧
      ∃ t, p.tasks "meter" = some t ∧ t.result = some (.ok ()) :=
    ⟨_, rfl, ⟨_, rfl, rfl, rfl⟩, ⟨_, rfl, rfl⟩, ⟨_, rfl, rfl⟩⟩
  obtain ⟨p, h, ⟨t, ht, hd, hl⟩, ⟨u, hu, hs⟩, v, hv, hm⟩ := hr
  have hc : .cancel ∉ completedRun := by
    simp [completedRun, screenCalled, meterRun, screenEnd, ofNode, idleRound]
  have hall : ∀ n s, p.tasks n = some s → s.result = some (.ok ()) := by
    intro n s hn
    have hsome := Pipeline.tasks_isSome h n
    rw [hn] at hsome
    by_cases h1 : n = "meter"
    · subst h1
      rwa [Option.some.inj (hn.symm.trans hv)]
    by_cases h2 : n = "screen"
    · subst h2
      rwa [Option.some.inj (hn.symm.trans hu)]
    by_cases h3 : n = "last"
    · subst h3
      rwa [Option.some.inj (hn.symm.trans ht)]
    · simp [screened, h1, h2, h3] at hsome
  have hw : "last" ∈ (screened (.sink none)).destinations := .tail _ (.head _)
  obtain ⟨t', ht', hq⟩ := completion_drains_queues h hc hall hw
  obtain rfl := Option.some.inj (ht.symm.trans ht')
  exact ⟨p, h, t, ht, hd, hq⟩

end Wafer
