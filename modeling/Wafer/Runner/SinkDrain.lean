import Wafer.Lib.Execution
import Wafer.Runner.Sink

/-!
# The drain of the sink loop

After its loop a sink takes out what is still queued with `try_recv`, up to the
first read that finds the queue empty. The upstream senders go on during the
drain and after it, and the drain counts nothing.

## Main definitions

- `SinkLoop.Turn` — what a step does with the queue, the collected envelopes and the counters
- `SinkLoop.Timely`, `SinkLoop.Undrained` — conditions on the steps of a run

## Main results

- `drained_before_last_read` — collected is what was enqueued before the last read
- `dequeues_counted` — every dequeue is counted, exactly when the drain found nothing
-/

namespace Wafer

/-- The drain is over: its last read found the queue empty. -/
def SinkPc.drained : SinkPc → Bool
  | .flushing | .closing _ | .exited _ => true
  | _ => false

/-- The envelopes of the main loop whose `collect` has not answered yet. -/
def SinkPc.uncounted : SinkPc → Nat
  | .collecting _ => 1
  | _ => 0

/-- The envelope an event puts into the queue. -/
def SinkEvent.arrived : SinkEvent → List RuntimeEnvelope
  | .arrive envelope => [envelope]
  | _ => []

namespace SinkLoop

/-- The loop as its task is spawned, behind a queue of the given capacity. -/
def spawned (nodeId : String) (batchTimeout : Option Nat) (capacity : Nat) : SinkLoop where
  nodeId := nodeId
  batchTimeout := batchTimeout
  input := { capacity }

/-- A run of `run_sink_loop`, among the sends of its upstream nodes and the cancellation. -/
def run (nodeId : String) (batchTimeout : Option Nat) (capacity : Nat) (events : List SinkEvent) :
    Option SinkLoop :=
  Lib.exec step (spawned nodeId batchTimeout capacity) events

/-- What has been taken out of the queue or is still in it, oldest first. -/
def enqueued (l : SinkLoop) : List RuntimeEnvelope := l.collected.reverse ++ l.input.buffer

/-- What a step does with the queue, the collected envelopes and the counters. -/
inductive Turn (l : SinkLoop) : SinkEvent → SinkLoop → Prop
  | arrived {envelope : RuntimeEnvelope} {input : InputQueue}
      (sent : l.input.send envelope = some input) : Turn l (.arrive envelope) { l with input }
  /-- the senders go away, refuse or cancel -/
  | around {e : SinkEvent} {input : InputQueue} {cancelled : Bool} (silent : e.arrived = [])
      (waiting : e ≠ .tryRecv) (buffer : input.buffer = l.input.buffer)
      (counted : input.metrics.dequeued = l.input.metrics.dequeued) :
      Turn l e { l with input, cancelled }
  | taken {envelope : RuntimeEnvelope} {rest : InputQueue} (pc : l.pc = .receiving)
      (message : l.input.recv = .message envelope rest) :
      Turn l .recv { l with
        input := rest, pc := .collecting envelope, collected := envelope :: l.collected }
  | answered {envelope : RuntimeEnvelope} {answer : Except String Unit} {metrics : NodeMetrics}
      (pc : l.pc = .collecting envelope)
      (counted : metrics.processed + metrics.attemptsFailed =
        l.metrics.processed + l.metrics.attemptsFailed + 1) :
      Turn l (.collect answer) { l with metrics, pc := .receiving }
  | drained {envelope : RuntimeEnvelope} {rest : InputQueue} (pc : l.pc = .draining)
      (message : l.input.recv = .message envelope rest) :
      Turn l .tryRecv { l with
        input := rest, pc := .drainCollecting envelope, collected := envelope :: l.collected }
  | lastRead (pc : l.pc = .draining) (empty : l.input.buffer = []) :
      Turn l .tryRecv { l with pc := .flushing }
  | moved {e : SinkEvent} {pc : SinkPc} (silent : e.arrived = []) (waiting : e ≠ .tryRecv)
      (phase : pc.drained = l.pc.drained) (before : l.pc.uncounted = 0)
      (after : pc.uncounted = 0) : Turn l e { l with pc }

variable {l l' : SinkLoop} {e : SinkEvent} {events : List SinkEvent} {nodeId : String}
  {batchTimeout : Option Nat} {capacity : Nat}

theorem Turn.of_step (h : l.step e = some l') : Turn l e l' := by
  cases e with
  | arrive envelope =>
    simp only [step] at h
    split at h
    · obtain ⟨input, hs, rfl⟩ := Option.map_eq_some_iff.mp h
      exact .arrived hs
    · cases h
  | close =>
    obtain rfl := Option.some.inj h
    exact .around rfl (by rintro ⟨⟩) rfl rfl
  | refuse r =>
    obtain rfl := Option.some.inj h
    exact .around rfl (by rintro ⟨⟩) rfl (QueueMetrics.dequeued_recordRefusal ..)
  | cancel =>
    obtain rfl := Option.some.inj h
    exact .around rfl (by rintro ⟨⟩) rfl rfl
  | recv =>
    simp only [step] at h
    split at h
    · next hpc =>
      split at h
      · next hm =>
        obtain rfl := Option.some.inj h
        exact .taken hpc hm
      · obtain rfl := Option.some.inj h
        exact .moved rfl (by rintro ⟨⟩) (by rw [hpc]; rfl) (by rw [hpc]; rfl) rfl
      · cases h
    · cases h
  | collect answer =>
    simp only [step] at h
    split at h
    · next hpc =>
      obtain rfl := Option.some.inj h
      refine .answered hpc ?_
      cases answer with
      | ok => exact Nat.add_right_comm ..
      | error => rfl
    · next hpc =>
      obtain rfl := Option.some.inj h
      exact .moved rfl (by rintro ⟨⟩) (by rw [hpc]; rfl) (by rw [hpc]; rfl) rfl
    · cases h
  | idle =>
    simp only [step] at h
    split at h
    · next hpc =>
      split at h
      · obtain rfl := Option.some.inj h
        exact .moved rfl (by rintro ⟨⟩) (by rw [hpc]; rfl) (by rw [hpc]; rfl) rfl
      · cases h
    · cases h
  | stop =>
    simp only [step] at h
    split at h
    · next hpc =>
      split at h
      · obtain rfl := Option.some.inj h
        exact .moved rfl (by rintro ⟨⟩) (by rw [hpc]; rfl) (by rw [hpc]; rfl) rfl
      · cases h
    · cases h
  | tryRecv =>
    simp only [step] at h
    split at h
    · next hpc =>
      split at h
      · next hm =>
        obtain rfl := Option.some.inj h
        exact .drained hpc hm
      · next hm =>
        obtain rfl := Option.some.inj h
        refine .lastRead hpc ?_
        -- a read that yields no message has found no message
        cases hb : l.input.buffer with
        | nil => rfl
        | cons envelope rest =>
          simp only [InputQueue.recv, hb] at hm
          exact absurd rfl (hm _ _)
    · cases h
  | flush answer =>
    simp only [step] at h
    split at h
    · next hpc =>
      obtain rfl := Option.some.inj h
      exact .moved rfl (by rintro ⟨⟩) (by rw [hpc]; rfl) (by rw [hpc]; rfl) rfl
    · next hpc =>
      obtain rfl := Option.some.inj h
      exact .moved rfl (by rintro ⟨⟩) (by rw [hpc]; rfl) (by rw [hpc]; rfl) rfl
    · cases h
  | finish answer =>
    simp only [step] at h
    split at h
    · next hpc =>
      obtain rfl := Option.some.inj h
      exact .moved rfl (by rintro ⟨⟩) (by rw [hpc]; rfl) (by rw [hpc]; rfl) rfl
    · cases h

/-! ## What is collected -/

/-- An envelope leaves the queue only to be collected, in the order in which it was enqueued. -/
theorem enqueued_step (h : l.step e = some l') : l'.enqueued = l.enqueued ++ e.arrived := by
  cases Turn.of_step h with
  | arrived sent =>
    show l.collected.reverse ++ _ = _
    rw [InputQueue.send_buffer sent]
    exact (List.append_assoc ..).symm
  | around silent _ buffer =>
    show l.collected.reverse ++ _ = _
    rw [buffer, silent, List.append_nil]
    rfl
  | taken _ message | drained _ message =>
    obtain ⟨hb, -⟩ := InputQueue.recv_message message
    simp only [enqueued, hb, SinkEvent.arrived, List.reverse_cons, List.append_assoc,
      List.singleton_append, List.append_nil]
  | answered | lastRead => exact (List.append_nil _).symm
  | moved silent =>
    rw [silent, List.append_nil]
    rfl

theorem enqueued_run (h : run nodeId batchTimeout capacity events = some l) :
    l.enqueued = events.flatMap SinkEvent.arrived := by
  have hc := Lib.exec_collects (fun _ _ _ hs => enqueued_step hs) h
  rw [hc]
  rfl

/-- Once drained, nothing is taken out of the queue. -/
theorem drained_step (h : l.step e = some l') (hd : l.pc.drained = true) :
    l'.pc.drained = true ∧ l'.collected = l.collected ∧
      l'.input.buffer = l.input.buffer ++ e.arrived := by
  cases Turn.of_step h with
  | arrived sent => exact ⟨hd, rfl, InputQueue.send_buffer sent⟩
  | around silent _ buffer =>
    refine ⟨hd, rfl, ?_⟩
    rw [silent, List.append_nil]
    exact buffer
  | taken pc | answered pc | drained pc | lastRead pc =>
    rw [pc] at hd
    cases hd
  | moved silent _ phase =>
    refine ⟨phase.trans hd, rfl, ?_⟩
    rw [silent, List.append_nil]

/-- Only a read that finds the queue empty ends the drain. -/
theorem lastRead_of_step (h : l.step e = some l') (hd : ¬ l.pc.drained = true)
    (hd' : l'.pc.drained = true) :
    e = .tryRecv ∧ l.pc = .draining ∧ l.input.buffer = [] ∧ l' = { l with pc := .flushing } := by
  cases Turn.of_step h with
  | arrived | around => exact absurd hd' hd
  | taken | answered | drained => cases hd'
  | lastRead pc empty => exact ⟨rfl, pc, empty, rfl⟩
  | moved _ _ phase => exact absurd (phase.symm.trans hd') hd

/-- Nothing is enqueued behind the last read of the drain. -/
def Timely (l : SinkLoop) (e : SinkEvent) : Prop := l.pc.drained = true → e.arrived = []

/-- The queue is empty once the drain is over. -/
def Emptied (l : SinkLoop) : Prop := l.pc.drained = true → l.input.buffer = []

theorem Emptied.step (hl : l.Emptied) (ht : l.Timely e) (h : l.step e = some l') : l'.Emptied := by
  intro hd'
  by_cases hd : l.pc.drained = true
  · obtain ⟨-, -, hb⟩ := drained_step h hd
    rw [hb, hl hd, ht hd]
    rfl
  · obtain ⟨-, -, hempty, rfl⟩ := lastRead_of_step h hd hd'
    exact hempty

/-- A queue that is empty behind the drain was empty, and nothing came, all the while. -/
theorem Emptied.back (h : l.step e = some l') (hl : l'.Emptied) : l.Emptied ∧ l.Timely e := by
  have hboth : l.pc.drained = true → l.input.buffer = [] ∧ e.arrived = [] := by
    intro hd
    obtain ⟨hd', -, hb⟩ := drained_step h hd
    exact List.append_eq_nil_iff.mp (hb.symm.trans (hl hd'))
  exact ⟨fun hd => (hboth hd).1, fun hd => (hboth hd).2⟩

/-- What is collected when the loop has returned is what was enqueued before the last read of the
drain, each envelope once and in order. That is all that was enqueued exactly when nothing came
behind that read. -/
theorem drained_before_last_read {result : Except WaferError Unit}
    (h : run nodeId batchTimeout capacity events = some l) (hx : l.pc = .exited result) :
    (∃ done later s t, events = done ++ .tryRecv :: later ∧
      run nodeId batchTimeout capacity done = some s ∧ s.step .tryRecv = some t ∧
      s.pc = .draining ∧ s.input.buffer = [] ∧
      l.collected.reverse = done.flatMap SinkEvent.arrived) ∧
    (l.collected.reverse = events.flatMap SinkEvent.arrived ↔
      Lib.StepsMeet step Timely (spawned nodeId batchTimeout capacity) events) := by
  have hd : l.pc.drained = true := by
    rw [hx]
    rfl
  have henq : l.collected.reverse ++ l.input.buffer = events.flatMap SinkEvent.arrived :=
    enqueued_run h
  constructor
  · obtain ⟨done, e, later, s, t, rfl, hdone, hst, hs, ht, hlater⟩ :=
      Lib.exec_first (P := fun l => l.pc.drained = true) h nofun hd
    obtain ⟨rfl, hpc, hempty, rfl⟩ := lastRead_of_step hst hs ht
    refine ⟨done, later, s, _, rfl, hdone, hst, hpc, hempty, ?_⟩
    -- nothing is collected behind the last read
    have hrest := (Lib.exec_invariant
      (P := fun u => u.pc.drained = true ∧ u.collected = s.collected)
      (fun u e v hu hv => ⟨(drained_step hv hu.1).1, (drained_step hv hu.1).2.1.trans hu.2⟩)
      hlater ⟨rfl, rfl⟩).2
    have hbefore : s.collected.reverse ++ s.input.buffer = done.flatMap SinkEvent.arrived :=
      enqueued_run hdone
    rw [hrest, ← hbefore, hempty, List.append_nil]
  · constructor
    · intro hall
      have hempty : l.input.buffer = [] := by
        rw [hall] at henq
        exact List.append_right_eq_self.mp henq
      exact (Lib.StepsMeet.of_final (I := fun _ => True) (G := Emptied) (fun _ _ _ _ _ => trivial)
        (fun _ _ _ _ hs hl => hl.back hs) h trivial fun _ => hempty).2
    · intro hmeet
      have hl : l.Emptied :=
        Lib.exec_invariant_where (fun _ _ _ hs hc ht => hs.step hc ht) h hmeet nofun
      rw [← henq, hl hd, List.append_nil]

/-- One envelope is queued when cancellation fires and is taken before it, a second one comes
behind the poll that finds the queue empty and is drained. -/
theorem drained_before_last_read_one :
    ∃ l, run "out" none 4 [.arrive (.new "m1" 0 "sensor" []), .cancel, .recv, .collect (.ok ()),
        .stop, .arrive (.new "m2" 0 "sensor" []), .tryRecv, .collect (.ok ()), .tryRecv,
        .flush (.ok ()), .finish (.ok ())] = some l ∧
      (l.collected.reverse = [.new "m1" 0 "sensor" [], .new "m2" 0 "sensor" []] ↔
        Lib.StepsMeet step Timely (spawned "out" none 4)
          [.arrive (.new "m1" 0 "sensor" []), .cancel, .recv, .collect (.ok ()), .stop,
            .arrive (.new "m2" 0 "sensor" []), .tryRecv, .collect (.ok ()), .tryRecv,
            .flush (.ok ()), .finish (.ok ())]) :=
  have h := rfl
  ⟨_, h, (drained_before_last_read h rfl).2⟩

/-- The upstream node is still draining when the sink makes its last read: what it then enqueues
is in the queue when the loop returns, and is not collected. -/
theorem enqueued_behind_last_read :
    ∃ l, run "out" none 4 [.cancel, .stop, .tryRecv, .arrive (.new "m1" 0 "sensor" []),
        .flush (.ok ()), .finish (.ok ())] = some l ∧
      l.pc = .exited (.ok ()) ∧ l.collected = [] ∧
      l.input.buffer = [.new "m1" 0 "sensor" []] :=
  ⟨_, rfl, rfl, rfl, rfl⟩

/-! ## What is counted -/

/-- Every dequeued envelope is collected. -/
theorem dequeued_step (h : l.step e = some l')
    (hl : l.input.metrics.dequeued = l.collected.length) :
    l'.input.metrics.dequeued = l'.collected.length := by
  cases Turn.of_step h with
  | arrived sent => exact (InputQueue.send_dequeued sent).trans hl
  | around _ _ _ counted => exact counted.trans hl
  | taken _ message | drained _ message =>
    obtain ⟨-, -, -, hm⟩ := InputQueue.recv_message message
    simp only [hm, QueueMetrics.recordDequeued, hl, List.length_cons]
  | answered | lastRead | moved => exact hl

/-- The envelopes that `collect` has answered for, as the counters have it, and the one it works
on. -/
def accountedFor (l : SinkLoop) : Nat :=
  l.metrics.processed + l.metrics.attemptsFailed + l.pc.uncounted

/-- The drain takes nothing out of the queue. -/
def Undrained (l : SinkLoop) (e : SinkEvent) : Prop := e = .tryRecv → l.input.buffer = []

/-- A step keeps the account with the dequeues, save that the drain dequeues without counting. -/
theorem accountedFor_step (h : l.step e = some l') :
    (l.Undrained e ∧
      l'.accountedFor + l.input.metrics.dequeued = l.accountedFor + l'.input.metrics.dequeued) ∨
    (¬ l.Undrained e ∧ l'.accountedFor = l.accountedFor ∧
      l'.input.metrics.dequeued = l.input.metrics.dequeued + 1) := by
  cases Turn.of_step h with
  | arrived sent =>
    left
    refine ⟨by rintro ⟨⟩, ?_⟩
    rw [InputQueue.send_dequeued sent]
    rfl
  | around _ waiting _ counted =>
    left
    refine ⟨fun he => absurd he waiting, ?_⟩
    rw [counted]
    rfl
  | taken pc message =>
    left
    obtain ⟨-, -, -, hm⟩ := InputQueue.recv_message message
    refine ⟨by rintro ⟨⟩, ?_⟩
    simp only [accountedFor, SinkPc.uncounted, pc, hm, QueueMetrics.recordDequeued]
    omega
  | answered pc counted =>
    left
    refine ⟨by rintro ⟨⟩, ?_⟩
    simp only [accountedFor, SinkPc.uncounted, pc]
    omega
  -- `try_recv` dequeues for good, but no counter of the loop moves
  | drained pc message =>
    right
    obtain ⟨hb, -, -, hm⟩ := InputQueue.recv_message message
    refine ⟨fun hu => ?_, ?_, ?_⟩
    · rw [hu rfl] at hb
      cases hb
    · simp only [accountedFor, SinkPc.uncounted, pc]
    · simp only [hm, QueueMetrics.recordDequeued]
  | lastRead pc empty =>
    left
    refine ⟨fun _ => empty, ?_⟩
    simp only [accountedFor, SinkPc.uncounted, pc]
  | moved _ waiting _ before after =>
    left
    refine ⟨fun he => absurd he waiting, ?_⟩
    simp only [accountedFor, before, after]

/-- When the loop has returned, every dequeued envelope is collected, and the counters account for
every dequeue exactly when the drain found the queue empty at once. -/
theorem dequeues_counted {result : Except WaferError Unit}
    (h : run nodeId batchTimeout capacity events = some l) (hx : l.pc = .exited result) :
    l.input.metrics.dequeued = l.collected.length ∧
      (l.input.metrics.dequeued = l.metrics.processed + l.metrics.attemptsFailed ↔
        Lib.StepsMeet step Undrained (spawned nodeId batchTimeout capacity) events) := by
  have hcount : l.accountedFor = l.metrics.processed + l.metrics.attemptsFailed := by
    unfold accountedFor
    rw [hx]
    rfl
  rw [← hcount]
  refine ⟨?_, ?_, ?_⟩
  · exact Lib.exec_invariant (P := fun s => s.input.metrics.dequeued = s.collected.length)
      (fun s e t hs ht => dequeued_step ht hs) h rfl
  · intro hl
    -- an envelope once left out is never made up for
    refine (Lib.StepsMeet.of_final (I := fun s => s.accountedFor ≤ s.input.metrics.dequeued)
      (G := fun s => s.input.metrics.dequeued = s.accountedFor) ?_ ?_ h (Nat.zero_le _) hl).2
    · intro s e t hs ht
      rcases accountedFor_step ht with ⟨-, hst⟩ | ⟨-, hst, hd⟩ <;> omega
    · intro s e t hs ht hg
      rcases accountedFor_step ht with ⟨hu, hst⟩ | ⟨-, hst, hd⟩
      · exact ⟨by omega, hu⟩
      · omega
  · intro hmeet
    refine Lib.exec_invariant_where (P := fun s => s.input.metrics.dequeued = s.accountedFor) ?_ h
      hmeet rfl
    intro s e t hs hu ht
    rcases accountedFor_step ht with ⟨-, hst⟩ | ⟨hnot, -⟩
    · omega
    · exact absurd hu hnot

/-- One envelope is collected and counted before the senders go away. -/
theorem dequeues_counted_one :
    ∃ l, run "out" none 4 [.arrive (.new "m1" 0 "sensor" []), .close, .recv, .collect (.ok ()),
        .recv, .tryRecv, .flush (.ok ()), .finish (.ok ())] = some l ∧
      (l.input.metrics.dequeued = l.metrics.processed + l.metrics.attemptsFailed ↔
        Lib.StepsMeet step Undrained (spawned "out" none 4)
          [.arrive (.new "m1" 0 "sensor" []), .close, .recv, .collect (.ok ()), .recv, .tryRecv,
            .flush (.ok ()), .finish (.ok ())]) :=
  have h := rfl
  ⟨_, h, (dequeues_counted h rfl).2⟩

/-- An envelope comes behind the poll that finds the queue empty and lets the cancellation win: the
drain collects it and counts nothing. -/
theorem drained_uncounted :
    ∃ l, run "out" none 4 [.cancel, .stop, .arrive (.new "m1" 0 "sensor" []), .tryRecv,
        .collect (.ok ()), .tryRecv, .flush (.ok ()), .finish (.ok ())] = some l ∧
      l.pc = .exited (.ok ()) ∧ l.input.metrics.dequeued = 1 ∧
      l.metrics.processed + l.metrics.attemptsFailed = 0 :=
  ⟨_, rfl, rfl, rfl, rfl⟩

end SinkLoop

end Wafer
