import Wafer.Lib.Execution
import Wafer.Node.Sink
import Wafer.Runner.Sink

/-!
# The sink loop over a batched sink

`run_sink_loop` with a file, HTTP or MQTT sink in it. The sink computes the
answers of `collect`, `flush` and `close` from those of the outside. Envelopes
are numbered as the loop takes them, to tell equal ones apart; `counted` lists
the numbers behind the `processed` counter and `written` the numbers of the
batches whose write succeeded.

## Main results

- `counted_written` — a clean exit has written everything it counted, exactly
  when no failed write held a counted envelope
- `reaches_loop` — a run of the composition is a run of the loop
-/

namespace Wafer

/-- The events that carry an answer of the sink. -/
def SinkEvent.callsSink : SinkEvent → Bool
  | .collect _ | .flush _ | .finish _ => true
  | _ => false

/-- The number of the next envelope given to `collect`. -/
def SinkLoop.next (l : SinkLoop) : Nat :=
  match l.pc with
  | .collecting _ | .drainCollecting _ => l.collected.length
  | _ => l.collected.length+1

/-- Between the final flush and the return. -/
def SinkLoop.finishing (l : SinkLoop) : Bool :=
  match l.pc with
  | .closing _ | .exited _ => true
  | _ => false

structure SinkRun where
  loop : SinkLoop
  sink : BatchedSink (Nat × RuntimeEnvelope)
  counted : List Nat := []
  written : List Nat := []

inductive SinkRunEvent
  /-- a step of the loop, or of its channel, that does not call the sink -/
  | loop (e : SinkEvent)
  | collect (io : IoAnswers)
  | flush (io : IoAnswers)
  | close (io : IoAnswers)

namespace SinkRun

/-- The numbers of the buffered envelopes. -/
def buffered (r : SinkRun) : List Nat := r.sink.buffered.map Prod.fst

/-- The run after a call of the sink. -/
def called (r : SinkRun) (call : SinkCall (Nat × RuntimeEnvelope)) (loop : SinkLoop) : SinkRun :=
  { r with loop, sink := call.sink, written := call.written.map Prod.fst ++ r.written }

def step (r : SinkRun) : SinkRunEvent → Option SinkRun
  | .loop e =>
    if e.callsSink then none else (r.loop.step e).map fun loop => { r with loop }
  | .collect io =>
    match r.loop.pc with
    | .collecting envelope =>
      let call := r.sink.collect (r.loop.next, envelope) io
      (r.loop.step (.collect call.result)).map fun loop =>
        { r.called call loop with
          counted := match call.result with
            | .ok () => r.loop.next :: r.counted
            | .error _ => r.counted }
    -- the drain after the loop counts nothing
    | .drainCollecting envelope =>
      let call := r.sink.collect (r.loop.next, envelope) io
      (r.loop.step (.collect call.result)).map (r.called call)
    | _ => none
  | .flush io =>
    let call := r.sink.flush io
    (r.loop.step (.flush call.result)).map (r.called call)
  | .close io =>
    let call := r.sink.close io
    (r.loop.step (.finish call.result)).map (r.called call)

end SinkRun

/-- What `run_sink_loop` is entered with: a sink after its `init`. -/
structure SinkSetup where
  capacity : Nat
  sink : BatchedSink (Nat × RuntimeEnvelope)
  initialized : ∃ kind id batchConfig created,
    (BatchedSink.withBatching kind id batchConfig).init created = some (.ok (), sink)

theorem SinkSetup.buffered_eq_nil (setup : SinkSetup) : setup.sink.buffered = [] := by
  obtain ⟨_, _, _, _, h⟩ := setup.initialized
  exact BatchedSink.init_buffered rfl h

def SinkRun.start (setup : SinkSetup) : SinkRun where
  loop := {
    nodeId := setup.sink.id, batchTimeout := setup.sink.batchTimeout
    input := { capacity := setup.capacity } }
  sink := setup.sink

/-- A run of `run_sink_loop`. -/
def runSinkLoop (setup : SinkSetup) (events : List SinkRunEvent) : Option SinkRun :=
  Lib.exec SinkRun.step (SinkRun.start setup) events

namespace SinkLoop

variable {l l' : SinkLoop} {e : SinkEvent}

/-- The steps that do not call the sink take an envelope or move on, and count nothing. -/
theorem step_frame (hc : e.callsSink = false) (h : l.step e = some l') :
    l'.next = l.next ∧ l'.metrics = l.metrics ∧
      (l'.pc = l.pc ∨ l.finishing = false ∧ l'.finishing = false) := by
  cases e with
  | collect | flush | finish => cases hc
  | arrive envelope =>
    simp only [step] at h
    split at h
    · obtain ⟨input, -, rfl⟩ := Option.map_eq_some_iff.mp h
      exact ⟨rfl, rfl, .inl rfl⟩
    · cases h
  | close | refuse | cancel =>
    obtain rfl := Option.some.inj h
    exact ⟨rfl, rfl, .inl rfl⟩
  | recv =>
    simp only [step] at h
    split at h
    · next hpc =>
      split at h
      · obtain rfl := Option.some.inj h
        exact ⟨by simp only [next, hpc, List.length_cons], rfl, .inr ⟨by rw [finishing, hpc], rfl⟩⟩
      · obtain rfl := Option.some.inj h
        exact ⟨by simp only [next, hpc], rfl, .inr ⟨by rw [finishing, hpc], rfl⟩⟩
      · cases h
    · cases h
  | tryRecv =>
    simp only [step] at h
    split at h
    · next hpc =>
      split at h <;> obtain rfl := Option.some.inj h
      · exact ⟨by simp only [next, hpc, List.length_cons], rfl, .inr ⟨by rw [finishing, hpc], rfl⟩⟩
      · exact ⟨by simp only [next, hpc], rfl, .inr ⟨by rw [finishing, hpc], rfl⟩⟩
    · cases h
  | idle | stop =>
    simp only [step] at h
    split at h
    · next hpc =>
      split at h
      · obtain rfl := Option.some.inj h
        exact ⟨by simp only [next, hpc], rfl, .inr ⟨by rw [finishing, hpc], rfl⟩⟩
      · cases h
    · cases h

end SinkLoop

namespace SinkRun

variable {setup : SinkSetup} {events : List SinkRunEvent} {r t : SinkRun} {e : SinkRunEvent}

/-- What one step does. -/
inductive Move (r : SinkRun) : SinkRunEvent → SinkRun → Prop
  | loop {e : SinkEvent} {loop : SinkLoop} (quiet : e.callsSink = false)
      (fired : r.loop.step e = some loop) : Move r (.loop e) { r with loop }
  | counted {envelope : RuntimeEnvelope} {io : IoAnswers} (taken : r.loop.pc = .collecting envelope)
      (ok : (r.sink.collect (r.loop.next, envelope) io).result = .ok ()) :
      Move r (.collect io)
        { r.called (r.sink.collect (r.loop.next, envelope) io)
            { r.loop with metrics := r.loop.metrics.recordProcessed, pc := .receiving } with
          counted := r.loop.next :: r.counted }
  | failed {envelope : RuntimeEnvelope} {io : IoAnswers} {error : String}
      (taken : r.loop.pc = .collecting envelope)
      (err : (r.sink.collect (r.loop.next, envelope) io).result = .error error) :
      Move r (.collect io)
        (r.called (r.sink.collect (r.loop.next, envelope) io)
          { r.loop with metrics := r.loop.metrics.recordFailed, pc := .receiving })
  | drained {envelope : RuntimeEnvelope} {io : IoAnswers}
      (taken : r.loop.pc = .drainCollecting envelope) :
      Move r (.collect io)
        (r.called (r.sink.collect (r.loop.next, envelope) io) { r.loop with pc := .draining })
  | idleFlush {io : IoAnswers} (idle : r.loop.pc = .idleFlush) :
      Move r (.flush io) (r.called (r.sink.flush io) { r.loop with pc := .receiving })
  | finalFlush {io : IoAnswers} (flushing : r.loop.pc = .flushing) :
      Move r (.flush io)
        (r.called (r.sink.flush io) { r.loop with pc := .closing (r.sink.flush io).result })
  | close {flushed : Except String Unit} {io : IoAnswers} (closing : r.loop.pc = .closing flushed) :
      Move r (.close io)
        (r.called (r.sink.close io) { r.loop with
          pc := .exited (SinkLoop.outcome r.loop.nodeId flushed (r.sink.close io).result) })

theorem Move.of_step (h : r.step e = some t) : r.Move e t := by
  cases e with
  | loop e =>
    simp only [step] at h
    split at h
    · cases h
    · next quiet =>
      obtain ⟨loop, fired, rfl⟩ := Option.map_eq_some_iff.mp h
      exact .loop (Bool.not_eq_true _ ▸ quiet) fired
  | collect io =>
    simp only [step] at h
    split at h
    · next envelope taken =>
      cases hr : (r.sink.collect (r.loop.next, envelope) io).result with
      | ok _ =>
        simp only [SinkLoop.step, taken, hr, Option.map_some, Option.some.injEq] at h
        obtain rfl := h
        exact .counted taken hr
      | error _ =>
        simp only [SinkLoop.step, taken, hr, Option.map_some, Option.some.injEq] at h
        obtain rfl := h
        exact .failed taken hr
    · next envelope taken =>
      simp only [SinkLoop.step, taken, Option.map_some, Option.some.injEq] at h
      obtain rfl := h
      exact .drained taken
    · cases h
  | flush io =>
    obtain ⟨loop, fired, rfl⟩ := Option.map_eq_some_iff.mp h
    simp only [SinkLoop.step] at fired
    split at fired
    · next idle =>
      obtain rfl := Option.some.inj fired
      exact .idleFlush idle
    · next flushing =>
      obtain rfl := Option.some.inj fired
      exact .finalFlush flushing
    · cases fired
  | close io =>
    obtain ⟨loop, fired, rfl⟩ := Option.map_eq_some_iff.mp h
    simp only [SinkLoop.step] at fired
    split at fired
    · next flushed closing =>
      obtain rfl := Option.some.inj fired
      exact .close closing
    · cases fired

/-- The envelope is in a written batch or still buffered. -/
def Held (r : SinkRun) (n : Nat) : Prop := n ∈ r.written ∨ n ∈ r.buffered

/-- No counted envelope is gone. -/
def Kept (r : SinkRun) : Prop := ∀ n ∈ r.counted, r.Held n

/-- Numbers are used once: those in use are below `next`, and a written envelope is not buffered. -/
structure Numbered (r : SinkRun) : Prop where
  counted : ∀ n ∈ r.counted, n < r.loop.next
  nodup : r.counted.Nodup
  held : ∀ n, r.Held n → n < r.loop.next
  apart : ∀ n ∈ r.buffered, n ∉ r.written

theorem held_collect {envelope : RuntimeEnvelope} {io : IoAnswers} {n : Nat}
    (hs : t.sink = (r.sink.collect (r.loop.next, envelope) io).sink)
    (hw : t.written =
      (r.sink.collect (r.loop.next, envelope) io).written.map Prod.fst ++ r.written)
    (h : t.Held n) : r.Held n ∨ n = r.loop.next := by
  have hm : ∀ x, x ∈ (r.sink.collect (r.loop.next, envelope) io).written ∨
      x ∈ (r.sink.collect (r.loop.next, envelope) io).sink.buffered → x.1 = n →
      r.Held n ∨ n = r.loop.next := by
    rintro x hx rfl
    rcases BatchedSink.mem_collect hx with hx | rfl
    · exact .inl (.inr (List.mem_map_of_mem hx))
    · exact .inr rfl
  rw [Held, hw, List.mem_append, buffered, hs] at h
  rcases h with (h | h) | h
  · obtain ⟨x, hx, hn⟩ := List.mem_map.mp h
    exact hm x (.inl hx) hn
  · exact .inl (.inl h)
  · obtain ⟨x, hx, hn⟩ := List.mem_map.mp h
    exact hm x (.inr hx) hn

/-- `flush` and `close` move the buffered envelopes into a written batch, or lose them. -/
theorem held_drain {io : IoAnswers} {n : Nat} (hs : t.sink.buffered = [])
    (hw : t.written = (r.sink.drain io).written.map Prod.fst ++ r.written) (h : t.Held n) :
    r.Held n := by
  rw [Held, hw, List.mem_append, buffered, hs] at h
  rcases h with (h | h) | h
  · obtain ⟨x, hx, rfl⟩ := List.mem_map.mp h
    exact .inr (List.mem_map_of_mem (BatchedSink.mem_drain hx))
  · exact .inl h
  · cases h

namespace Move

/-- A step adds at most the number it takes. -/
theorem back (h : r.Move e t) :
    r.loop.next ≤ t.loop.next ∧
      (∀ n, t.Held n → r.Held n ∨ n = r.loop.next ∧ n < t.loop.next) ∧
      ∀ n ∈ t.counted, n ∈ r.counted ∨ n = r.loop.next ∧ n < t.loop.next := by
  cases h with
  | loop quiet fired =>
    rw [(SinkLoop.step_frame quiet fired).1]
    exact ⟨le_rfl, fun n hn => .inl hn, fun n hn => .inl hn⟩
  | counted taken ok =>
    have hn : r.loop.next < r.loop.collected.length+1 := by simp only [SinkLoop.next, taken]; omega
    refine ⟨hn.le, fun n h => (held_collect rfl rfl h).imp_right fun h => ⟨h, h ▸ hn⟩, fun n h => ?_⟩
    rcases List.mem_cons.mp h with rfl | h
    · exact .inr ⟨rfl, hn⟩
    · exact .inl h
  | failed taken _ | drained taken =>
    have hn : r.loop.next < r.loop.collected.length+1 := by simp only [SinkLoop.next, taken]; omega
    exact ⟨hn.le, fun n h => (held_collect rfl rfl h).imp_right fun h => ⟨h, h ▸ hn⟩, fun n h => .inl h⟩
  | idleFlush pc | finalFlush pc =>
    have hn : r.loop.next = r.loop.collected.length+1 := by simp only [SinkLoop.next, pc]
    exact ⟨hn.le, fun n h => .inl (held_drain BatchedSink.flush_buffered rfl h), fun n h => .inl h⟩
  | @close _ io pc =>
    have hn : r.loop.next = r.loop.collected.length+1 := by simp only [SinkLoop.next, pc]
    have hw : (r.sink.close io).written = (r.sink.drain io).written := BatchedSink.close_written
    exact ⟨hn.le,
      fun n h => .inl (held_drain BatchedSink.close_buffered (by rw [← hw]; rfl) h),
      fun n h => .inl h⟩

theorem counted_subset (h : r.Move e t) : ∀ n ∈ r.counted, n ∈ t.counted := by
  cases h with
  | counted => exact fun n hn => .tail _ hn
  | loop | failed | drained | idleFlush | finalFlush | close => exact fun n hn => hn

/-- A step that loses nothing comes from a state that lost nothing. -/
theorem kept_back (h : r.Move e t) (hi : r.Numbered) (ht : t.Kept) : r.Kept := by
  intro n hn
  rcases h.back.2.1 n (ht n (h.counted_subset n hn)) with hh | ⟨rfl, -⟩
  · exact hh
  · exact absurd (hi.counted _ hn) (Nat.lt_irrefl _)

theorem numbered (h : r.Move e t) (hi : r.Numbered) : t.Numbered := by
  obtain ⟨hle, hheld, hcounted⟩ := h.back
  refine ⟨fun n hn => ?_, ?_, fun n hn => ?_, ?_⟩
  · rcases hcounted n hn with hn | ⟨-, hn⟩
    · exact (hi.counted n hn).trans_le hle
    · exact hn
  · cases h with
    | counted =>
      exact List.nodup_cons.mpr ⟨fun hn => Nat.lt_irrefl _ (hi.counted _ hn), hi.nodup⟩
    | loop | failed | drained | idleFlush | finalFlush | close => exact hi.nodup
  · rcases hheld n hn with hn | ⟨-, hn⟩
    · exact (hi.held n hn).trans_le hle
    · exact hn
  -- a call either empties the buffer or writes nothing
  have hcollect : ∀ (envelope : RuntimeEnvelope) (io : IoAnswers),
      ∀ n ∈ (r.sink.collect (r.loop.next, envelope) io).sink.buffered.map Prod.fst,
        n ∉ (r.sink.collect (r.loop.next, envelope) io).written.map Prod.fst ++ r.written := by
    intro envelope io n hn
    rcases @BatchedSink.collect_apart _ r.sink (r.loop.next, envelope) io with
      hb | hw
    · rw [hb] at hn
      cases hn
    · rw [hw, List.map_nil, List.nil_append]
      obtain ⟨x, hx, rfl⟩ := List.mem_map.mp hn
      rcases BatchedSink.mem_collect (.inr hx) with hx | rfl
      · exact hi.apart _ (List.mem_map_of_mem hx)
      · exact fun hw => Nat.lt_irrefl _ (hi.held _ (.inl hw))
  have hempty : ∀ {u : SinkRun}, u.sink.buffered = [] → ∀ n ∈ u.buffered, n ∉ u.written := by
    intro u hu n hn
    rw [buffered, hu] at hn
    cases hn
  cases h with
  | loop => exact hi.apart
  | counted | failed | drained => exact hcollect _ _
  | idleFlush | finalFlush => exact hempty BatchedSink.flush_buffered
  | close => exact hempty BatchedSink.close_buffered

end Move

theorem numbered_start : (start setup).Numbered := by
  have hb : (start setup).buffered = [] := congrArg (List.map Prod.fst) setup.buffered_eq_nil
  refine ⟨nofun, .nil, ?_, ?_⟩
  · rintro n (hn | hn)
    · cases hn
    · rw [hb] at hn
      cases hn
  · intro n hn
    rw [hb] at hn
    cases hn

/-! ## When a clean exit has written all it counted -/

end SinkRun

def SinkRunEvent.write : SinkRunEvent → Except String Unit
  | .loop _ => .ok ()
  | .collect io | .flush io | .close io => io.write

namespace SinkRun

variable {setup : SinkSetup} {events : List SinkRunEvent} {r t : SinkRun} {e : SinkRunEvent}

/-- The buffered envelopes that a write before the final flush takes along. -/
def atStake (r : SinkRun) : SinkRunEvent → List Nat
  | .collect _ => if r.sink.fills then r.buffered else []
  | .flush _ =>
    match r.loop.pc with
    | .idleFlush => r.buffered
    | _ => []
  | _ => []

/-- The write succeeds, or takes no counted envelope along. -/
def LossFree (r : SinkRun) (e : SinkRunEvent) : Prop :=
  e.write = .ok () ∨ ∀ n ∈ r.atStake e, n ∉ r.counted

/-- A final flush or close has failed. -/
def unclean (r : SinkRun) : Bool :=
  match r.loop.pc with
  | .closing (.error _) | .exited (.error _) => true
  | _ => false

theorem unclean_eq_false (h : r.loop.finishing = false) : r.unclean = false := by
  cases hpc : r.loop.pc with
  | closing | exited =>
    rw [SinkLoop.finishing, hpc] at h
    cases h
  | receiving | collecting | idleFlush | draining | drainCollecting | flushing =>
    rw [unclean, hpc]

/-- Until a failure shows, nothing counted is lost; after the final flush nothing is buffered. -/
structure Safe (r : SinkRun) : Prop where
  kept : r.unclean = false → r.Kept
  flushed : r.loop.finishing = true → r.sink.buffered = []

/-- A buffered envelope is gone once the buffer is empty and nothing was written. -/
theorem not_held (hi : r.Numbered) (hb : t.sink.buffered = []) (hw : t.written = r.written) {n : Nat}
    (hn : n ∈ r.buffered) : ¬ t.Held n := by
  rintro (h | h)
  · exact hi.apart n hn (hw ▸ h)
  · rw [buffered, hb] at h
    cases h

theorem Move.lossFree_of_kept (h : r.Move e t) (hi : r.Numbered) (ht : t.Kept) : r.LossFree e := by
  have hcollect : ∀ (envelope : RuntimeEnvelope) (io : IoAnswers),
      t.sink = (r.sink.collect (r.loop.next, envelope) io).sink →
      t.written = (r.sink.collect (r.loop.next, envelope) io).written.map Prod.fst ++ r.written →
      (∀ n ∈ r.counted, n ∈ t.counted) → r.LossFree (.collect io) := by
    intro envelope io hs hw hc
    cases hio : io.write with
    | ok _ => exact .inl hio
    | error _ =>
      right
      intro n hn hcount
      cases hf : r.sink.fills with
      | false =>
        rw [atStake, hf] at hn
        cases hn
      | true =>
        rw [atStake, hf] at hn
        obtain ⟨-, hb, hwr⟩ :=
          @BatchedSink.collect_of_fills _ r.sink (r.loop.next, envelope) io hf
        rw [hwr, hio] at hw
        exact not_held hi (by rw [hs, hb]) hw hn (ht n (hc n hcount))
  cases h with
  | loop => exact .inl rfl
  | counted => exact hcollect _ _ rfl rfl fun n hn => .tail _ hn
  | failed | drained => exact hcollect _ _ rfl rfl fun n hn => hn
  | @idleFlush io idle =>
    cases hio : io.write with
    | ok _ => exact .inl hio
    | error _ =>
      right
      intro n hn hcount
      simp only [atStake, idle] at hn
      have hne : r.sink.buffered ≠ [] := by
        intro hnil
        rw [buffered, hnil] at hn
        cases hn
      obtain ⟨-, -, hwr⟩ := @BatchedSink.drain_of_ne_nil _ r.sink io hne
      rw [hio] at hwr
      refine not_held hi BatchedSink.flush_buffered ?_ hn (ht n hcount)
      show (r.sink.drain io).written.map Prod.fst ++ r.written = r.written
      rw [hwr]
      rfl
  | finalFlush pc =>
    right
    intro n hn
    simp only [atStake, pc] at hn
    cases hn
  | close => exact .inr nofun

/-- All that was buffered is in the written batch. -/
theorem held_of_drain_ok {io : IoAnswers} {n : Nat}
    (hw : t.written = (r.sink.drain io).written.map Prod.fst ++ r.written)
    (hr : (r.sink.drain io).result = .ok ()) (h : r.Held n) : t.Held n := by
  rw [BatchedSink.drain_ok hr] at hw
  left
  rw [hw, List.mem_append]
  exact h.symm

theorem held_of_collect_ok {envelope : RuntimeEnvelope} {io : IoAnswers} {n : Nat}
    (hs : t.sink = (r.sink.collect (r.loop.next, envelope) io).sink)
    (hw : t.written =
      (r.sink.collect (r.loop.next, envelope) io).written.map Prod.fst ++ r.written)
    (hr : (r.sink.collect (r.loop.next, envelope) io).result = .ok ())
    (h : r.Held n ∨ n = r.loop.next) : t.Held n := by
  have hsplit := congrArg (List.map Prod.fst) (BatchedSink.collect_ok hr)
  simp only [List.map_append, List.map_cons, List.map_nil] at hsplit
  have hmem : n ∈ r.written ∨ n ∈ r.buffered ++ [r.loop.next] := by
    rw [List.mem_append, List.mem_singleton]
    rcases h with (h | h) | h
    · exact .inl h
    · exact .inr (.inl h)
    · exact .inr (.inr h)
  rw [Held, hw, buffered, hs, List.mem_append]
  rcases hmem with hm | hm
  · exact .inl (.inr hm)
  · rw [buffered, ← hsplit, List.mem_append] at hm
    rcases hm with hm | hm
    · exact .inr hm
    · exact .inl (.inl hm)

/-- A call that fails without loss had no counted envelope buffered. -/
theorem held_of_lossFree (hr : r.Kept) (hl : r.LossFree e) {n : Nat} (hn : n ∈ r.counted)
    (hfail : n ∈ r.buffered → e.write ≠ .ok () ∧ r.atStake e = r.buffered) : n ∈ r.written := by
  rcases hr n hn with hw | hb
  · exact hw
  · obtain ⟨hne, hat⟩ := hfail hb
    rcases hl with hok | hfree
    · exact absurd hok hne
    · exact absurd hn (hfree n (hat ▸ hb))

theorem held_of_collect_error {envelope : RuntimeEnvelope} {io : IoAnswers} {error : String}
    (hw : t.written =
      (r.sink.collect (r.loop.next, envelope) io).written.map Prod.fst ++ r.written)
    (he : (r.sink.collect (r.loop.next, envelope) io).result = .error error)
    (hr : r.Kept) (hl : r.LossFree (.collect io)) {n : Nat} (hn : n ∈ r.counted) : t.Held n := by
  left
  rw [hw, List.mem_append]
  right
  refine held_of_lossFree hr hl hn fun hb => ?_
  have hne : r.sink.buffered ≠ [] := by
    intro hnil
    rw [buffered, hnil] at hb
    cases hb
  obtain ⟨hf, hio⟩ := BatchedSink.collect_error_of_buffered he hne
  refine ⟨?_, if_pos hf⟩
  show io.write ≠ .ok ()
  rw [hio]
  exact nofun

theorem Move.safe (h : r.Move e t) (hl : r.LossFree e) (hs : r.Safe) : t.Safe := by
  cases h with
  | loop quiet fired =>
    obtain ⟨-, -, hpc | ⟨hr, ht⟩⟩ := SinkLoop.step_frame quiet fired
    · refine ⟨fun hu => hs.kept ?_, fun hf => hs.flushed ?_⟩
      · rwa [unclean, ← hpc]
      · rwa [SinkLoop.finishing, ← hpc]
    · refine ⟨fun _ => hs.kept (unclean_eq_false hr), fun hf => ?_⟩
      rw [show _ = false from ht] at hf
      cases hf
  | counted taken ok =>
    have hr : r.Kept := hs.kept (by rw [unclean, taken])
    refine ⟨fun _ n hn => held_of_collect_ok rfl rfl ok ?_, nofun⟩
    rcases List.mem_cons.mp hn with rfl | hn
    · exact .inr rfl
    · exact .inl (hr n hn)
  | failed taken err =>
    have hr : r.Kept := hs.kept (by rw [unclean, taken])
    exact ⟨fun _ n hn => held_of_collect_error rfl err hr hl hn, nofun⟩
  | @drained envelope io taken =>
    have hr : r.Kept := hs.kept (by rw [unclean, taken])
    refine ⟨fun _ n hn => ?_, nofun⟩
    cases hres : (r.sink.collect (r.loop.next, envelope) io).result with
    | ok _ => exact held_of_collect_ok rfl rfl hres (.inl (hr n hn))
    | error error => exact held_of_collect_error rfl hres hr hl hn
  | @idleFlush io idle =>
    have hr : r.Kept := hs.kept (by rw [unclean, idle])
    refine ⟨fun _ n hn => ?_, nofun⟩
    cases hres : (r.sink.drain io).result with
    | ok _ => exact held_of_drain_ok rfl hres (hr n hn)
    | error error =>
      obtain ⟨-, -, hio⟩ := BatchedSink.drain_error hres
      refine .inl (List.mem_append.mpr (.inr (held_of_lossFree hr hl hn fun _ => ⟨?_, ?_⟩)))
      · show io.write ≠ .ok ()
        rw [hio]
        exact nofun
      · simp only [atStake, idle]
  | @finalFlush io pc =>
    have hr : r.Kept := hs.kept (by rw [unclean, pc])
    refine ⟨fun hu n hn => ?_, fun _ => BatchedSink.flush_buffered⟩
    -- a flush that failed shows in the result
    cases hres : (r.sink.flush io).result with
    | ok _ => exact held_of_drain_ok rfl (BatchedSink.flush_ok hres) (hr n hn)
    | error error =>
      simp only [unclean, called, hres] at hu
      cases hu
  | @close flushed io pc =>
    refine ⟨fun hu n hn => ?_, fun _ => BatchedSink.close_buffered⟩
    cases flushed with
    | error error =>
      simp only [unclean, called, SinkLoop.outcome] at hu
      cases hu
    | ok _ =>
      have hr : r.Kept := hs.kept (by rw [unclean, pc])
      have hb : r.sink.buffered = [] := hs.flushed (by rw [SinkLoop.finishing, pc])
      have hw : (r.sink.close io).written = (r.sink.drain io).written := BatchedSink.close_written
      exact held_of_drain_ok (by rw [← hw]; rfl) (BatchedSink.drain_of_nil hb).1 (hr n hn)

/-- The calls of the sink give the loop its answers: a run is a run of the loop. -/
theorem reaches_loop (h : runSinkLoop setup events = some r) :
    Lib.Reaches SinkLoop.step (start setup).loop r.loop := by
  refine Lib.exec_invariant (P := fun r => Lib.Reaches SinkLoop.step (start setup).loop r.loop) ?_ h
    .refl
  intro r e t hr hstep
  cases Move.of_step hstep with
  | loop quiet fired => exact hr.tail fired
  | @counted _ io taken ok =>
    refine hr.tail (e := .collect (.ok ())) ?_
    simp only [SinkLoop.step, taken, called]
  | @failed _ io error taken err =>
    refine hr.tail (e := .collect (.error error)) ?_
    simp only [SinkLoop.step, taken, called]
  | @drained _ io taken =>
    refine hr.tail (e := .collect (.ok ())) ?_
    simp only [SinkLoop.step, taken, called]
  | @idleFlush io idle =>
    refine hr.tail (e := .flush (r.sink.flush io).result) ?_
    simp only [SinkLoop.step, idle, called]
  | @finalFlush io flushing =>
    refine hr.tail (e := .flush (r.sink.flush io).result) ?_
    simp only [SinkLoop.step, flushing, called]
  | @close _ io closing =>
    refine hr.tail (e := .finish (r.sink.close io).result) ?_
    simp only [SinkLoop.step, closing, called]

theorem safe_start : (start setup).Safe := ⟨fun _ => nofun, nofun⟩

/-- `counted` lists the envelopes behind the `processed` counter, each once. -/
theorem length_counted (h : runSinkLoop setup events = some r) :
    r.counted.Nodup ∧ r.counted.length = r.loop.metrics.processed := by
  refine ⟨(Lib.exec_invariant (fun s e t hi hs => (Move.of_step hs).numbered hi) h
    numbered_start).nodup, ?_⟩
  refine Lib.exec_invariant (P := fun r => r.counted.length = r.loop.metrics.processed) ?_ h rfl
  intro r e t hr hstep
  cases Move.of_step hstep with
  | loop quiet fired => rw [(SinkLoop.step_frame quiet fired).2.1, hr]
  | counted => exact congrArg (· + 1) hr
  | failed | drained | idleFlush | finalFlush | close => exact hr

/-- A run that returns `Ok` has every envelope it counted in a batch whose write succeeded, exactly
when each write before the final flush succeeds or takes no counted envelope along. -/
theorem counted_written (h : runSinkLoop setup events = some r)
    (hok : r.loop.pc = .exited (.ok ())) :
    (∀ n ∈ r.counted, n ∈ r.written) ↔ Lib.StepsMeet step LossFree (start setup) events := by
  constructor
  · intro hall
    have hback := Lib.StepsMeet.of_final (I := Numbered) (G := Kept) (C := LossFree)
      (fun s e t hi hs => (Move.of_step hs).numbered hi)
      (fun s e t hi hs ht => ⟨(Move.of_step hs).kept_back hi ht, (Move.of_step hs).lossFree_of_kept hi ht⟩)
      h numbered_start fun n hn => .inl (hall n hn)
    exact hback.2
  · intro hc n hn
    have hs : r.Safe :=
      Lib.exec_invariant_where (fun s e t hs hl ht => (Move.of_step ht).safe hl hs) h hc safe_start
    have hb : r.sink.buffered = [] := hs.flushed (by rw [SinkLoop.finishing, hok])
    rcases hs.kept (by rw [unclean, hok]) n hn with hw | hbuf
    · exact hw
    · rw [buffered, hb] at hbuf
      cases hbuf

/-- An HTTP sink with batches of two. -/
def httpPairs : SinkSetup where
  capacity := 4
  sink := ⟨.http, "out", ⟨some 2, none⟩, .batching ⟨[], 2, Nat.two_pos⟩⟩
  initialized := ⟨.http, "out", ⟨some 2, none⟩, .ok (), rfl⟩

def reading (id : String) : RuntimeEnvelope := .new id 0 "sensor" []

/-- Two envelopes arrive and are collected; the second fills the batch, which `io` answers. Then the
input ends. -/
def twoCollected (io : IoAnswers) : List SinkRunEvent :=
  let ok : IoAnswers := ⟨.ok (), .ok ()⟩
  [.loop (.arrive (reading "m1")), .loop .recv, .collect ok,
    .loop (.arrive (reading "m2")), .loop .recv, .collect io,
    .loop .close, .loop .recv, .loop .tryRecv, .flush ok, .close ok]

theorem counted_written_pair :
    ∃ r, runSinkLoop httpPairs (twoCollected ⟨.ok (), .ok ()⟩) = some r ∧
      r.loop.pc = .exited (.ok ()) ∧ r.counted = [2, 1] ∧
      ((∀ n ∈ r.counted, n ∈ r.written) ↔
        Lib.StepsMeet step LossFree (start httpPairs) (twoCollected ⟨.ok (), .ok ()⟩)) := by
  have hr : ∃ r, runSinkLoop httpPairs (twoCollected ⟨.ok (), .ok ()⟩) = some r ∧
      r.loop.pc = .exited (.ok ()) ∧ r.counted = [2, 1] := ⟨_, rfl, rfl, rfl⟩
  obtain ⟨r, h, hok, hc⟩ := hr
  exact ⟨r, h, hok, hc, counted_written h hok⟩

/-- The first envelope is counted when it is buffered. The batch it is in fails in the middle of the
run, and the loop still returns `Ok`. -/
theorem counted_but_lost :
    ∃ r, runSinkLoop httpPairs (twoCollected ⟨.error "HTTP batch request failed with status: 500", .ok ()⟩)
        = some r ∧
      r.loop.pc = .exited (.ok ()) ∧ r.loop.metrics.processed = 1 ∧ r.counted = [1] ∧ r.written = [] :=
  ⟨_, rfl, rfl, rfl, rfl, rfl⟩

end SinkRun

end Wafer
