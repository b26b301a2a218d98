import Wafer.Node.Metrics
import Wafer.Node.Wasm
import Wafer.Runner.Progress

/-!
# The source loop

`run_source_loop`: poll the adapter, send what it yields, back off after a poll
error, and give up after twenty errors in a row.
-/

namespace Wafer

/-- What an adapter polls: adapters build their envelopes fresh. -/
structure SourceItem where
  envelope : RuntimeEnvelope
  fresh : envelope.retryCount = 0

/-- Answer of `poll()`, with the UUID `ensure_trace_id` generates. -/
inductive PollAnswer
  | item (item : SourceItem) (uuid : String)
  | eof
  | error (message : String)

def maxConsecutivePollErrors : Nat := 20

def pollErrorBackoffMinMs : Nat := 1

def pollErrorBackoffMaxMs : Nat := 1000

/-- Delay before the next poll, in nanoseconds. -/
def pollErrorBackoff (consecutiveErrors : Nat) : Nat :=
  let doublings := min (consecutiveErrors - 1) 16
  min (pollErrorBackoffMinMs * 2 ^ doublings) pollErrorBackoffMaxMs * nsPerMs

inductive SourcePc
  | polling
  | backoff (until_ : Nat)
  | sending (envelope : RuntimeEnvelope)
  /-- after `break`, before `close()` -/
  | closing (outcome : Except WaferError Unit)
  | exited (outcome : Except WaferError Unit)

structure SourceLoop where
  nodeId : String
  pc : SourcePc := .polling
  consecutiveErrors : Nat := 0
  metrics : NodeMetrics := {}
  cancelled : Bool := false
  now : Nat := 0
  /-- what was sent on so far, newest first -/
  forwarded : List RuntimeEnvelope := []

inductive SourceEvent
  | cancel
  | tick (ns : Nat)
  | poll (answer : PollAnswer)
  | wake
  /-- the cancellation branch of a `select!` -/
  | stop
  | sent
  | closed

namespace SourceLoop

def sourceStopped (nodeId : String) (errors : Nat) (message : String) : WaferError :=
  .runtime ("source '" ++ nodeId ++ "' stopped after " ++ errors.repr ++
    " consecutive poll errors: " ++ message)

def polled (l : SourceLoop) : PollAnswer → SourceLoop
  | .item item uuid =>
    let envelope := item.envelope.ensureTraceId uuid
    { l with
      consecutiveErrors := 0, metrics := l.metrics.recordProcessed, pc := .sending envelope
      forwarded := envelope :: l.forwarded }
  | .eof => { l with pc := .closing (.ok ()) }
  | .error message =>
    let errors := min (l.consecutiveErrors+1) u32Max
    let l := { l with metrics := l.metrics.recordFailed, consecutiveErrors := errors }
    if maxConsecutivePollErrors ≤ errors then
      { l with pc := .closing (.error (sourceStopped l.nodeId errors message)) }
    else { l with pc := .backoff (l.now + pollErrorBackoff errors) }

def step (l : SourceLoop) : SourceEvent → Option SourceLoop
  | .cancel => some { l with cancelled := true }
  | .tick ns => some { l with now := l.now+ns }
  | .poll answer =>
    match l.pc with
    | .polling => some (l.polled answer)
    | _ => none
  | .wake =>
    match l.pc with
    | .backoff until_ => if until_ ≤ l.now then some { l with pc := .polling } else none
    | _ => none
  | .stop =>
    match l.pc with
    | .polling | .backoff _ => if l.cancelled then some { l with pc := .closing (.ok ()) } else none
    | _ => none
  | .sent =>
    match l.pc with
    | .sending _ => some { l with pc := .polling }
    | _ => none
  | .closed =>
    match l.pc with
    | .closing outcome => some { l with pc := .exited outcome }
    | _ => none

/-- A source only sends fresh envelopes on. -/
def Fresh (l : SourceLoop) : Prop :=
  (∀ envelope ∈ l.forwarded, envelope.retryCount = 0) ∧
    ∀ envelope, l.pc = .sending envelope → envelope.retryCount = 0

theorem Fresh.step {l l' : SourceLoop} {e : SourceEvent} (hf : l.Fresh)
    (h : l.step e = some l') : l'.Fresh := by
  obtain ⟨hall, hsend⟩ := hf
  cases e with
  | cancel | tick =>
    obtain rfl := Option.some.inj h
    exact ⟨hall, hsend⟩
  | poll answer =>
    simp only [SourceLoop.step] at h
    split at h
    · obtain rfl := Option.some.inj h
      cases answer with
      | item item uuid =>
        have h0 : (item.envelope.ensureTraceId uuid).retryCount = 0 := by simp [item.fresh]
        refine ⟨fun envelope hm => ?_, fun envelope he => ?_⟩
        · rcases List.mem_cons.mp hm with rfl | hm
          · exact h0
          · exact hall envelope hm
        · obtain rfl := SourcePc.sending.inj he
          exact h0
      | eof => exact ⟨hall, fun _ he => nomatch he⟩
      | error message =>
        unfold polled
        dsimp only
        split <;> exact ⟨hall, fun _ he => nomatch he⟩
    · exact absurd h nofun
  | wake | stop | sent | closed =>
    simp only [SourceLoop.step] at h
    repeat' split at h
    all_goals first
      | (obtain rfl := Option.some.inj h; exact ⟨hall, fun _ he => nomatch he⟩)
      | exact absurd h nofun

theorem forwarded_mono {l l' : SourceLoop} {e : SourceEvent} (h : l.step e = some l') :
    l.forwarded ⊆ l'.forwarded := by
  cases e with
  | poll answer =>
    simp only [SourceLoop.step] at h
    split at h
    · obtain rfl := Option.some.inj h
      cases answer with
      | item => exact List.subset_cons_self ..
      | eof => exact List.Subset.refl _
      | error message =>
        unfold polled
        dsimp only
        split <;> exact List.Subset.refl _
    · exact absurd h nofun
  | cancel | tick =>
    obtain rfl := Option.some.inj h
    exact List.Subset.refl _
  | wake | stop | sent | closed =>
    simp only [SourceLoop.step] at h
    repeat' split at h
    all_goals first
      | (obtain rfl := Option.some.inj h; exact List.Subset.refl _)
      | exact absurd h nofun

end SourceLoop

end Wafer
