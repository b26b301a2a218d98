import Mathlib.Logic.Function.Basic
import Mathlib.Algebra.BigOperators.Group.List.Basic
import Mathlib.Algebra.Ring.Nat
import Wafer.Runner.ProcessError

/-!
# Node and queue counters

The atomic counters of a node and of a queue. A counter is a natural number:
the `u64` wrap-around is out of reach of any run.
-/

namespace Wafer

structure QueueMetrics where
  enqueued : Nat := 0
  dequeued : Nat := 0
  dropped : Nat := 0
  deadLettered : Nat := 0
  downstreamClosed : Nat := 0
  dlqFull : Nat := 0
  dlqClosed : Nat := 0
  deriving DecidableEq, Repr

namespace QueueMetrics

def recordEnqueued (m : QueueMetrics) : QueueMetrics := { m with enqueued := m.enqueued+1 }
def recordDequeued (m : QueueMetrics) : QueueMetrics := { m with dequeued := m.dequeued+1 }
def recordDropped (m : QueueMetrics) : QueueMetrics := { m with dropped := m.dropped+1 }
def recordDeadLettered (m : QueueMetrics) : QueueMetrics :=
  { m with deadLettered := m.deadLettered+1 }
def recordDownstreamClosed (m : QueueMetrics) : QueueMetrics :=
  { m with downstreamClosed := m.downstreamClosed+1 }
def recordDlqFull (m : QueueMetrics) : QueueMetrics := { m with dlqFull := m.dlqFull+1 }
def recordDlqClosed (m : QueueMetrics) : QueueMetrics := { m with dlqClosed := m.dlqClosed+1 }

/-- The depth a snapshot reports: the subtraction saturates. -/
def depth (m : QueueMetrics) : Nat := m.enqueued - m.dequeued

/-- Why a message did not get into a queue. -/
inductive Refusal
  | dropped
  | deadLettered
  | downstreamClosed
  | dlqFull
  | dlqClosed
  deriving DecidableEq, Repr

def recordRefusal (m : QueueMetrics) : Refusal → QueueMetrics
  | .dropped => m.recordDropped
  | .deadLettered => m.recordDeadLettered
  | .downstreamClosed => m.recordDownstreamClosed
  | .dlqFull => m.recordDlqFull
  | .dlqClosed => m.recordDlqClosed

@[simp] theorem enqueued_recordRefusal (m : QueueMetrics) (r : Refusal) :
    (m.recordRefusal r).enqueued = m.enqueued := by cases r <;> rfl

@[simp] theorem dequeued_recordRefusal (m : QueueMetrics) (r : Refusal) :
    (m.recordRefusal r).dequeued = m.dequeued := by cases r <;> rfl

end QueueMetrics

structure NodeMetrics where
  processed : Nat := 0
  filteredOut : Nat := 0
  attemptsFailed : Nat := 0
  traps : TrapKind → Nat := fun _ => 0
  guestErrors : ErrorCategory → Nat := fun _ => 0
  retries : Nat := 0
  dlqSent : Nat := 0
  dlqLost : Nat := 0
  skipped : Nat := 0
  exhaustedSkips : Nat := 0
  droppedOnRecovery : Nat := 0
  droppedOnTeardown : Nat := 0
  swaps : Nat := 0
  recoveryCount : Nat := 0
  rollbacks : Nat := 0

namespace NodeMetrics

def recordProcessed (m : NodeMetrics) : NodeMetrics := { m with processed := m.processed+1 }
def recordFilteredOut (m : NodeMetrics) : NodeMetrics := { m with filteredOut := m.filteredOut+1 }
def recordFailed (m : NodeMetrics) : NodeMetrics := { m with attemptsFailed := m.attemptsFailed+1 }

def recordError (m : NodeMetrics) (error : WasmProcessError) : NodeMetrics :=
  let m := m.recordFailed
  match error.trapKind with
  | some kind => { m with traps := Function.update m.traps kind (m.traps kind + 1) }
  | none =>
    match error.guestCategory with
    | some category =>
      { m with guestErrors := Function.update m.guestErrors category (m.guestErrors category + 1) }
    | none => m

def recordRetry (m : NodeMetrics) : NodeMetrics := { m with retries := m.retries+1 }
def recordDlqSent (m : NodeMetrics) : NodeMetrics := { m with dlqSent := m.dlqSent+1 }
def recordDlqLost (m : NodeMetrics) : NodeMetrics := { m with dlqLost := m.dlqLost+1 }
def recordSkipped (m : NodeMetrics) : NodeMetrics := { m with skipped := m.skipped+1 }
def recordDroppedOnRecovery (m : NodeMetrics) : NodeMetrics :=
  { m with droppedOnRecovery := m.droppedOnRecovery+1 }
def recordDroppedOnTeardown (m : NodeMetrics) : NodeMetrics :=
  { m with droppedOnTeardown := m.droppedOnTeardown+1 }
def recordExhaustedSkip (m : NodeMetrics) : NodeMetrics :=
  { m with exhaustedSkips := m.exhaustedSkips+1 }
def recordSwap (m : NodeMetrics) : NodeMetrics := { m with swaps := m.swaps+1 }
def recordRollback (m : NodeMetrics) : NodeMetrics := { m with rollbacks := m.rollbacks+1 }
def recordRecovery (m : NodeMetrics) : NodeMetrics := { m with recoveryCount := m.recoveryCount+1 }

def trapsTotal (m : NodeMetrics) : Nat := (TrapKind.all.map m.traps).sum
def guestErrorsTotal (m : NodeMetrics) : Nat := (ErrorCategory.all.map m.guestErrors).sum

/-- The envelopes whose fate is decided: one terminal counter for each. -/
def settled (m : NodeMetrics) : Nat :=
  m.processed + m.filteredOut + m.skipped + m.exhaustedSkips + m.dlqSent + m.dlqLost +
    m.droppedOnRecovery + m.droppedOnTeardown

/-- The guest calls that have returned, by outcome. -/
def answered (m : NodeMetrics) : Nat := m.processed + m.filteredOut + m.attemptsFailed

section Counting

variable (m : NodeMetrics) (error : WasmProcessError)

@[simp] theorem settled_recordProcessed : m.recordProcessed.settled = m.settled+1 := by
  simp only [settled, recordProcessed]; omega

@[simp] theorem settled_recordFilteredOut : m.recordFilteredOut.settled = m.settled+1 := by
  simp only [settled, recordFilteredOut]; omega

@[simp] theorem settled_recordSkipped : m.recordSkipped.settled = m.settled+1 := by
  simp only [settled, recordSkipped]; omega

@[simp] theorem settled_recordExhaustedSkip : m.recordExhaustedSkip.settled = m.settled+1 := by
  simp only [settled, recordExhaustedSkip]; omega

@[simp] theorem settled_recordDlqSent : m.recordDlqSent.settled = m.settled+1 := by
  simp only [settled, recordDlqSent]; omega

@[simp] theorem settled_recordDlqLost : m.recordDlqLost.settled = m.settled+1 := by
  simp only [settled, recordDlqLost]; omega

@[simp] theorem settled_recordDroppedOnRecovery :
    m.recordDroppedOnRecovery.settled = m.settled+1 := by
  simp only [settled, recordDroppedOnRecovery]; omega

@[simp] theorem settled_recordDroppedOnTeardown :
    m.recordDroppedOnTeardown.settled = m.settled+1 := by
  simp only [settled, recordDroppedOnTeardown]; omega

@[simp] theorem settled_recordRetry : m.recordRetry.settled = m.settled := rfl
@[simp] theorem settled_recordSwap : m.recordSwap.settled = m.settled := rfl
@[simp] theorem settled_recordRollback : m.recordRollback.settled = m.settled := rfl
@[simp] theorem settled_recordRecovery : m.recordRecovery.settled = m.settled := rfl

@[simp] theorem settled_recordError : (m.recordError error).settled = m.settled := by
  unfold recordError
  dsimp only
  split
  · rfl
  · split <;> rfl

@[simp] theorem answered_recordProcessed : m.recordProcessed.answered = m.answered+1 := by
  simp only [answered, recordProcessed]; omega

@[simp] theorem answered_recordFilteredOut : m.recordFilteredOut.answered = m.answered+1 := by
  simp only [answered, recordFilteredOut]; omega

@[simp] theorem attemptsFailed_recordError :
    (m.recordError error).attemptsFailed = m.attemptsFailed+1 := by
  unfold recordError
  dsimp only
  split
  · rfl
  · split <;> rfl

@[simp] theorem answered_recordError : (m.recordError error).answered = m.answered+1 := by
  have hp : (m.recordError error).processed = m.processed ∧
      (m.recordError error).filteredOut = m.filteredOut := by
    unfold recordError
    dsimp only
    split
    · exact ⟨rfl, rfl⟩
    · split <;> exact ⟨rfl, rfl⟩
  simp only [answered, hp.1, hp.2, attemptsFailed_recordError]
  omega

/-- Bumping one entry of a per-kind table raises the sum over a duplicate-free list by one. -/
theorem sum_map_update {κ : Type*} [DecidableEq κ] (f : κ → Nat) (k : κ) :
    ∀ l : List κ, l.Nodup → k ∈ l →
      (l.map (Function.update f k (f k + 1))).sum = (l.map f).sum + 1 := by
  intro l
  induction l with
  | nil => intro _ hk; exact absurd hk List.not_mem_nil
  | cons a l ih =>
    intro hn hk
    obtain ⟨ha, hl⟩ := List.nodup_cons.mp hn
    rcases eq_or_ne a k with rfl | hak
    · have hrest : l.map (Function.update f a (f a + 1)) = l.map f :=
        List.map_congr_left fun b hb => Function.update_of_ne (fun h : b = a => ha (h ▸ hb)) _ _
      simp only [List.map_cons, List.sum_cons, Function.update_self, hrest]
      omega
    · have hkl : k ∈ l := (List.mem_cons.mp hk).resolve_left (Ne.symm hak)
      simp only [List.map_cons, List.sum_cons, Function.update_of_ne hak, ih hl hkl]
      omega

/-- A failed call is one trap or one guest error. -/
theorem failures_recordError :
    (m.recordError error).trapsTotal + (m.recordError error).guestErrorsTotal =
      m.trapsTotal + m.guestErrorsTotal + 1 := by
  unfold recordError
  dsimp only
  cases ht : error.trapKind with
  | some kind =>
    have hs := sum_map_update m.traps kind TrapKind.all (by decide) (by cases kind <;> decide)
    simp only [trapsTotal, guestErrorsTotal, recordFailed, hs]
    omega
  | none =>
    cases hc : error.guestCategory with
    | some category =>
      have hs := sum_map_update m.guestErrors category ErrorCategory.all (by decide)
        (by cases category <;> decide)
      simp only [trapsTotal, guestErrorsTotal, recordFailed, hs]
      omega
    | none =>
      have := (error.trapKind_isSome_iff).mpr hc
      simp [ht] at this

end Counting

/-- The counters of guest calls are the same on both sides. -/
structure CallsUnchanged (m m' : NodeMetrics) : Prop where
  processed : m'.processed = m.processed
  filteredOut : m'.filteredOut = m.filteredOut
  attemptsFailed : m'.attemptsFailed = m.attemptsFailed
  traps : m'.traps = m.traps
  guestErrors : m'.guestErrors = m.guestErrors

namespace CallsUnchanged

variable {m m' m'' : NodeMetrics}

theorem refl (m : NodeMetrics) : CallsUnchanged m m := ⟨rfl, rfl, rfl, rfl, rfl⟩

theorem trans (h : CallsUnchanged m m') (h' : CallsUnchanged m' m'') : CallsUnchanged m m'' where
  processed := h'.processed.trans h.processed
  filteredOut := h'.filteredOut.trans h.filteredOut
  attemptsFailed := h'.attemptsFailed.trans h.attemptsFailed
  traps := h'.traps.trans h.traps
  guestErrors := h'.guestErrors.trans h.guestErrors

theorem answered (h : CallsUnchanged m m') : m'.answered = m.answered := by
  simp only [NodeMetrics.answered, h.processed, h.filteredOut, h.attemptsFailed]

theorem failures (h : CallsUnchanged m m') :
    m'.trapsTotal + m'.guestErrorsTotal = m.trapsTotal + m.guestErrorsTotal := by
  simp only [trapsTotal, guestErrorsTotal, h.traps, h.guestErrors]

end CallsUnchanged

/-- Every failed attempt is counted under the trap or the guest error that ended it. -/
def Balanced (m : NodeMetrics) : Prop := m.attemptsFailed = m.trapsTotal + m.guestErrorsTotal

theorem Balanced.of_unchanged {m m' : NodeMetrics} (h : CallsUnchanged m m') (hb : m.Balanced) :
    m'.Balanced := by
  rw [Balanced, h.attemptsFailed, h.failures]
  exact hb

theorem Balanced.recordError {m : NodeMetrics} (hb : m.Balanced) (error : WasmProcessError) :
    (m.recordError error).Balanced := by
  rw [Balanced, attemptsFailed_recordError, failures_recordError, hb]

end NodeMetrics

end Wafer
