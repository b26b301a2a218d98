import Mathlib.Data.List.Basic

/-!
# Runtime envelopes

The host-side message that flows through the queues. `Arc`, `Box` and `Bytes`
only share storage in the source, so they are plain values here; `u32` and
`u64` fields are natural numbers.
-/

namespace Wafer

inductive BurstPhase
  | before
  | burst
  | after
  deriving DecidableEq, Repr

structure BurstStamps where
  phase : BurstPhase
  measurementStartUnixNs : Option Nat
  deriving DecidableEq, Repr

/-- Sequence and timing data a bench source attaches for the bench sink. -/
structure BenchStamps where
  sequence : Nat
  intendedNs : Nat
  emitNs : Nat
  warmup : Bool
  measurementStartSeq : Nat
  sequenceEnd : Option Nat
  burst : Option BurstStamps
  deriving DecidableEq, Repr

structure EnvelopeHeader where
  id : String
  timestamp : Nat
  source : String
  contentType : String
  metadata : List (String × String)
  bench : Option BenchStamps
  deriving DecidableEq, Repr

structure Lineage where
  parentId : Option String := none
  traceId : Option String := none
  deriving DecidableEq, Repr

structure RuntimeEnvelope where
  header : EnvelopeHeader
  payload : List UInt8
  lineage : Lineage
  retryCount : Nat
  deriving DecidableEq, Repr

/-- The `output-message` record a transform guest returns. -/
structure OutputMessage where
  id : String
  timestamp : Nat
  source : String
  contentType : String
  metadata : List (String × String)
  payload : List UInt8
  deriving DecidableEq, Repr

namespace RuntimeEnvelope

/-- A fresh envelope; `id` stands for the generated UUID and `timestamp` for the clock. -/
def new (id : String) (timestamp : Nat) (source : String) (payload : List UInt8) :
    RuntimeEnvelope where
  header := ⟨id, timestamp, source, "application/octet-stream", [], none⟩
  payload := payload
  lineage := {}
  retryCount := 0

/-- The output of a transform guest: header strings and payload are the guest's, lineage and
bench stamps come from the input, and the retry count starts over. -/
def fromGuestOutput (input : RuntimeEnvelope) (output : OutputMessage) : RuntimeEnvelope where
  header := ⟨output.id, output.timestamp, output.source, output.contentType, output.metadata,
    input.header.bench⟩
  payload := output.payload
  lineage := input.lineage
  retryCount := 0

/-- Assign a trace id (`uuid` stands for the generated one) unless there is one. -/
def ensureTraceId (envelope : RuntimeEnvelope) (uuid : String) : RuntimeEnvelope :=
  match envelope.lineage.traceId with
  | some _ => envelope
  | none => { envelope with lineage := { envelope.lineage with traceId := some uuid } }

def setParentId (envelope : RuntimeEnvelope) (parentId : String) : RuntimeEnvelope :=
  { envelope with lineage := { envelope.lineage with parentId := some parentId } }

@[simp] theorem fromGuestOutput_retryCount (input : RuntimeEnvelope) (output : OutputMessage) :
    (fromGuestOutput input output).retryCount = 0 := rfl

@[simp] theorem new_retryCount (id : String) (timestamp : Nat) (source : String)
    (payload : List UInt8) : (new id timestamp source payload).retryCount = 0 := rfl

@[simp] theorem ensureTraceId_retryCount (envelope : RuntimeEnvelope) (uuid : String) :
    (envelope.ensureTraceId uuid).retryCount = envelope.retryCount := by
  unfold ensureTraceId
  split <;> rfl

@[simp] theorem setParentId_retryCount (envelope : RuntimeEnvelope) (parentId : String) :
    (envelope.setParentId parentId).retryCount = envelope.retryCount := rfl

end RuntimeEnvelope

end Wafer
