import Mathlib.Data.List.Basic

/-!
# Batched sinks

`BatchBuffer` and the file, HTTP and MQTT sinks over it. The sinks share one
shape: a full buffer is written by `collect`, what is left by `flush` and
`close`. A batch write is all or error. The sink looks at an envelope only to
write it, so the envelopes are values of an arbitrary type.

## Main definitions

- `BatchBuffer` — `push` and `take`
- `BatchedSink` — `init`, `collect`, `flush`, `close`
- `SinkCall` — what a call returned, and the batch it wrote
-/

namespace Wafer

/-- The envelopes waiting for a batch. A full buffer is handed out at once, so there is room. -/
structure BatchBuffer (α : Type) where
  buffer : List α
  batchSize : Nat
  room : buffer.length < batchSize

namespace BatchBuffer

variable {α : Type}

/-- `new()` panics where the batch size is zero. -/
def new (batchSize : Nat) : Option (BatchBuffer α) :=
  if h : 0 < batchSize then some ⟨[], batchSize, h⟩ else none

def take (b : BatchBuffer α) : List α × BatchBuffer α :=
  (b.buffer, ⟨[], b.batchSize, Nat.zero_lt_of_lt b.room⟩)

def push (b : BatchBuffer α) (item : α) : Option (List α) × BatchBuffer α :=
  if h : (b.buffer ++ [item]).length < b.batchSize then (none, ⟨b.buffer ++ [item], b.batchSize, h⟩)
  else (some (b.buffer ++ [item]), b.take.2)

/-- The next `push` fills the batch. -/
def fills (b : BatchBuffer α) : Bool := b.batchSize ≤ b.buffer.length+1

theorem push_of_fills {b : BatchBuffer α} (h : b.fills = true) (item : α) :
    b.push item = (some (b.buffer ++ [item]), b.take.2) := by
  have hl : ¬ (b.buffer ++ [item]).length < b.batchSize := by
    simp only [fills, decide_eq_true_eq] at h
    rw [List.length_append, List.length_singleton]
    omega
  exact dif_neg hl

theorem push_of_not_fills {b : BatchBuffer α} (h : b.fills = false) (item : α) :
    (b.push item).1 = none ∧ (b.push item).2.buffer = b.buffer ++ [item] := by
  have hl : (b.buffer ++ [item]).length < b.batchSize := by
    simp only [fills, decide_eq_false_iff_not] at h
    rw [List.length_append, List.length_singleton]
    omega
  rw [push, dif_pos hl]
  exact ⟨rfl, rfl⟩

end BatchBuffer

inductive SinkKind
  | file
  | http
  | mqtt
  deriving DecidableEq, Repr

structure SinkBatchConfig where
  batchSize : Option Nat := none
  batchTimeoutMs : Option Nat := none
  deriving DecidableEq, Repr

/-- The writer or client of a sink and its batch buffer: `init` sets both, `close` drops both, so
there is no buffer without a writer. -/
inductive SinkIo (α : Type)
  | closed
  | unbatched
  | batching (batchBuffer : BatchBuffer α)

structure BatchedSink (α : Type) where
  kind : SinkKind
  id : String
  batchConfig : SinkBatchConfig
  io : SinkIo α

/-- What the outside answers during one call: a batch write, and the file writer's own `flush()`. -/
structure IoAnswers where
  write : Except String Unit
  writerFlush : Except String Unit

/-- A call of a sink: its result, the sink afterwards, and the batch whose write succeeded. -/
structure SinkCall (α : Type) where
  result : Except String Unit
  sink : BatchedSink α
  written : List α

/-- The batch, if its write succeeded. -/
def wrote {α : Type} (batch : List α) : Except String Unit → List α
  | .ok () => batch
  | .error _ => []

namespace BatchedSink

variable {α : Type}

/-- `new` and `with_batching`. -/
def withBatching (kind : SinkKind) (id : String) (batchConfig : SinkBatchConfig) : BatchedSink α :=
  ⟨kind, id, batchConfig, .closed⟩

def notInitialized (s : BatchedSink α) : String :=
  let name := match s.kind with
    | .file => "FileSink"
    | .http => "HttpSink"
    | .mqtt => "MqttSink"
  "plugin initialization failed: " ++ name ++ " not initialized - call init() first"

/-- The buffered envelopes, oldest first. -/
def buffered (s : BatchedSink α) : List α :=
  match s.io with
  | .batching batchBuffer => batchBuffer.buffer
  | _ => []

/-- The next `collect` fills a batch. -/
def fills (s : BatchedSink α) : Bool :=
  match s.io with
  | .batching batchBuffer => batchBuffer.fills
  | _ => false

def batchTimeout (s : BatchedSink α) : Option Nat :=
  s.batchConfig.batchSize.map fun _ => s.batchConfig.batchTimeoutMs.getD 1000

/-- `init`; `created` answers the creation of the file or the client, which an MQTT sink does not
ask. `none` where it panics. -/
def init (s : BatchedSink α) (created : Except String Unit) :
    Option (Except String Unit × BatchedSink α) :=
  match s.kind, created with
  | .file, .error e | .http, .error e => some (.error e, s)
  | _, _ =>
    match s.batchConfig.batchSize with
    | none => some (.ok (), { s with io := .unbatched })
    | some batchSize =>
      (BatchBuffer.new batchSize).map fun batchBuffer => (.ok (), { s with io := .batching batchBuffer })

def collect (s : BatchedSink α) (item : α) (io : IoAnswers) : SinkCall α :=
  match s.io with
  | .batching batchBuffer =>
    match batchBuffer.push item with
    | (some batch, rest) => ⟨io.write, { s with io := .batching rest }, wrote batch io.write⟩
    | (none, rest) => ⟨.ok (), { s with io := .batching rest }, []⟩
  | .unbatched => ⟨io.write, s, wrote [item] io.write⟩
  | .closed => ⟨.error s.notInitialized, s, []⟩

/-- Write what is buffered. The batch leaves the buffer before it is written. -/
def drain (s : BatchedSink α) (io : IoAnswers) : SinkCall α :=
  match s.io with
  | .batching batchBuffer =>
    match batchBuffer.take with
    | ([], rest) => ⟨.ok (), { s with io := .batching rest }, []⟩
    | (batch, rest) => ⟨io.write, { s with io := .batching rest }, wrote batch io.write⟩
  | _ => ⟨.ok (), s, []⟩

/-- The writer of a file has a buffer of its own. -/
def flushWriter (s : BatchedSink α) (io : IoAnswers) : Except String Unit :=
  match s.kind, s.io with
  | .file, .closed => .ok ()
  | .file, _ => io.writerFlush
  | _, _ => .ok ()

def flush (s : BatchedSink α) (io : IoAnswers) : SinkCall α :=
  let call := s.drain io
  { call with result := do call.result; call.sink.flushWriter io }

/-- As `flush`, then the writer or client goes. An MQTT client disconnects, whatever the answer. -/
def close (s : BatchedSink α) (io : IoAnswers) : SinkCall α :=
  let call := s.flush io
  match call.result with
  | .error _ => call
  | .ok () => { call with sink := { call.sink with io := .closed } }

/-- `init` leaves nothing in the buffer. -/
theorem init_buffered {s s' : BatchedSink α} {created result : Except String Unit}
    (hs : s.buffered = []) (h : s.init created = some (result, s')) : s'.buffered = [] := by
  simp only [init] at h
  split at h
  · obtain ⟨-, rfl⟩ := Prod.mk.inj (Option.some.inj h)
    exact hs
  · obtain ⟨-, rfl⟩ := Prod.mk.inj (Option.some.inj h)
    exact hs
  · split at h
    · obtain ⟨-, rfl⟩ := Prod.mk.inj (Option.some.inj h)
      rfl
    · obtain ⟨batchBuffer, hn, he⟩ := Option.map_eq_some_iff.mp h
      obtain ⟨-, rfl⟩ := Prod.mk.inj he
      simp only [BatchBuffer.new] at hn
      split at hn
      · obtain rfl := Option.some.inj hn
        rfl
      · cases hn

/-! ## What a call does with the buffered envelopes -/

section Calls

variable {s : BatchedSink α} {item : α} {io : IoAnswers} {e : String}

/-- A full batch leaves the buffer, whether its write succeeds or not. -/
theorem collect_of_fills (h : s.fills = true) :
    (s.collect item io).result = io.write ∧ (s.collect item io).sink.buffered = [] ∧
      (s.collect item io).written = wrote (s.buffered ++ [item]) io.write := by
  simp only [fills] at h
  split at h
  · next batchBuffer hio =>
    simp only [collect, buffered, hio, BatchBuffer.push_of_fills h, BatchBuffer.take, and_self]
  · cases h

/-- Otherwise nothing that was buffered leaves. -/
theorem collect_of_not_fills (h : s.fills = false) (hr : (s.collect item io).result = .ok ()) :
    (s.collect item io).sink.buffered ++ (s.collect item io).written = s.buffered ++ [item] := by
  simp only [fills] at h
  cases hio : s.io with
  | closed => simp only [collect, hio, reduceCtorEq] at hr
  | unbatched =>
    simp only [collect, hio] at hr ⊢
    simp only [buffered, hio, hr, wrote]
  | batching batchBuffer =>
    rw [hio] at h
    obtain ⟨hn, hb⟩ := BatchBuffer.push_of_not_fills h item
    simp only [collect, hio]
    split
    · next hp => simp only [hp, reduceCtorEq] at hn
    · next hp =>
      simp only [hp] at hb
      simp only [buffered, hio, hb, List.append_nil]

/-- A call that returns `Ok` has everything written or buffered. -/
theorem collect_ok (hr : (s.collect item io).result = .ok ()) :
    (s.collect item io).sink.buffered ++ (s.collect item io).written = s.buffered ++ [item] := by
  cases h : s.fills with
  | false => exact collect_of_not_fills h hr
  | true =>
    obtain ⟨hw, hb, hwr⟩ := @collect_of_fills _ s item io h
    rw [hb, hwr, ← hw, hr]
    rfl

/-- A call that fails leaves nothing in the buffer and writes nothing. -/
theorem collect_error (hr : (s.collect item io).result = .error e) :
    (s.collect item io).sink.buffered = [] ∧ (s.collect item io).written = [] := by
  cases h : s.fills with
  | true =>
    obtain ⟨hw, hb, hwr⟩ := @collect_of_fills _ s item io h
    exact ⟨hb, by rw [hwr, ← hw, hr]; rfl⟩
  | false =>
    simp only [fills] at h
    cases hio : s.io with
    | closed => simp only [collect, hio, buffered, and_self]
    | unbatched =>
      simp only [collect, hio] at hr ⊢
      simp only [buffered, hio, hr, wrote, and_self]
    | batching batchBuffer =>
      -- the buffer has room, so nothing is written and nothing can fail
      rw [hio] at h
      obtain ⟨hn, -⟩ := BatchBuffer.push_of_not_fills h item
      simp only [collect, hio] at hr
      split at hr
      · next hp => simp only [hp, reduceCtorEq] at hn
      · cases hr

/-- Only the write of a full batch can fail where something is buffered. -/
theorem collect_error_of_buffered (hr : (s.collect item io).result = .error e)
    (hb : s.buffered ≠ []) : s.fills = true ∧ io.write = .error e := by
  cases h : s.fills with
  | true => exact ⟨rfl, by rw [← hr, (collect_of_fills h).1]⟩
  | false =>
    simp only [fills] at h
    cases hio : s.io with
    | closed | unbatched => simp only [buffered, hio, ne_eq, not_true_eq_false] at hb
    | batching batchBuffer =>
      rw [hio] at h
      obtain ⟨hn, -⟩ := BatchBuffer.push_of_not_fills h item
      simp only [collect, hio] at hr
      split at hr
      · next hp => simp only [hp, reduceCtorEq] at hn
      · cases hr

/-- A call holds back or writes nothing but what was buffered and the new envelope. -/
theorem mem_collect {x : α}
    (h : x ∈ (s.collect item io).written ∨ x ∈ (s.collect item io).sink.buffered) :
    x ∈ s.buffered ∨ x = item := by
  rw [← List.mem_singleton, ← List.mem_append]
  cases hr : (s.collect item io).result with
  | ok _ =>
    rw [← collect_ok hr, List.mem_append]
    exact h.symm
  | error e =>
    obtain ⟨hb, hw⟩ := collect_error hr
    rw [hb, hw] at h
    rcases h with h | h <;> cases h

theorem collect_apart :
    (s.collect item io).sink.buffered = [] ∨ (s.collect item io).written = [] := by
  cases hio : s.io with
  | closed | unbatched =>
    left
    simp only [collect, hio, buffered]
  | batching batchBuffer =>
    cases h : s.fills with
    | true => exact .inl (collect_of_fills h).2.1
    | false =>
      right
      simp only [fills, hio] at h
      obtain ⟨hn, -⟩ := BatchBuffer.push_of_not_fills h item
      simp only [collect, hio]
      split
      · next hp => simp only [hp, reduceCtorEq] at hn
      · rfl

theorem drain_of_nil (h : s.buffered = []) :
    (s.drain io).result = .ok () ∧ (s.drain io).sink.buffered = [] ∧ (s.drain io).written = [] := by
  cases hio : s.io with
  | closed | unbatched => simp only [drain, hio, buffered, and_self]
  | batching batchBuffer =>
    simp only [buffered, hio] at h
    simp only [drain, hio, BatchBuffer.take, h, buffered, and_self]

theorem drain_of_ne_nil (h : s.buffered ≠ []) :
    (s.drain io).result = io.write ∧ (s.drain io).sink.buffered = [] ∧
      (s.drain io).written = wrote s.buffered io.write := by
  cases hio : s.io with
  | closed | unbatched => simp only [buffered, hio, ne_eq, not_true_eq_false] at h
  | batching batchBuffer =>
    simp only [buffered, hio] at h
    simp only [drain, hio, BatchBuffer.take, buffered, and_self]

@[simp] theorem drain_buffered : (s.drain io).sink.buffered = [] := by
  by_cases h : s.buffered = []
  · exact (drain_of_nil h).2.1
  · exact (drain_of_ne_nil h).2.1

theorem drain_ok (hr : (s.drain io).result = .ok ()) : (s.drain io).written = s.buffered := by
  by_cases h : s.buffered = []
  · rw [(drain_of_nil h).2.2, h]
  · obtain ⟨hw, -, hwr⟩ := @drain_of_ne_nil _ s io h
    rw [hwr, ← hw, hr]
    rfl

theorem drain_error (hr : (s.drain io).result = .error e) :
    (s.drain io).written = [] ∧ s.buffered ≠ [] ∧ io.write = .error e := by
  by_cases h : s.buffered = []
  · rw [(drain_of_nil h).1] at hr
    cases hr
  · obtain ⟨hw, -, hwr⟩ := @drain_of_ne_nil _ s io h
    rw [hw] at hr
    exact ⟨by rw [hwr, hr]; rfl, h, hr⟩

theorem mem_drain {x : α} (h : x ∈ (s.drain io).written) : x ∈ s.buffered := by
  cases hr : (s.drain io).result with
  | ok _ => rwa [← drain_ok hr]
  | error _ =>
    rw [(drain_error hr).1] at h
    cases h

theorem flush_ok (hr : (s.flush io).result = .ok ()) : (s.drain io).result = .ok () := by
  cases hd : (s.drain io).result with
  | ok _ => rfl
  | error _ =>
    simp only [flush, hd] at hr
    cases hr

@[simp] theorem flush_buffered : (s.flush io).sink.buffered = [] := drain_buffered

@[simp] theorem flush_written : (s.flush io).written = (s.drain io).written := rfl

@[simp] theorem close_buffered : (s.close io).sink.buffered = [] := by
  unfold close
  dsimp only
  split
  · exact flush_buffered
  · rfl

@[simp] theorem close_written : (s.close io).written = (s.drain io).written := by
  unfold close
  dsimp only
  split <;> rfl

end Calls

end BatchedSink

end Wafer
