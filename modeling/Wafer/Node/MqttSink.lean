import Wafer.Lib.Execution
import Wafer.Node.Sink
import Wafer.Queue.Envelope

/-!
# The MQTT sink and its event loop

`MqttSink` over a client of which `publish` and `disconnect` append to a
bounded queue of requests, and the task `spawn_eventloop_task`, which takes the
requests out in order and writes them. The broker is connected throughout. Each
step of the sink up to its next `await` is one transition, and the steps of the
event loop come in between.

## Main definitions

- `MqttSink.step` — the calls of the sink, the answers of the client, the event loop
- `MqttSink.Delivers` — the condition on a step under which nothing accepted is lost

## Main results

- `MqttSink.written_of_closed` — what is written when `close` has returned `Ok`
-/

namespace Wafer

/-- `AsyncClient::new(mqtt_options, 10)`. -/
def requestCapacity : Nat := 10

inductive QoS
  | atMostOnce
  | atLeastOnce
  | exactlyOnce
  deriving DecidableEq, Repr

def QoS.ofLevel : Nat → QoS
  | 0 => .atMostOnce
  | 1 => .atLeastOnce
  | _ => .exactlyOnce

structure MqttSinkConfig where
  id : String
  topic : String
  qos : Nat
  batchConfig : SinkBatchConfig

structure MqttPublish where
  topic : String
  qos : QoS
  retain : Bool
  payload : List UInt8
  deriving DecidableEq, Repr

inductive ClientRequest
  | publish (message : MqttPublish)
  | disconnect
  deriving DecidableEq, Repr

def MqttSinkConfig.message (cfg : MqttSinkConfig) (envelope : RuntimeEnvelope) : MqttPublish where
  topic := cfg.topic
  qos := .ofLevel cfg.qos
  retain := false
  payload := envelope.payload

def MqttSinkConfig.request (cfg : MqttSinkConfig) (envelope : RuntimeEnvelope) : ClientRequest :=
  .publish (cfg.message envelope)

/-- A call that waits for the client. -/
inductive MqttSinkCall
  | collect (envelope : RuntimeEnvelope)
  | flush
  | close

/-- The accepted envelopes of a batch that is still to be published; the last one of a batch that
`collect` has filled is not accepted yet. -/
def MqttSinkCall.owed (batch : List RuntimeEnvelope) : MqttSinkCall → List RuntimeEnvelope
  | .collect _ => batch.dropLast
  | .flush | .close => batch

/-- What is accepted when the call returns `Ok`. -/
def MqttSinkCall.offered : MqttSinkCall → List RuntimeEnvelope
  | .collect envelope => [envelope]
  | .flush | .close => []

inductive MqttSinkPc
  /-- between two calls -/
  | idle
  /-- in `publish_batch`, or in the one `publish` without batches -/
  | publishing (call : MqttSinkCall) (batch : List RuntimeEnvelope)
  | disconnecting
  /-- before `handle.abort()`, which nothing awaits -/
  | aborting

def MqttSinkPc.owed : MqttSinkPc → List RuntimeEnvelope
  | .publishing call batch => call.owed batch
  | _ => []

/-- The last envelope of a batch that `collect` has filled is its own. -/
def MqttSinkPc.Own : MqttSinkPc → Prop
  | .publishing (.collect envelope) batch => batch.getLast? = some envelope
  | _ => True

/-- The sink, its client and its event loop. -/
structure MqttSink where
  sink : BatchedSink RuntimeEnvelope
  pc : MqttSinkPc := .idle
  requests : List ClientRequest := []
  /-- taken out of the requests, not written yet -/
  handling : Option ClientRequest := none
  /-- what the event loop has written, oldest first -/
  written : List ClientRequest := []
  aborted : Bool := false
  /-- the envelopes whose `collect` returned `Ok`, oldest first -/
  accepted : List RuntimeEnvelope := []

inductive MqttSinkEvent
  | collect (envelope : RuntimeEnvelope)
  | flush
  | close
  /-- `publish` returns -/
  | publish (answer : Except String Unit)
  | disconnect (answer : Except String Unit)
  /-- `handle.abort()`, and `close` returns `Ok` -/
  | abort
  /-- the event loop takes a request -/
  | take
  | write

namespace MqttSink

/-- A batch is handed over to be published; the client answers for each envelope. -/
def handedOver : IoAnswers := ⟨.ok (), .ok ()⟩

/-- The sink behind `init`, which spawns the event loop; `none` where it panics. -/
def launched (cfg : MqttSinkConfig) : Option MqttSink :=
  ((BatchedSink.withBatching .mqtt cfg.id cfg.batchConfig).init (.ok ())).map fun r => { sink := r.2 }

/-- All of the batch is published. -/
def finishCall (s : MqttSink) : MqttSinkCall → MqttSink
  | .collect envelope => { s with pc := .idle, accepted := s.accepted ++ [envelope] }
  | .flush => { s with pc := .idle }
  | .close => { s with pc := .disconnecting }

def publishBatch (s : MqttSink) (call : MqttSinkCall) : List RuntimeEnvelope → MqttSink
  | [] => s.finishCall call
  | batch => { s with pc := .publishing call batch }

/-- Fire one event; `none` where it is not enabled. -/
def step (cfg : MqttSinkConfig) (s : MqttSink) : MqttSinkEvent → Option MqttSink
  | .collect envelope =>
    match s.pc with
    | .idle =>
      let call := s.sink.collect envelope handedOver
      match call.result with
      | .ok () => some ({ s with sink := call.sink }.publishBatch (.collect envelope) call.written)
      | .error _ => some { s with sink := call.sink }
    | _ => none
  | .flush =>
    match s.pc with
    | .idle =>
      let call := s.sink.drain handedOver
      some ({ s with sink := call.sink }.publishBatch .flush call.written)
    | _ => none
  | .close =>
    match s.pc, s.sink.io with
    -- neither client nor event loop
    | .idle, .closed => some s
    | .idle, _ =>
      let call := s.sink.drain handedOver
      some ({ s with sink := call.sink }.publishBatch .close call.written)
    | _, _ => none
  | .publish answer =>
    match s.pc with
    | .publishing call (envelope :: rest) =>
      match answer with
      | .ok () =>
        if s.requests.length < requestCapacity then
          some ({ s with requests := s.requests ++ [cfg.request envelope] }.publishBatch call rest)
        else none
      -- the call returns the error, and the rest of the batch is dropped
      | .error _ => some { s with pc := .idle }
    | _ => none
  | .disconnect answer =>
    match s.pc with
    | .disconnecting =>
      match answer with
      | .ok () =>
        if s.requests.length < requestCapacity then
          some { s with requests := s.requests ++ [.disconnect], pc := .aborting }
        else none
      | .error _ => some { s with pc := .aborting }
    | _ => none
  | .abort =>
    match s.pc with
    | .aborting => some { s with sink := { s.sink with io := .closed }, pc := .idle, aborted := true }
    | _ => none
  | .take =>
    match s.aborted, s.handling, s.requests with
    | false, none, request :: rest => some { s with requests := rest, handling := some request }
    | _, _, _ => none
  | .write =>
    match s.aborted, s.handling with
    | false, some request => some { s with handling := none, written := s.written ++ [request] }
    | _, _ => none

/-- The messages among the requests. -/
def published (requests : List ClientRequest) : List MqttPublish :=
  requests.filterMap fun
    | .publish message => some message
    | .disconnect => none

/-- The requests the event loop has still to write. -/
def pending (s : MqttSink) : List ClientRequest :=
  if s.aborted then [] else s.handling.toList ++ s.requests

/-- The messages of the accepted envelopes, as far as they are not lost, oldest first: written, on
their way through the client, in a batch that is to be published, in the buffer. -/
def ledger (cfg : MqttSinkConfig) (s : MqttSink) : List MqttPublish :=
  published (s.written ++ s.pending) ++ (s.pc.owed ++ s.sink.buffered).map cfg.message

/-- No accepted envelope is in a batch of which a publish fails, and when the event loop is
aborted it has written all messages it was given. -/
def Delivers (s : MqttSink) : MqttSinkEvent → Prop
  | .publish (.error _) => s.pc.owed = []
  | .abort => published s.pending = []
  | _ => True

/-! ## What a call hands over -/

section Calls

variable {sink : BatchedSink RuntimeEnvelope} {envelope : RuntimeEnvelope}

theorem drain_handedOver : (sink.drain handedOver).result = .ok () ∧
    (sink.drain handedOver).written = sink.buffered := by
  have hr : (sink.drain handedOver).result = .ok () := by
    cases h : (sink.drain handedOver).result with
    | ok => rfl
    | error e => exact absurd (BatchedSink.drain_error h).2.2 nofun
  exact ⟨hr, BatchedSink.drain_ok hr⟩

theorem drain_io : (sink.drain handedOver).sink.io = .closed ↔ sink.io = .closed := by
  unfold BatchedSink.drain
  cases hio : sink.io with
  | closed | unbatched => simp only [hio, reduceCtorEq]
  | batching batchBuffer =>
    dsimp only
    split <;> simp only [reduceCtorEq]

theorem collect_io : (sink.collect envelope handedOver).sink.io = .closed ↔ sink.io = .closed := by
  unfold BatchedSink.collect
  cases hio : sink.io with
  | closed | unbatched => simp only [hio, reduceCtorEq]
  | batching batchBuffer =>
    dsimp only
    split <;> simp only [reduceCtorEq]

/-- Only a sink that is closed refuses an envelope. -/
theorem collect_refused {e : String} (h : (sink.collect envelope handedOver).result = .error e) :
    (sink.collect envelope handedOver).sink = sink := by
  cases hio : sink.io with
  | closed => simp only [BatchedSink.collect, hio]
  | unbatched =>
    simp only [BatchedSink.collect, hio, handedOver, reduceCtorEq] at h
  | batching batchBuffer =>
    simp only [BatchedSink.collect, hio, handedOver] at h
    split at h <;> cases h

end Calls

/-! ## What a step does -/

/-- What a step does to the messages. -/
inductive Move (cfg : MqttSinkConfig) (s : MqttSink) : MqttSinkEvent → MqttSink → Prop
  /-- a call on a closed sink, or a request on its way -/
  | around {e : MqttSinkEvent} (requests written : List ClientRequest)
      (handling : Option ClientRequest) (pc : MqttSinkPc) (delivers : s.Delivers e)
      (kept : published (written ++ MqttSink.pending { s with requests, handling }) =
        published (s.written ++ s.pending))
      (batch : pc = s.pc ∨ (s.pc = .disconnecting ∧ pc = .aborting)) :
      Move cfg s e { s with pc, requests, handling, written }
  /-- a call hands over the batch it takes out of the buffer -/
  | begun {e : MqttSinkEvent} {call : MqttSinkCall} {sink : BatchedSink RuntimeEnvelope}
      {batch : List RuntimeEnvelope} (delivers : s.Delivers e) (idle : s.pc = .idle)
      (closed : sink.io = .closed ↔ s.sink.io = .closed) (open_ : s.sink.io ≠ .closed)
      (handed : sink.buffered ++ batch = s.sink.buffered ++ call.offered)
      (apart : sink.buffered = [] ∨ batch = [])
      (emptied : call.offered = [] → sink.buffered = []) :
      Move cfg s e ({ s with sink }.publishBatch call batch)
  | sent {call : MqttSinkCall} {envelope : RuntimeEnvelope} {rest : List RuntimeEnvelope}
      (pc : s.pc = .publishing call (envelope :: rest)) :
      Move cfg s (.publish (.ok ()))
        ({ s with requests := s.requests ++ [cfg.request envelope] }.publishBatch call rest)
  | failed {call : MqttSinkCall} {batch : List RuntimeEnvelope} {error : String}
      (pc : s.pc = .publishing call batch) : Move cfg s (.publish (.error error)) { s with pc := .idle }
  | aborted (pc : s.pc = .aborting) :
      Move cfg s .abort { s with sink := { s.sink with io := .closed }, pc := .idle, aborted := true }

variable {cfg : MqttSinkConfig} {s t : MqttSink} {e : MqttSinkEvent} {call : MqttSinkCall}
  {batch : List RuntimeEnvelope}

theorem Move.rest (hd : s.Delivers e) : Move cfg s e s :=
  .around (s := s) s.requests s.written s.handling s.pc hd rfl (.inl rfl)

theorem Move.of_drain (hd : s.Delivers e) (hidle : s.pc = .idle) (hopen : s.sink.io ≠ .closed)
    (hcall : call.offered = []) :
    Move cfg s e ({ s with sink := (s.sink.drain handedOver).sink }.publishBatch call
      (s.sink.drain handedOver).written) := by
  refine .begun hd hidle drain_io hopen ?_ (.inl BatchedSink.drain_buffered)
    fun _ => BatchedSink.drain_buffered
  rw [drain_handedOver.2, BatchedSink.drain_buffered, hcall, List.nil_append, List.append_nil]

theorem Move.of_step (h : s.step cfg e = some t) : Move cfg s e t := by
  cases e with
  | collect envelope =>
    simp only [step] at h
    split at h
    · next hpc =>
      split at h
      · next hr =>
        obtain rfl := Option.some.inj h
        have hopen : s.sink.io ≠ .closed := by
          intro hio
          simp only [BatchedSink.collect, hio, reduceCtorEq] at hr
        exact .begun trivial hpc collect_io hopen (BatchedSink.collect_ok hr)
          BatchedSink.collect_apart (by rintro ⟨⟩)
      · next hr =>
        obtain rfl := Option.some.inj h
        rw [collect_refused hr]
        exact .rest trivial
    · cases h
  | flush =>
    simp only [step] at h
    split at h
    · next hpc =>
      obtain rfl := Option.some.inj h
      by_cases hio : s.sink.io = .closed
      · -- nothing is buffered behind `close`
        have hnil : publishBatch { s with sink := (s.sink.drain handedOver).sink } .flush
            (s.sink.drain handedOver).written = s := by
          simp only [BatchedSink.drain, hio, publishBatch, finishCall, ← hpc]
        rw [hnil]
        exact .rest trivial
      · exact .of_drain trivial hpc hio rfl
    · cases h
  | close =>
    simp only [step] at h
    split at h
    · obtain rfl := Option.some.inj h
      exact .rest trivial
    · next hpc hio =>
      obtain rfl := Option.some.inj h
      exact .of_drain trivial hpc hio rfl
    · cases h
  | publish answer =>
    simp only [step] at h
    split at h
    · next hpc =>
      split at h
      · split at h
        · obtain rfl := Option.some.inj h
          exact .sent hpc
        · cases h
      · obtain rfl := Option.some.inj h
        exact .failed hpc
    · cases h
  | disconnect answer =>
    simp only [step] at h
    split at h
    · next hpc =>
      split at h
      · split at h
        · obtain rfl := Option.some.inj h
          refine .around _ s.written s.handling .aborting trivial ?_ (.inr ⟨hpc, rfl⟩)
          -- a disconnect is no message
          simp only [pending, published]
          split <;> simp
        · cases h
      · obtain rfl := Option.some.inj h
        exact .around (s := s) s.requests s.written s.handling .aborting trivial rfl (.inr ⟨hpc, rfl⟩)
    · cases h
  | abort =>
    simp only [step] at h
    split at h
    · next hpc =>
      obtain rfl := Option.some.inj h
      exact .aborted hpc
    · cases h
  | take =>
    simp only [step] at h
    split at h
    · next ha hh hr =>
      obtain rfl := Option.some.inj h
      refine .around (s := s) _ s.written _ s.pc trivial ?_ (.inl rfl)
      simp only [pending, ha, hh, hr, Bool.false_eq_true, if_false, Option.toList_some,
        Option.toList_none, List.singleton_append, List.nil_append]
    · cases h
  | write =>
    simp only [step] at h
    split at h
    · next ha hh =>
      obtain rfl := Option.some.inj h
      refine .around (s := s) s.requests _ none s.pc trivial ?_ (.inl rfl)
      simp only [pending, ha, hh, Bool.false_eq_true, if_false, Option.toList_some,
        Option.toList_none, List.nil_append, List.append_assoc]
    · cases h

/-! ## The ledger -/

/-- What every step keeps: a batch comes out of an emptied buffer, `close` drops the event loop with
the client, and the ledger has no message that is not of an accepted envelope. -/
structure Kept (cfg : MqttSinkConfig) (s : MqttSink) : Prop where
  emptied : s.pc ≠ .idle → s.sink.buffered = []
  own : s.pc.Own
  aborted : s.aborted = true → s.sink.io = .closed
  closed : s.sink.io = .closed → s.aborted = true ∧ s.pc = .idle
  ledger : (s.ledger cfg).Sublist (s.accepted.map cfg.message)

@[simp] theorem published_append (a b : List ClientRequest) :
    published (a ++ b) = published a ++ published b := List.filterMap_append

/-- What a call adds to the ledger, when a batch is through or there is none. -/
theorem ledger_publishBatch :
    (s.publishBatch call batch).ledger cfg =
      published (s.written ++ s.pending) ++ (call.owed batch ++ s.sink.buffered).map cfg.message := by
  cases batch <;> cases call <;> rfl

theorem accepted_publishBatch :
    (s.publishBatch call batch).accepted = s.accepted ++ if batch = [] then call.offered else [] := by
  cases batch with
  | nil => cases call <;> simp [publishBatch, finishCall, MqttSinkCall.offered]
  | cons => simp [publishBatch]

theorem owed_nil (call : MqttSinkCall) : call.owed [] = [] := by cases call <;> rfl

/-- A batch that is handed over leaves the ledger as it was. -/
theorem owed_begun {before after : List RuntimeEnvelope}
    (handed : after ++ batch = before ++ call.offered) (apart : after = [] ∨ batch = []) :
    call.owed batch ++ after = before ++ if batch = [] then call.offered else [] := by
  by_cases hb : batch = []
  · subst hb
    rw [List.append_nil] at handed
    rw [owed_nil, if_pos rfl, List.nil_append, handed]
  · rw [apart.resolve_right hb, List.nil_append] at handed
    rw [apart.resolve_right hb, if_neg hb, handed]
    cases call with
    | collect envelope => simp [MqttSinkCall.owed, MqttSinkCall.offered]
    | flush | close => simp [MqttSinkCall.owed, MqttSinkCall.offered]

/-- An envelope that is published passes from the batch to the requests. -/
theorem owed_sent {envelope : RuntimeEnvelope} {rest : List RuntimeEnvelope}
    (own : ∀ last, call = .collect last → (envelope :: rest).getLast? = some last) :
    envelope :: call.owed rest =
      call.owed (envelope :: rest) ++ if rest = [] then call.offered else [] := by
  cases rest with
  | nil =>
    cases call with
    | collect last =>
      obtain rfl : envelope = last := Option.some.inj (own last rfl)
      rfl
    | flush | close => rfl
  | cons next rest =>
    rw [if_neg nofun, List.append_nil]
    cases call <;> rfl

/-- The event loop runs while a call waits for the client. -/
theorem Kept.running (hk : s.Kept cfg) (hpc : s.pc ≠ .idle) : s.aborted = false := by
  by_contra ha
  exact hpc (hk.closed (hk.aborted (Bool.of_not_eq_false ha))).2

/-- A step that delivers adds to the ledger what it accepts; one that does not takes something out
of it. -/
theorem ledger_step (hk : s.Kept cfg) (h : s.step cfg e = some t) :
    (s.Delivers e ∧ ∃ more, t.accepted = s.accepted ++ more ∧
      t.ledger cfg = s.ledger cfg ++ more.map cfg.message) ∨
    (¬ s.Delivers e ∧ t.accepted = s.accepted ∧ (t.ledger cfg).Sublist (s.ledger cfg) ∧
      (t.ledger cfg).length < (s.ledger cfg).length) := by
  cases Move.of_step h with
  | around _ _ _ _ delivers kept batch =>
    refine .inl ⟨delivers, [], (List.append_nil _).symm, ?_⟩
    rw [List.map_nil, List.append_nil]
    rcases batch with rfl | ⟨hpc, rfl⟩
    · exact congrArg (· ++ _) kept
    · simp only [MqttSink.ledger, hpc]
      exact congrArg (· ++ _) kept
  -- the envelopes of the call are owed from now on
  | @begun _ call sink batch delivers idle closed open_ handed apart emptied =>
    refine .inl ⟨delivers, if batch = [] then call.offered else [], accepted_publishBatch, ?_⟩
    rw [ledger_publishBatch, MqttSink.ledger, idle, List.append_assoc, ← List.map_append]
    exact congrArg (fun owed => _ ++ owed.map cfg.message) (owed_begun handed apart)
  -- an owed envelope becomes a pending request
  | @sent call envelope rest pc =>
    refine .inl ⟨trivial, if rest = [] then call.offered else [], accepted_publishBatch, ?_⟩
    have hrun : s.aborted = false := hk.running (by rw [pc]; nofun)
    have hbuf : s.sink.buffered = [] := hk.emptied (by rw [pc]; nofun)
    have hreq : published [cfg.request envelope] = [cfg.message envelope] := rfl
    rw [ledger_publishBatch, MqttSink.ledger]
    simp only [pending, hrun, hbuf, pc, MqttSinkPc.owed, Bool.false_eq_true, if_false,
      published_append, hreq, List.append_nil, List.append_assoc, List.append_cancel_left_eq]
    have hown : (MqttSinkPc.publishing call (envelope :: rest)).Own := pc ▸ hk.own
    rw [List.singleton_append, ← List.map_cons, ← List.map_append,
      owed_sent fun last hlast => by
        subst hlast
        exact hown]
  -- the rest of the batch is dropped with the error
  | @failed call batch error pc =>
    by_cases howed : s.pc.owed = []
    · refine .inl ⟨howed, [], (List.append_nil _).symm, ?_⟩
      rw [List.map_nil, List.append_nil, MqttSink.ledger, MqttSink.ledger, howed]
      rfl
    · refine .inr ⟨howed, rfl, ?_, ?_⟩
      · exact (((List.sublist_append_right _ _).map _).append_left _)
      · have hpos : 0 < s.pc.owed.length := List.length_pos_iff.mpr howed
        show (published (s.written ++ s.pending) ++ ([] ++ s.sink.buffered).map cfg.message).length <
          (published (s.written ++ s.pending) ++ (s.pc.owed ++ s.sink.buffered).map cfg.message).length
        simp only [List.nil_append, List.length_append, List.length_map]
        omega
  -- with the event loop gone nothing pending is written any more
  | aborted pc =>
    have hrun : s.aborted = false := hk.running (by rw [pc]; nofun)
    have hbuf : s.sink.buffered = [] := hk.emptied (by rw [pc]; nofun)
    have hbefore : s.ledger cfg = published s.written ++ published s.pending := by
      rw [MqttSink.ledger, published_append, pc, hbuf]
      exact List.append_nil _
    have hafter : MqttSink.ledger cfg
        { s with sink := { s.sink with io := .closed }, pc := .idle, aborted := true } =
        published s.written := by
      simp only [MqttSink.ledger, pending, if_true, List.append_nil]
      exact List.append_nil _
    rw [hbefore, hafter]
    by_cases hnone : published s.pending = []
    · refine .inl ⟨hnone, [], (List.append_nil _).symm, ?_⟩
      rw [hnone, List.map_nil, List.append_nil, List.append_nil]
    · refine .inr ⟨hnone, rfl, List.sublist_append_left .., ?_⟩
      have hpos : 0 < (published s.pending).length := List.length_pos_iff.mpr hnone
      rw [List.length_append]
      omega

/-- A call goes on, or returns, with the invariant. -/
theorem Kept.of_publishBatch (hrun : s.aborted = false) (hopen : s.sink.io ≠ .closed)
    (hempty : batch ≠ [] ∨ call.offered = [] → s.sink.buffered = [])
    (hown : ∀ last, call = .collect last → batch ≠ [] → batch.getLast? = some last)
    (hledger : ((s.publishBatch call batch).ledger cfg).Sublist
      ((s.publishBatch call batch).accepted.map cfg.message)) :
    (s.publishBatch call batch).Kept cfg := by
  cases batch with
  | nil =>
    have hclosed : s.aborted = true → s.sink.io = .closed := by
      intro ha
      rw [hrun] at ha
      cases ha
    cases call with
    | collect | flush =>
      exact ⟨fun hpc => absurd rfl hpc, trivial, hclosed, fun hio => absurd hio hopen, hledger⟩
    | close =>
      exact ⟨fun _ => hempty (.inr rfl), trivial, hclosed, fun hio => absurd hio hopen, hledger⟩
  | cons envelope rest =>
    refine ⟨fun _ => hempty (.inl nofun), ?_, ?_, fun hio => absurd hio hopen, hledger⟩
    · cases call with
      | collect last => exact hown last rfl nofun
      | flush | close => trivial
    · intro ha
      rw [show s.aborted = true from ha] at hrun
      cases hrun

theorem Kept.step (hk : s.Kept cfg) (h : s.step cfg e = some t) : t.Kept cfg := by
  have hledger : (t.ledger cfg).Sublist (t.accepted.map cfg.message) := by
    rcases ledger_step hk h with ⟨-, more, ha, hl⟩ | ⟨-, ha, hl, -⟩
    · rw [ha, hl, List.map_append]
      exact hk.ledger.append_right _
    · rw [ha]
      exact hl.trans hk.ledger
  have hopen : s.pc ≠ .idle → s.sink.io ≠ .closed := fun hpc hio => hpc (hk.closed hio).2
  cases Move.of_step h with
  | around _ _ _ _ _ _ batch =>
    rcases batch with rfl | ⟨hpc, rfl⟩
    · exact ⟨hk.emptied, hk.own, hk.aborted, hk.closed, hledger⟩
    · have hbusy : s.pc ≠ .idle := by rw [hpc]; nofun
      exact ⟨fun _ => hk.emptied hbusy, trivial, hk.aborted, fun hio => absurd hio (hopen hbusy),
        hledger⟩
  | @begun _ call sink batch _ idle closed open_ handed apart emptied =>
    have hempty : batch ≠ [] ∨ call.offered = [] → sink.buffered = [] :=
      Or.rec apart.resolve_right emptied
    refine .of_publishBatch ?_ (fun hio => open_ (closed.mp hio)) hempty ?_ hledger
    · by_contra ha
      exact open_ (hk.aborted (Bool.of_not_eq_false ha))
    · rintro last rfl hb
      -- the batch is the buffer and the envelope that filled it
      rw [hempty (.inl hb), List.nil_append] at handed
      rw [handed]
      exact List.getLast?_concat
  | @sent call envelope rest pc =>
    have hbusy : s.pc ≠ .idle := by rw [pc]; nofun
    refine .of_publishBatch (hk.running hbusy) (hopen hbusy) (fun _ => hk.emptied hbusy) ?_ hledger
    rintro last rfl hrest
    have hlast : (MqttSinkPc.publishing _ (envelope :: rest)).Own := pc ▸ hk.own
    cases rest with
    | nil => exact absurd rfl hrest
    | cons next rest => exact hlast
  | failed pc =>
    have hbusy : s.pc ≠ .idle := by rw [pc]; nofun
    exact ⟨fun hpc => absurd rfl hpc, trivial, hk.aborted, fun hio => absurd hio (hopen hbusy), hledger⟩
  | aborted => exact ⟨fun hpc => absurd rfl hpc, trivial, fun _ => rfl, fun _ => ⟨rfl, rfl⟩, hledger⟩

/-- `init` leaves an empty buffer and an event loop. -/
theorem launched_kept (h : launched cfg = some s) :
    s.Kept cfg ∧ s.ledger cfg = s.accepted.map cfg.message := by
  obtain ⟨⟨result, sink⟩, hi, rfl⟩ := Option.map_eq_some_iff.mp h
  have hbuf : sink.buffered = [] := BatchedSink.init_buffered rfl hi
  have hopen : sink.io ≠ .closed := by
    intro hio
    simp only [BatchedSink.init, BatchedSink.withBatching] at hi
    split at hi
    · obtain ⟨-, rfl⟩ := Prod.mk.inj (Option.some.inj hi)
      cases hio
    · obtain ⟨batchBuffer, -, he⟩ := Option.map_eq_some_iff.mp hi
      obtain ⟨-, rfl⟩ := Prod.mk.inj he
      cases hio
  have hledger : MqttSink.ledger cfg { sink } = [] := by
    show ([] ++ sink.buffered).map cfg.message = []
    rw [hbuf]
    rfl
  refine ⟨⟨fun _ => hbuf, trivial, by rintro ⟨⟩, fun hio => absurd hio hopen, ?_⟩, hledger⟩
  rw [hledger]
  exact List.Sublist.refl _

/-- When `close` has returned `Ok`, the event loop has written messages of accepted envelopes only,
in order, and those of all of them exactly when no publish of a batch with accepted envelopes
failed and the event loop had nothing left to write when it was aborted. -/
theorem written_of_closed {events : List MqttSinkEvent} (h0 : launched cfg = some s)
    (h : Lib.exec (step cfg) s events = some t) (hc : t.sink.io = .closed) :
    (published t.written).Sublist (t.accepted.map cfg.message) ∧
      (published t.written = t.accepted.map cfg.message ↔
        Lib.StepsMeet (step cfg) Delivers s events) := by
  obtain ⟨hs, hstart⟩ := launched_kept h0
  have ht : t.Kept cfg := Lib.exec_invariant (fun _ _ _ hk hu => hk.step hu) h hs
  obtain ⟨haborted, hidle⟩ := ht.closed hc
  have hledger : t.ledger cfg = published t.written := by
    have hbuf : t.sink.buffered = [] := by
      rw [BatchedSink.buffered, hc]
    simp only [MqttSink.ledger, pending, haborted, hidle, hbuf, MqttSinkPc.owed, if_true,
      List.append_nil, List.map_nil]
  rw [← hledger]
  refine ⟨ht.ledger, ?_, ?_⟩
  · intro hall
    refine (Lib.StepsMeet.of_final (I := Kept cfg)
      (G := fun u => u.ledger cfg = u.accepted.map cfg.message)
      (fun _ _ _ hk hu => hk.step hu) ?_ h hs hall).2
    intro u e v hk hv hg
    rcases ledger_step hk hv with ⟨hd, more, ha, hl⟩ | ⟨-, ha, hl, hlt⟩
    · rw [ha, hl, List.map_append] at hg
      exact ⟨List.append_cancel_right hg, hd⟩
    · -- what is taken out of the ledger is never put back
      have hle := hk.ledger.length_le
      rw [ha] at hg
      rw [hg] at hlt
      omega
  · intro hmeet
    refine (Lib.exec_invariant_where
      (P := fun u => u.Kept cfg ∧ u.ledger cfg = u.accepted.map cfg.message) ?_ h hmeet
      ⟨hs, hstart⟩).2
    intro u e v hu hd hv
    rcases ledger_step hu.1 hv with ⟨-, more, ha, hl⟩ | ⟨hnot, -⟩
    · refine ⟨hu.1.step hv, ?_⟩
      rw [ha, hl, hu.2, List.map_append]
    · exact absurd hd hnot

/-- A sink without batches. -/
def plainConfig : MqttSinkConfig := ⟨"out", "readings", 1, {}⟩

/-- The event loop writes the only message before the sink is closed. -/
theorem written_of_closed_plain :
    ∃ s t, launched plainConfig = some s ∧
      Lib.exec (step plainConfig) s [.collect (.new "m1" 0 "sensor" [7]), .publish (.ok ()), .take,
        .write, .close, .disconnect (.ok ()), .abort] = some t ∧
      published t.written = [⟨"readings", .atLeastOnce, false, [7]⟩] ∧
      (published t.written = t.accepted.map plainConfig.message ↔
        Lib.StepsMeet (step plainConfig) Delivers s [.collect (.new "m1" 0 "sensor" [7]),
          .publish (.ok ()), .take, .write, .close, .disconnect (.ok ()), .abort]) :=
  have h0 := rfl
  have h := rfl
  ⟨_, _, h0, h, rfl, (written_of_closed h0 h rfl).2⟩

/-- The event loop is not polled between the publish and the end of `close`. -/
theorem accepted_unwritten :
    ∃ s t, launched plainConfig = some s ∧
      Lib.exec (step plainConfig) s [.collect (.new "m1" 0 "sensor" [7]), .publish (.ok ()), .close,
        .disconnect (.ok ()), .abort] = some t ∧
      t.sink.io = .closed ∧ t.accepted = [.new "m1" 0 "sensor" [7]] ∧ t.written = [] ∧
      t.requests = [.publish ⟨"readings", .atLeastOnce, false, [7]⟩, .disconnect] :=
  ⟨_, _, rfl, rfl, rfl, rfl, rfl, rfl⟩

end MqttSink

end Wafer
