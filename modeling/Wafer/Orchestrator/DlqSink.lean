import Wafer.Config.Types
import Wafer.Orchestrator.Supervisor
import Wafer.Runner.ErrorPolicy

/-!
# The dead-letter task

`run_dlq_sink`: take the records out of the dead-letter channel until it is
empty and no sender is left, and write them to a file or publish them over
MQTT. The MQTT event loop is a task of its own, and what its `poll` may yield is
a parameter.

## Main results

- `DlqTask.step_received` — a step loses no record unless the task fails
- `DlqTask.Sound.written` — when the task returned `Ok`, it has written all it received
-/

namespace Wafer

/-! ## The file -/

/-- A `BufWriter` over the file. -/
structure DlqWriter where
  file : List DlqEnvelope := []
  buffer : List DlqEnvelope := []

/-- What the system answers while one record is written. -/
structure WriteAnswers where
  json : Except String Unit := .ok ()
  write : Except String Unit := .ok ()
  /-- how many records the buffer passes on because it is full -/
  spilled : Nat := 0
  /-- `receiver.is_empty()` -/
  empty : Bool := true
  flush : Except String Unit := .ok ()
  /-- the last sync is `DLQ_SYNC_INTERVAL` ago -/
  due : Bool := false
  sync : Except String Unit := .ok ()

def ioResult (answer : Except String Unit) : Except WaferError Unit := answer.mapError .io

/-- The first answer that is an error ends the loop. -/
def WriteAnswers.result (io : WriteAnswers) : Except WaferError Unit := do
  io.json.mapError fun e => .runtime ("failed to serialize DLQ record: " ++ e)
  ioResult io.write
  if io.empty || io.due then ioResult io.flush
  if io.due then ioResult io.sync

namespace DlqWriter

def writeAll (w : DlqWriter) (record : DlqEnvelope) (spilled : Nat) : DlqWriter where
  file := w.file ++ (w.buffer ++ [record]).take spilled
  buffer := (w.buffer ++ [record]).drop spilled

def flush (w : DlqWriter) : DlqWriter where
  file := w.file ++ w.buffer
  buffer := []

/-- The loop body of `write_dlq_file`. -/
def write (w : DlqWriter) (record : DlqEnvelope) (io : WriteAnswers) : Except WaferError DlqWriter :=
  io.result.map fun _ =>
    let written := w.writeAll record io.spilled
    if io.empty || io.due then written.flush else written

variable {w w' : DlqWriter} {record : DlqEnvelope} {io : WriteAnswers}

@[simp] theorem writeAll_contents (w : DlqWriter) (record : DlqEnvelope) (spilled : Nat) :
    (w.writeAll record spilled).file ++ (w.writeAll record spilled).buffer =
      w.file ++ (w.buffer ++ [record]) := by
  simp only [writeAll, List.append_assoc, List.take_append_drop]

/-- A record that was written is in the file or in the buffer. -/
theorem write_ok (h : w.write record io = .ok w') :
    w'.file ++ w'.buffer = w.file ++ (w.buffer ++ [record]) := by
  unfold write at h
  cases hr : io.result with
  | error e =>
    rw [hr] at h
    cases h
  | ok _ =>
    rw [hr] at h
    obtain rfl := Except.ok.inj h
    dsimp only
    split
    · simp only [flush, List.append_nil, writeAll_contents]
    · exact writeAll_contents ..

end DlqWriter

/-! ## The MQTT client -/

inductive MqttRequest
  | publish (record : DlqEnvelope)
  | disconnect
  deriving DecidableEq

/-- What one `poll` of the event loop yields. -/
inductive PollResult
  | outgoing (request : MqttRequest)
  | other
  | error (message : String)
  | panicked (message : String)

/-- What `EventLoop::poll` may yield, from the requests the client was given and the requests the
event loop has reported as outgoing. -/
abbrev EventLoopPolls := List MqttRequest → List MqttRequest → PollResult → Bool

/-- Requests are taken in the order they were given. -/
def EventLoopPolls.Fifo (polls : EventLoopPolls) : Prop :=
  ∀ requests outgoing request, polls requests outgoing (.outgoing request) = true →
    outgoing ++ [request] <+: requests

inductive EventLoopEnd
  | returned (result : Except String Unit)
  | panicked (message : String)

structure DlqClient where
  published : List DlqEnvelope := []
  disconnected : Bool := false
  outgoing : List MqttRequest := []
  eventLoop : Option EventLoopEnd := none

namespace DlqClient

/-- Everything the client was asked to send. -/
def requests (c : DlqClient) : List MqttRequest :=
  c.published.map .publish ++ if c.disconnected then [.disconnect] else []

def poll (c : DlqClient) : PollResult → DlqClient
  | .outgoing .disconnect =>
    { c with outgoing := c.outgoing ++ [.disconnect], eventLoop := some (.returned (.ok ())) }
  | .outgoing (.publish record) => { c with outgoing := c.outgoing ++ [.publish record] }
  | .other => c
  | .error message => { c with eventLoop := some (.returned (.error message)) }
  | .panicked message => { c with eventLoop := some (.panicked message) }

def sent (c : DlqClient) : List DlqEnvelope :=
  c.outgoing.filterMap fun
    | .publish record => some record
    | .disconnect => none

end DlqClient

/-- What `eventloop_handle.await` comes to. -/
def joinEventLoop : EventLoopEnd → Except WaferError Unit
  | .returned (.ok ()) => .ok ()
  | .returned (.error e) => .error (.runtime ("DLQ MQTT event loop failed: " ++ e))
  | .panicked e => .error (.runtime ("DLQ MQTT event loop panicked: " ++ e))

/-! ## The task -/

inductive FilePc
  | opening
  | receiving
  | ended (how : TaskEnd)

inductive MqttPc
  | connecting
  | receiving
  | publishing (record : DlqEnvelope)
  | disconnecting
  | joining
  | ended (how : TaskEnd)

inductive DlqTask
  | file (pc : FilePc) (writer : DlqWriter)
  | mqtt (pc : MqttPc) (client : DlqClient)

inductive DlqEvent
  /-- the file is opened; the TLS files are read and the client is made -/
  | start (answer : Except WaferError Unit)
  /-- `recv` yields a record -/
  | record (io : WriteAnswers)
  /-- `recv` yields `None` -/
  | closed (io : WriteAnswers)
  | publish (json answer : Except String Unit)
  | disconnect (answer : Except String Unit)
  /-- a step of the event loop -/
  | poll (result : PollResult)
  | joinEventLoop
  | panic (message : String)

namespace DlqTask

def start : DeadLetterConfig → DlqTask
  | .file .. => .file .opening {}
  | .mqtt .. => .mqtt .connecting {}

def ended : DlqTask → Option TaskEnd
  | file (.ended how) _ | mqtt (.ended how) _ => some how
  | _ => none

/-- The task ended, and not with `Ok`. -/
def failed (t : DlqTask) : Bool := t.ended.any TaskEnd.failed

/-- `recv` has yielded `None` and nothing has failed. -/
def closing : DlqTask → Bool
  | mqtt .disconnecting _ | mqtt .joining _ => true
  | t => t.ended.any fun how => !how.failed

/-- The records taken out of the channel. -/
def received : DlqTask → List DlqEnvelope
  | file _ w => w.file ++ w.buffer
  | mqtt (.publishing record) c => c.published ++ [record]
  | mqtt _ c => c.published

/-- The records in the file, or on their way to the broker. -/
def written : DlqTask → List DlqEnvelope
  | file _ w => w.file
  | mqtt _ c => c.sent

/-- A step of a task that writes to a file, which runs on a thread of its own. -/
def stepFile (pc : FilePc) (w : DlqWriter) (channel : List DlqEnvelope) (sendersGone : Bool) :
    DlqEvent → Option (DlqTask × List DlqEnvelope)
  | .start answer =>
    match pc with
    | .opening =>
      match answer with
      | .ok () => some (file .receiving w, channel)
      | .error e => some (file (.ended (.returned (.error e))) w, channel)
    | _ => none
  | .record io =>
    match pc, channel with
    | .receiving, record :: rest =>
      match w.write record io with
      | .ok w => some (file .receiving w, rest)
      | .error e => some (file (.ended (.returned (.error e))) w, rest)
    | _, _ => none
  | .closed io =>
    match pc, channel with
    | .receiving, [] =>
      if sendersGone then
        match (do ioResult io.flush; ioResult io.sync) with
        | .ok () => some (file (.ended (.returned (.ok ()))) w.flush, [])
        | .error e => some (file (.ended (.returned (.error e))) w, [])
      else none
    | _, _ => none
  | .panic message =>
    match pc with
    | .ended _ => none
    | _ =>
      let e := WaferError.runtime ("DLQ file writer panicked: " ++ message)
      some (file (.ended (.returned (.error e))) w, channel)
  | _ => none

/-- A step of a task that publishes, or of its event loop. -/
def stepMqtt (polls : EventLoopPolls) (pc : MqttPc) (c : DlqClient) (channel : List DlqEnvelope)
    (sendersGone : Bool) : DlqEvent → Option (DlqTask × List DlqEnvelope)
  | .start answer =>
    match pc with
    | .connecting =>
      match answer with
      | .ok () => some (mqtt .receiving c, channel)
      | .error e => some (mqtt (.ended (.returned (.error e))) c, channel)
    | _ => none
  | .record _ =>
    match pc, channel with
    | .receiving, record :: rest => some (mqtt (.publishing record) c, rest)
    | _, _ => none
  | .closed _ =>
    match pc, channel with
    | .receiving, [] => if sendersGone then some (mqtt .disconnecting c, []) else none
    | _, _ => none
  | .publish json answer =>
    match pc with
    | .publishing record =>
      match json, answer with
      | .error e, _ =>
        let e := WaferError.runtime ("failed to serialize DLQ record: " ++ e)
        some (mqtt (.ended (.returned (.error e))) c, channel)
      | .ok (), .error e =>
        let e := WaferError.runtime ("DLQ MQTT publish failed: " ++ e)
        some (mqtt (.ended (.returned (.error e))) c, channel)
      | .ok (), .ok () =>
        some (mqtt .receiving { c with published := c.published ++ [record] }, channel)
    | _ => none
  | .disconnect answer =>
    match pc with
    | .disconnecting =>
      match answer with
      | .ok () => some (mqtt .joining { c with disconnected := true }, channel)
      | .error e =>
        let e := WaferError.runtime ("DLQ MQTT disconnect failed: " ++ e)
        some (mqtt (.ended (.returned (.error e))) c, channel)
    | _ => none
  | .poll result =>
    -- the event loop is there once the client is, and goes on when this task has failed
    match pc with
    | .connecting => none
    | _ =>
      if c.eventLoop.isNone && polls c.requests c.outgoing result then
        some (mqtt pc (c.poll result), channel)
      else none
  | .joinEventLoop =>
    match pc with
    | .joining => c.eventLoop.map fun e =>
        (mqtt (.ended (.returned (Wafer.joinEventLoop e))) c, channel)
    | _ => none
  | .panic message =>
    match pc with
    | .ended _ => none
    | _ => some (mqtt (.ended (.panicked message)) c, channel)

/-- Fire one event on the task and the channel; `none` where it is not enabled. -/
def step (polls : EventLoopPolls) (t : DlqTask) (channel : List DlqEnvelope) (sendersGone : Bool)
    (e : DlqEvent) : Option (DlqTask × List DlqEnvelope) :=
  match t with
  | file pc w => stepFile pc w channel sendersGone e
  | mqtt pc c => stepMqtt polls pc c channel sendersGone e

variable {polls : EventLoopPolls} {t t' : DlqTask} {channel channel' : List DlqEnvelope}
  {gone : Bool} {e : DlqEvent}

/-! ### Nothing taken out of the channel is lost -/

theorem stepFile_received {pc : FilePc} {w : DlqWriter}
    (h : stepFile pc w channel gone e = some (t', channel')) :
    t'.failed = true ∨ t'.received ++ channel' = (file pc w).received ++ channel := by
  cases e with
  | start answer =>
    simp only [stepFile] at h
    split at h
    · split at h <;> obtain ⟨rfl, rfl⟩ := Prod.mk.inj (Option.some.inj h)
      · exact .inr rfl
      · exact .inl rfl
    · cases h
  | record io =>
    simp only [stepFile] at h
    split at h
    · split at h
      · next hw =>
        obtain ⟨rfl, rfl⟩ := Prod.mk.inj (Option.some.inj h)
        right
        simp only [received, DlqWriter.write_ok hw, List.append_assoc, List.singleton_append]
      · obtain ⟨rfl, rfl⟩ := Prod.mk.inj (Option.some.inj h)
        exact .inl rfl
    · cases h
  | closed io =>
    simp only [stepFile] at h
    split at h
    · split at h
      · split at h <;> obtain ⟨rfl, rfl⟩ := Prod.mk.inj (Option.some.inj h)
        · right
          simp only [received, DlqWriter.flush, List.append_nil]
        · exact .inl rfl
      · cases h
    · cases h
  | panic message =>
    simp only [stepFile] at h
    split at h
    · cases h
    · obtain ⟨rfl, rfl⟩ := Prod.mk.inj (Option.some.inj h)
      exact .inl rfl
  | publish | disconnect | poll | joinEventLoop => cases h

theorem stepMqtt_received {pc : MqttPc} {c : DlqClient}
    (h : stepMqtt polls pc c channel gone e = some (t', channel')) :
    t'.failed = true ∨ t'.received ++ channel' = (mqtt pc c).received ++ channel := by
  cases e with
  | start answer =>
    simp only [stepMqtt] at h
    split at h
    · split at h <;> obtain ⟨rfl, rfl⟩ := Prod.mk.inj (Option.some.inj h)
      · exact .inr rfl
      · exact .inl rfl
    · cases h
  | record io =>
    simp only [stepMqtt] at h
    split at h
    · obtain ⟨rfl, rfl⟩ := Prod.mk.inj (Option.some.inj h)
      right
      simp only [received, List.append_assoc, List.singleton_append]
    · cases h
  | closed io =>
    simp only [stepMqtt] at h
    split at h
    · split at h
      · obtain ⟨rfl, rfl⟩ := Prod.mk.inj (Option.some.inj h)
        exact .inr rfl
      · cases h
    · cases h
  -- the record taken from the channel is published with it, or the task fails
  | publish json answer =>
    simp only [stepMqtt] at h
    split at h
    · split at h <;> obtain ⟨rfl, rfl⟩ := Prod.mk.inj (Option.some.inj h)
      · exact .inl rfl
      · exact .inl rfl
      · exact .inr rfl
    · cases h
  | disconnect answer =>
    simp only [stepMqtt] at h
    split at h
    · split at h <;> obtain ⟨rfl, rfl⟩ := Prod.mk.inj (Option.some.inj h)
      · exact .inr rfl
      · exact .inl rfl
    · cases h
  -- the event loop only moves what is published already
  | poll result =>
    simp only [stepMqtt] at h
    split at h
    · cases h
    · split at h
      · obtain ⟨rfl, rfl⟩ := Prod.mk.inj (Option.some.inj h)
        right
        have hp : (c.poll result).published = c.published := by
          unfold DlqClient.poll
          split <;> rfl
        cases pc <;> simp only [received, hp]
      · cases h
  | joinEventLoop =>
    simp only [stepMqtt] at h
    split at h
    · obtain ⟨how, -, he⟩ := Option.map_eq_some_iff.mp h
      obtain ⟨rfl, rfl⟩ := Prod.mk.inj he
      exact .inr rfl
    · cases h
  | panic message =>
    simp only [stepMqtt] at h
    split at h
    · cases h
    · obtain ⟨rfl, rfl⟩ := Prod.mk.inj (Option.some.inj h)
      exact .inl rfl

/-- A step loses no record unless the task fails. -/
theorem step_received (h : t.step polls channel gone e = some (t', channel')) :
    t'.failed = true ∨ t'.received ++ channel' = t.received ++ channel := by
  cases t with
  | file pc w => exact stepFile_received h
  | mqtt pc c => exact stepMqtt_received h

/-! ### After the end of the channel -/

/-- An ended task stays as it ended. -/
theorem step_ended {how : TaskEnd} (ht : t.ended = some how)
    (h : t.step polls channel gone e = some (t', channel')) :
    t'.ended = some how ∧ channel' = channel := by
  cases t with
  | file pc w =>
    cases pc with
    | ended how' => cases e <;> cases h
    | opening | receiving => cases ht
  | mqtt pc c =>
    cases pc with
    | ended how' =>
      cases e with
      | poll result =>
        simp only [step, stepMqtt] at h
        split at h
        · obtain ⟨rfl, rfl⟩ := Prod.mk.inj (Option.some.inj h)
          exact ⟨ht, rfl⟩
        · cases h
      | start | record | closed | publish | disconnect | joinEventLoop | panic => cases h
    | connecting | receiving | publishing | disconnecting | joining => cases ht

theorem step_failed (ht : t.failed = true)
    (h : t.step polls channel gone e = some (t', channel')) : t'.failed = true := by
  unfold failed at ht ⊢
  rw [Option.any_eq_true] at ht ⊢
  obtain ⟨how, he, hf⟩ := ht
  exact ⟨how, (step_ended he h).1, hf⟩

theorem closing_of_ended {how : TaskEnd} (he : t.ended = some how) (hf : how.failed = false) :
    t.closing = true := by
  cases t with
  | file pc w => simp [closing, he, hf]
  | mqtt pc c =>
    cases pc with
    | ended how' => simp [closing, he, hf]
    | connecting | receiving | publishing | disconnecting | joining => cases he

/-- The end of the channel is only seen when it is empty and no sender is left. -/
theorem step_closing (ht : t'.closing = true)
    (h : t.step polls channel gone e = some (t', channel')) :
    t.closing = true ∧ channel' = channel ∨ gone = true ∧ channel' = [] := by
  cases t with
  | file pc w =>
    cases e with
    | closed io =>
      simp only [step, stepFile] at h
      split at h
      · split at h
        · next hg =>
          split at h <;> obtain ⟨rfl, rfl⟩ := Prod.mk.inj (Option.some.inj h) <;>
            exact .inr ⟨hg, rfl⟩
        · cases h
      · cases h
    | start | record | panic =>
      simp only [step, stepFile] at h
      repeat' split at h
      all_goals first
        | (obtain ⟨rfl, rfl⟩ := Prod.mk.inj (Option.some.inj h); exact absurd ht nofun)
        | cases h
    | publish | disconnect | poll | joinEventLoop => cases h
  | mqtt pc c =>
    cases e with
    | closed io =>
      simp only [step, stepMqtt] at h
      split at h
      · split at h
        · next hg =>
          obtain ⟨rfl, rfl⟩ := Prod.mk.inj (Option.some.inj h)
          exact .inr ⟨hg, rfl⟩
        · cases h
      · cases h
    | start | record | publish | panic =>
      simp only [step, stepMqtt] at h
      repeat' split at h
      all_goals first
        | (obtain ⟨rfl, rfl⟩ := Prod.mk.inj (Option.some.inj h); exact absurd ht nofun)
        | cases h
    -- the end of the channel has been seen before
    | disconnect =>
      simp only [step, stepMqtt] at h
      split at h
      · split at h <;> obtain ⟨rfl, rfl⟩ := Prod.mk.inj (Option.some.inj h) <;> exact .inl ⟨rfl, rfl⟩
      · cases h
    | poll =>
      simp only [step, stepMqtt] at h
      split at h
      · cases h
      · split at h
        · obtain ⟨rfl, rfl⟩ := Prod.mk.inj (Option.some.inj h)
          exact .inl ⟨by cases pc <;> exact ht, rfl⟩
        · cases h
    | joinEventLoop =>
      simp only [step, stepMqtt] at h
      split at h
      · obtain ⟨how, -, he⟩ := Option.map_eq_some_iff.mp h
        obtain ⟨rfl, rfl⟩ := Prod.mk.inj he
        exact .inl ⟨rfl, rfl⟩
      · cases h

/-! ### What is written -/

/-- The requests go out in order, and the client is only asked to disconnect at the end. -/
structure ClientSound (pc : MqttPc) (c : DlqClient) : Prop where
  ordered : c.outgoing <+: c.requests
  disconnected : c.disconnected = true → pc = .joining ∨ ∃ how, pc = .ended how
  stopped : c.eventLoop = some (.returned (.ok ())) → ∃ before, c.outgoing = before ++ [.disconnect]
  joined : pc = .ended (.returned (.ok ())) → c.eventLoop = some (.returned (.ok ()))

def Sound : DlqTask → Prop
  | file pc w => pc = .ended (.returned (.ok ())) → w.buffer = []
  | mqtt pc c => ClientSound pc c

theorem DlqClient.requests_of_connected {c : DlqClient} (h : c.disconnected = false) :
    c.requests = c.published.map .publish := by
  simp [DlqClient.requests, h]

/-- Once the event loop has disconnected, every record was outgoing. -/
theorem ClientSound.sent {pc : MqttPc} {c : DlqClient} (hc : ClientSound pc c)
    (hs : c.eventLoop = some (.returned (.ok ()))) : c.sent = c.published := by
  obtain ⟨before, hb⟩ := hc.stopped hs
  have hnot : ¬ c.outgoing <+: c.published.map .publish := by
    intro hp
    have hm : MqttRequest.disconnect ∈ c.published.map MqttRequest.publish := by
      apply hp.subset
      rw [hb]
      simp
    obtain ⟨_, -, hr⟩ := List.mem_map.mp hm
    cases hr
  have hordered := hc.ordered
  cases hd : c.disconnected with
  | false =>
    rw [DlqClient.requests_of_connected hd] at hordered
    exact absurd hordered hnot
  | true =>
    simp only [DlqClient.requests, hd, if_true] at hordered
    rcases List.prefix_concat_iff.mp hordered with he | hp
    · simp [DlqClient.sent, he, List.filterMap_map]
    · exact absurd hp hnot

theorem ClientSound.poll {pc : MqttPc} {c : DlqClient} {result : PollResult} (hf : polls.Fifo)
    (hc : ClientSound pc c) (hr : c.eventLoop = none)
    (hp : polls c.requests c.outgoing result = true) : ClientSound pc (c.poll result) := by
  obtain ⟨hordered, hdisconnected, hstopped, hjoined⟩ := hc
  have hjoin : pc ≠ .ended (.returned (.ok ())) := by
    intro hpc
    rw [hjoined hpc] at hr
    cases hr
  cases result with
  | outgoing request =>
    have hfifo := hf _ _ _ hp
    cases request with
    | publish record =>
      exact ⟨hfifo, hdisconnected, fun hs => absurd (hr.symm.trans hs) nofun, hjoined⟩
    | disconnect => exact ⟨hfifo, hdisconnected, fun _ => ⟨_, rfl⟩, fun _ => rfl⟩
  | other => exact ⟨hordered, hdisconnected, hstopped, hjoined⟩
  | error message => exact ⟨hordered, hdisconnected, nofun, fun h => absurd h hjoin⟩
  | panicked message => exact ⟨hordered, hdisconnected, nofun, fun h => absurd h hjoin⟩

/-- A record or the final request goes behind the requests the client has. -/
theorem ClientSound.give {pc pc' : MqttPc} {c c' : DlqClient} (hc : ClientSound pc c)
    (hr : c.requests <+: c'.requests) (ho : c'.outgoing = c.outgoing)
    (he : c'.eventLoop = c.eventLoop) (hd : c'.disconnected = true → pc' = .joining)
    (hj : pc' ≠ .ended (.returned (.ok ()))) : ClientSound pc' c' where
  ordered := ho ▸ hc.ordered.trans hr
  disconnected h := .inl (hd h)
  stopped h := ho ▸ hc.stopped (he ▸ h)
  joined h := absurd h hj

/-- Nothing is given to the client. -/
theorem ClientSound.goto {pc pc' : MqttPc} {c : DlqClient} (hc : ClientSound pc c)
    (hd : c.disconnected = true → pc' = .joining ∨ ∃ how, pc' = .ended how)
    (hj : pc' = .ended (.returned (.ok ())) → c.eventLoop = some (.returned (.ok ()))) :
    ClientSound pc' c where
  ordered := hc.ordered
  disconnected := hd
  stopped := hc.stopped
  joined := hj

/-- The task may fail at any time. -/
theorem ClientSound.fail {pc : MqttPc} {c : DlqClient} {how : TaskEnd} (hc : ClientSound pc c)
    (hh : how.failed = true) : ClientSound (.ended how) c := by
  refine hc.goto (fun _ => .inr ⟨_, rfl⟩) ?_
  rintro hpc
  obtain rfl := MqttPc.ended.inj hpc
  cases hh

theorem ClientSound.connected {pc : MqttPc} {c : DlqClient} (hc : ClientSound pc c)
    (hj : pc ≠ .joining) (he : ∀ how, pc ≠ .ended how) : c.disconnected = false := by
  by_contra hd
  rcases hc.disconnected (by simpa using hd) with h | ⟨how, h⟩
  · exact hj h
  · exact he how h

theorem ClientSound.step {pc : MqttPc} {c : DlqClient} (hf : polls.Fifo) (hc : ClientSound pc c)
    (h : stepMqtt polls pc c channel gone e = some (t', channel')) : t'.Sound := by
  cases e with
  | start answer =>
    simp only [stepMqtt] at h
    split at h
    · split at h <;> obtain ⟨rfl, rfl⟩ := Prod.mk.inj (Option.some.inj h)
      · have hd := hc.connected nofun nofun
        exact hc.goto (fun h => absurd (h.symm.trans hd) nofun) nofun
      · exact hc.fail rfl
    · cases h
  | record io =>
    simp only [stepMqtt] at h
    split at h
    · obtain ⟨rfl, rfl⟩ := Prod.mk.inj (Option.some.inj h)
      have hd := hc.connected nofun nofun
      exact hc.goto (fun h => absurd (h.symm.trans hd) nofun) nofun
    · cases h
  | closed io =>
    simp only [stepMqtt] at h
    split at h
    · split at h
      · obtain ⟨rfl, rfl⟩ := Prod.mk.inj (Option.some.inj h)
        have hd := hc.connected nofun nofun
        exact hc.goto (fun h => absurd (h.symm.trans hd) nofun) nofun
      · cases h
    · cases h
  | publish json answer =>
    simp only [stepMqtt] at h
    split at h
    · split at h <;> obtain ⟨rfl, rfl⟩ := Prod.mk.inj (Option.some.inj h)
      · exact hc.fail rfl
      · exact hc.fail rfl
      · have hd := hc.connected nofun nofun
        refine hc.give ?_ rfl rfl (fun h => absurd (h.symm.trans hd) nofun) nofun
        simp only [DlqClient.requests, hd, List.map_append]
        simp
    · cases h
  | disconnect answer =>
    simp only [stepMqtt] at h
    split at h
    · split at h <;> obtain ⟨rfl, rfl⟩ := Prod.mk.inj (Option.some.inj h)
      · have hd := hc.connected nofun nofun
        refine hc.give ?_ rfl rfl (fun _ => rfl) nofun
        simp [DlqClient.requests, hd]
      · exact hc.fail rfl
    · cases h
  | poll result =>
    simp only [stepMqtt] at h
    split at h
    · cases h
    · split at h
      · next hg =>
        obtain ⟨rfl, rfl⟩ := Prod.mk.inj (Option.some.inj h)
        rw [Bool.and_eq_true, Option.isNone_iff_eq_none] at hg
        exact hc.poll hf hg.1 hg.2
      · cases h
  | joinEventLoop =>
    simp only [stepMqtt] at h
    split at h
    · obtain ⟨how, hl, he⟩ := Option.map_eq_some_iff.mp h
      obtain ⟨rfl, rfl⟩ := Prod.mk.inj he
      refine hc.goto (fun _ => .inr ⟨_, rfl⟩) ?_
      intro hpc
      rw [hl]
      -- only the event loop's own `Ok` is joined as `Ok`
      unfold Wafer.joinEventLoop at hpc
      split at hpc
      · rfl
      · cases hpc
      · cases hpc
    · cases h
  | panic message =>
    simp only [stepMqtt] at h
    split at h
    · cases h
    · obtain ⟨rfl, rfl⟩ := Prod.mk.inj (Option.some.inj h)
      exact hc.fail rfl

theorem Sound.step (hf : polls.Fifo) (ht : t.Sound)
    (h : t.step polls channel gone e = some (t', channel')) : t'.Sound := by
  cases t with
  | mqtt pc c => exact ClientSound.step hf ht h
  | file pc w =>
    cases e with
    | closed io =>
      simp only [DlqTask.step, stepFile] at h
      split at h
      · split at h
        · split at h <;> obtain ⟨rfl, rfl⟩ := Prod.mk.inj (Option.some.inj h)
          · exact fun _ => rfl
          · exact nofun
        · cases h
      · cases h
    | start | record | panic =>
      simp only [DlqTask.step, stepFile] at h
      repeat' split at h
      all_goals first
        | (obtain ⟨rfl, rfl⟩ := Prod.mk.inj (Option.some.inj h); exact nofun)
        | cases h
    | publish | disconnect | poll | joinEventLoop => cases h

/-- When the task returned `Ok`, it has written all it received. -/
theorem Sound.written (ht : t.Sound) (he : t.ended = some (.returned (.ok ()))) :
    t.written = t.received := by
  cases t with
  | file pc w =>
    cases pc with
    | ended how =>
      obtain rfl := Option.some.inj he
      show w.file = w.file ++ w.buffer
      rw [ht rfl, List.append_nil]
    | opening | receiving => cases he
  | mqtt pc c =>
    cases pc with
    | ended how =>
      obtain rfl := Option.some.inj he
      exact ClientSound.sent ht (ht.joined rfl)
    | connecting | receiving | publishing | disconnecting | joining => cases he

theorem Sound.start (config : DeadLetterConfig) : (DlqTask.start config).Sound := by
  cases config with
  | file => exact nofun
  | mqtt => exact ⟨List.nil_prefix, nofun, nofun, nofun⟩

end DlqTask

end Wafer
