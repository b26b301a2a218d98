import Mathlib.Data.List.Nodup
import Wafer.Lib.Execution
import Wafer.Runner.Source

/-!
# The HTTP source

`HttpSource` under `run_source_loop`: every request is handled by a task of its
own, which answers 200 once the envelope is in the channel the source polls.
`close` stops the server and then drops the receiver with what is still in the
channel.

## Main definitions

- `HttpRequest.receive` — the checks of `handle_request` before the send
- `HttpIngest.step` — the handlers, the source loop and its cancellation

## Main results

- `HttpIngest.passed_of_exited` — which requests have entered the pipeline when the loop returns
-/

namespace Wafer

structure HttpSourceConfig where
  id : String
  path : String
  bufferSize : Nat := 1000

structure HttpRequest where
  method : String
  path : String
  /-- `req.collect()` -/
  body : Except String (List UInt8)

structure HttpResponse where
  status : Nat
  body : String
  deriving DecidableEq, Repr

namespace HttpResponse

def ok : HttpResponse := ⟨200, "OK"⟩

def badRequest : HttpResponse := ⟨400, "Failed to read body"⟩

def notFound : HttpResponse := ⟨404, "Not found"⟩

def methodNotAllowed : HttpResponse := ⟨405, "Method not allowed"⟩

def serviceUnavailable : HttpResponse := ⟨503, "Source shutting down"⟩

end HttpResponse

/-- `handle_request` up to the send: the payload, or the answer. -/
def HttpRequest.receive (expectedPath : String) (req : HttpRequest) :
    Except HttpResponse (List UInt8) :=
  if req.method ≠ "POST" then .error .methodNotAllowed
  else if req.path ≠ expectedPath then .error .notFound
  else match req.body with
    | .ok payload => .ok payload
    | .error _ => .error .badRequest

/-- Where the handler of a request is. -/
inductive HttpPhase
  | reading (req : HttpRequest)
  /-- in `tx.send(envelope)` -/
  | sending (item : SourceItem)
  | answered (response : HttpResponse)
  /-- the connection broke before the answer, and the handler was dropped -/
  | dropped

/-- The source loop over an HTTP source, and the requests by their numbers. -/
structure HttpIngest where
  loop : SourceLoop
  /-- the channel between the handlers and `poll`, oldest first -/
  buffer : List (Nat × SourceItem) := []
  /-- `message_rx` is there -/
  receiving : Bool := true
  requests : Nat → Option HttpPhase := fun _ => none
  /-- the requests with the envelopes passed to `send_downstream`, newest first -/
  forwarded : List (Nat × RuntimeEnvelope) := []
  /-- the requests whose envelopes were in the channel when `close` dropped it -/
  discarded : List Nat := []

inductive HttpIngestEvent
  | request (n : Nat) (req : HttpRequest)
  /-- the handler of the request answers or reaches the send -/
  | read (n : Nat) (id : String) (timestamp : Nat)
  | send (n : Nat)
  | hangUp (n : Nat)
  | cancel
  /-- `poll` yields an envelope -/
  | poll (uuid : String)
  | sent
  | stop
  | close

namespace HttpIngest

/-- The loop behind `init`. -/
def start (cfg : HttpSourceConfig) : HttpIngest where
  loop := { nodeId := cfg.id }

def setPhase (s : HttpIngest) (n : Nat) (phase : HttpPhase) : HttpIngest :=
  { s with requests := Function.update s.requests n (some phase) }

/-- A step of the source loop alone. -/
def stepLoop (s : HttpIngest) (e : SourceEvent) : Option HttpIngest :=
  (s.loop.step e).map fun loop => { s with loop }

/-- Fire one event; `none` where it is not enabled. The server holds a sender until `close`, so
`poll` never sees the end of the channel before. -/
def step (cfg : HttpSourceConfig) (s : HttpIngest) : HttpIngestEvent → Option HttpIngest
  | .request n req => if (s.requests n).isNone then some (s.setPhase n (.reading req)) else none
  | .read n id timestamp =>
    match s.requests n with
    | some (.reading req) =>
      match req.receive cfg.path with
      | .ok payload => some (s.setPhase n (.sending ⟨.new id timestamp cfg.id payload, rfl⟩))
      | .error response => some (s.setPhase n (.answered response))
    | _ => none
  | .send n =>
    match s.requests n with
    | some (.sending item) =>
      if s.receiving then
        if s.buffer.length < cfg.bufferSize then
          some { s.setPhase n (.answered .ok) with buffer := s.buffer ++ [(n, item)] }
        else none
      else some (s.setPhase n (.answered .serviceUnavailable))
    | _ => none
  | .hangUp n =>
    match s.requests n with
    | some (.reading _) | some (.sending _) => some (s.setPhase n .dropped)
    | _ => none
  | .cancel => s.stepLoop .cancel
  | .poll uuid =>
    match s.buffer with
    | (n, item) :: rest =>
      (s.loop.step (.poll (.item item uuid))).map fun loop =>
        { s with
          loop, buffer := rest
          forwarded := (n, item.envelope.ensureTraceId uuid) :: s.forwarded }
    | [] => none
  | .sent => s.stepLoop .sent
  | .stop => s.stepLoop .stop
  | .close =>
    (s.loop.step .closed).map fun loop =>
      { s with
        loop, receiving := false, buffer := [], discarded := s.discarded ++ s.buffer.map Prod.fst }

def run (cfg : HttpSourceConfig) (events : List HttpIngestEvent) : Option HttpIngest :=
  Lib.exec (step cfg) (start cfg) events

/-- The requests whose envelopes were passed to `send_downstream`. -/
def passed (s : HttpIngest) : List Nat := s.forwarded.map Prod.fst

/-- The requests whose envelopes have entered the channel. -/
def entered (s : HttpIngest) : List Nat := s.passed ++ s.discarded ++ s.buffer.map Prod.fst

/-- When the channel is dropped, nothing is in it. -/
def Drained (s : HttpIngest) (e : HttpIngestEvent) : Prop := e = .close → s.buffer = []

/-! ## What a step does -/

/-- What a step does with the requests and their envelopes. -/
inductive Move (s : HttpIngest) : HttpIngestEvent → HttpIngest → Prop
  /-- a handler goes on, or answers with an error -/
  | handled {e : HttpIngestEvent} {n : Nat} {phase : HttpPhase} (around : e ≠ .close)
      (before : s.requests n ≠ some (.answered .ok))
      (refused : ∀ response, phase = .answered response → 400 ≤ response.status) :
      Move s e (s.setPhase n phase)
  | queued {n : Nat} {item : SourceItem} (receiving : s.receiving = true)
      (before : s.requests n = some (.sending item)) :
      Move s (.send n) { s.setPhase n (.answered .ok) with buffer := s.buffer ++ [(n, item)] }
  | forwarded {n : Nat} {item : SourceItem} {rest : List (Nat × SourceItem)} {uuid : String}
      {loop : SourceLoop} (buffer : s.buffer = (n, item) :: rest)
      (running : ∀ outcome, loop.pc ≠ .exited outcome)
      (sent : loop.forwarded = item.envelope.ensureTraceId uuid :: s.loop.forwarded) :
      Move s (.poll uuid) { s with
        loop, buffer := rest, forwarded := (n, item.envelope.ensureTraceId uuid) :: s.forwarded }
  | looped {e : HttpIngestEvent} {loop : SourceLoop} (around : e ≠ .close)
      (running : ∀ outcome, loop.pc = .exited outcome → s.loop.pc = .exited outcome)
      (sent : loop.forwarded = s.loop.forwarded) : Move s e { s with loop }
  | closed {loop : SourceLoop} (sent : loop.forwarded = s.loop.forwarded) :
      Move s .close { s with
        loop, receiving := false, buffer := [], discarded := s.discarded ++ s.buffer.map Prod.fst }

variable {cfg : HttpSourceConfig} {s t : HttpIngest} {e : HttpIngestEvent}

/-- A request that is not sent on is answered with an error status. -/
theorem receive_error {req : HttpRequest} {response : HttpResponse}
    (h : req.receive cfg.path = .error response) : 400 ≤ response.status := by
  unfold HttpRequest.receive at h
  split at h
  · obtain rfl := Except.error.inj h
    decide
  · split at h
    · obtain rfl := Except.error.inj h
      decide
    · split at h
      · cases h
      · obtain rfl := Except.error.inj h
        decide

theorem Move.of_stepLoop {le : SourceEvent} (he : e ≠ .close)
    (hle : le = .cancel ∨ le = .sent ∨ le = .stop) (h : s.stepLoop le = some t) : s.Move e t := by
  obtain ⟨loop, hl, rfl⟩ := Option.map_eq_some_iff.mp h
  rcases hle with rfl | rfl | rfl
  · obtain rfl := Option.some.inj hl
    exact .looped he (fun _ hx => hx) rfl
  · simp only [SourceLoop.step] at hl
    split at hl
    · obtain rfl := Option.some.inj hl
      exact .looped he (by rintro _ ⟨⟩) rfl
    · cases hl
  · simp only [SourceLoop.step] at hl
    repeat' split at hl
    all_goals first
      | (obtain rfl := Option.some.inj hl; exact .looped he (by rintro _ ⟨⟩) rfl)
      | cases hl

theorem Move.of_step (h : s.step cfg e = some t) : s.Move e t := by
  cases e with
  | request n req =>
    simp only [step] at h
    split at h
    · next hnone =>
      obtain rfl := Option.some.inj h
      refine .handled (by rintro ⟨⟩) ?_ (by rintro _ ⟨⟩)
      rw [Option.isNone_iff_eq_none.mp hnone]
      rintro ⟨⟩
    · cases h
  | read n id timestamp =>
    simp only [step] at h
    split at h
    · next req hreq =>
      have hbefore : s.requests n ≠ some (.answered .ok) := by
        rw [hreq]
        rintro ⟨⟩
      split at h
      · obtain rfl := Option.some.inj h
        exact .handled (by rintro ⟨⟩) hbefore (by rintro _ ⟨⟩)
      · next hr =>
        obtain rfl := Option.some.inj h
        refine .handled (by rintro ⟨⟩) hbefore fun response he => ?_
        obtain rfl := HttpPhase.answered.inj he
        exact receive_error hr
    · cases h
  -- only here does a request enter the channel, and only then is it answered 200
  | send n =>
    simp only [step] at h
    split at h
    · next item hreq =>
      split at h
      · next hrx =>
        split at h
        · obtain rfl := Option.some.inj h
          exact .queued hrx hreq
        · cases h
      · obtain rfl := Option.some.inj h
        refine .handled (by rintro ⟨⟩) (by rw [hreq]; rintro ⟨⟩) fun response he => ?_
        obtain rfl := HttpPhase.answered.inj he
        decide
    · cases h
  | hangUp n =>
    simp only [step] at h
    split at h
    · next hreq =>
      obtain rfl := Option.some.inj h
      exact .handled (by rintro ⟨⟩) (by rw [hreq]; rintro ⟨⟩) (by rintro _ ⟨⟩)
    · next hreq =>
      obtain rfl := Option.some.inj h
      exact .handled (by rintro ⟨⟩) (by rw [hreq]; rintro ⟨⟩) (by rintro _ ⟨⟩)
    · cases h
  | cancel => exact .of_stepLoop (by rintro ⟨⟩) (.inl rfl) h
  | sent => exact .of_stepLoop (by rintro ⟨⟩) (.inr (.inl rfl)) h
  | stop => exact .of_stepLoop (by rintro ⟨⟩) (.inr (.inr rfl)) h
  | poll uuid =>
    simp only [step] at h
    split at h
    · next n item rest hb =>
      obtain ⟨loop, hl, rfl⟩ := Option.map_eq_some_iff.mp h
      simp only [SourceLoop.step] at hl
      split at hl
      · obtain rfl := Option.some.inj hl
        exact .forwarded hb (by rintro _ ⟨⟩) rfl
      · cases hl
    · cases h
  -- what is in the channel now is dropped
  | close =>
    obtain ⟨loop, hl, rfl⟩ := Option.map_eq_some_iff.mp h
    simp only [SourceLoop.step] at hl
    split at hl
    · obtain rfl := Option.some.inj hl
      exact .closed rfl
    · cases hl

/-! ## The requests answered 200 -/

/-- The requests answered 200 are those whose envelopes have entered the channel, each once; all
other answers are error statuses. -/
structure Tracked (s : HttpIngest) : Prop where
  once : s.entered.Nodup
  answered : ∀ n, s.requests n = some (.answered .ok) ↔ n ∈ s.entered
  refused : ∀ n response, s.requests n = some (.answered response) → n ∉ s.entered →
    400 ≤ response.status
  sent : s.forwarded.map Prod.snd = s.loop.forwarded
  emptied : s.receiving = false → s.buffer = []
  exited : ∀ outcome, s.loop.pc = .exited outcome → s.receiving = false

theorem Tracked.step (hi : s.Tracked) (h : s.step cfg e = some t) : t.Tracked := by
  obtain ⟨honce, hanswered, hrefused, hsent, hemptied, hexited⟩ := hi
  cases Move.of_step h with
  | @handled _ n phase _ before refused =>
    have hn : n ∉ s.entered := fun hmem => before ((hanswered n).mpr hmem)
    refine ⟨honce, ?_, ?_, hsent, hemptied, hexited⟩
    · intro m
      show Function.update s.requests n (some phase) m = _ ↔ m ∈ s.entered
      by_cases hm : m = n
      · subst hm
        rw [Function.update_self]
        refine iff_of_false (fun he => ?_) hn
        exact absurd (refused .ok (Option.some.inj he)) (by decide)
      · rw [Function.update_of_ne hm]
        exact hanswered m
    · intro m response hr hm
      have hr : Function.update s.requests n (some phase) m = some (.answered response) := hr
      by_cases hmn : m = n
      · subst hmn
        rw [Function.update_self] at hr
        exact refused response (Option.some.inj hr)
      · rw [Function.update_of_ne hmn] at hr
        exact hrefused m response hr hm
  | @queued n item receiving before =>
    have hn : n ∉ s.entered := by
      intro hmem
      rw [(hanswered n).mpr hmem] at before
      cases before
    -- the number joins those that have entered
    have hentered : entered { s.setPhase n (.answered .ok) with buffer := s.buffer ++ [(n, item)] } =
        s.entered ++ [n] := by
      show s.passed ++ s.discarded ++ (s.buffer ++ [(n, item)]).map Prod.fst = _
      rw [List.map_append, ← List.append_assoc]
      rfl
    refine ⟨?_, ?_, ?_, hsent, ?_, hexited⟩
    · rw [hentered]
      exact List.nodup_append.mpr ⟨honce, List.nodup_singleton n, by
        rintro a ha b hb rfl
        exact hn (List.mem_singleton.mp hb ▸ ha)⟩
    · intro m
      rw [hentered, List.mem_append, List.mem_singleton]
      show Function.update s.requests n _ m = _ ↔ _
      by_cases hm : m = n
      · subst hm
        rw [Function.update_self]
        exact iff_of_true rfl (.inr rfl)
      · rw [Function.update_of_ne hm, hanswered m]
        exact (or_iff_left hm).symm
    · intro m response hr hm
      rw [hentered, List.mem_append, not_or, List.mem_singleton] at hm
      have hr : Function.update s.requests n _ m = some (.answered response) := hr
      rw [Function.update_of_ne hm.2] at hr
      exact hrefused m response hr hm.1
    · intro hrx
      rw [show s.receiving = false from hrx] at receiving
      cases receiving
  | @forwarded n item rest uuid loop buffer running sent =>
    have hperm : (entered { s with
        loop, buffer := rest
        forwarded := (n, item.envelope.ensureTraceId uuid) :: s.forwarded }).Perm s.entered := by
      simp only [entered, passed, buffer, List.map_cons, List.cons_append]
      exact List.perm_middle.symm
    refine ⟨(hperm.nodup_iff).mpr honce, ?_, ?_, ?_, ?_,
      fun outcome hx => absurd hx (running outcome)⟩
    · intro m
      rw [hperm.mem_iff]
      exact hanswered m
    · intro m response hr hm
      rw [hperm.mem_iff] at hm
      exact hrefused m response hr hm
    · show _ :: s.forwarded.map Prod.snd = loop.forwarded
      rw [sent, hsent]
    · intro hrx
      rw [hemptied hrx] at buffer
      cases buffer
  | looped _ running sent =>
    exact ⟨honce, hanswered, hrefused, hsent.trans sent.symm, hemptied,
      fun outcome hx => hexited outcome (running outcome hx)⟩
  | @closed loop sent =>
    have hentered : entered { s with
        loop, receiving := false, buffer := [],
        discarded := s.discarded ++ s.buffer.map Prod.fst } = s.entered := by
      show s.passed ++ (s.discarded ++ s.buffer.map Prod.fst) ++ [] = _
      rw [List.append_nil, ← List.append_assoc]
      rfl
    exact ⟨by rwa [hentered], by rwa [hentered], by rwa [hentered], hsent.trans sent.symm,
      fun _ => rfl, fun _ _ => rfl⟩

theorem Tracked.start (cfg : HttpSourceConfig) : (HttpIngest.start cfg).Tracked where
  once := List.nodup_nil
  answered _ := iff_of_false nofun nofun
  refused _ _ h := nomatch h
  sent := rfl
  emptied _ := rfl
  exited _ h := nomatch h

/-- Only `close` discards envelopes, and those are the ones still in the channel. -/
theorem discarded_step (h : s.step cfg e = some t) :
    t.discarded = [] ↔ s.discarded = [] ∧ s.Drained e := by
  cases Move.of_step h with
  | handled around | looped around =>
    exact (and_iff_left fun he => absurd he around).symm
  | queued | forwarded => exact (and_iff_left nofun).symm
  | closed =>
    show s.discarded ++ s.buffer.map Prod.fst = [] ↔ _
    rw [List.append_eq_nil_iff, List.map_eq_nil_iff]
    exact and_congr_right fun _ => ⟨fun hb _ => hb, fun hd => hd rfl⟩

/-- When the loop has returned, every request answered 200 either has had its envelope passed on
exactly once or had it in the channel that `close` dropped; these are all passed on exactly when the
channel was empty then. A request of neither kind that is answered is answered with an error. -/
theorem passed_of_exited {events : List HttpIngestEvent} {outcome : Except WaferError Unit}
    (h : run cfg events = some s) (hx : s.loop.pc = .exited outcome) :
    s.forwarded.map Prod.snd = s.loop.forwarded ∧
    (∀ n, s.requests n = some (.answered .ok) ↔ s.passed.count n + s.discarded.count n = 1) ∧
    (∀ n, s.passed.count n + s.discarded.count n ≤ 1) ∧
    (∀ n response, s.requests n = some (.answered response) → n ∉ s.passed → n ∉ s.discarded →
      400 ≤ response.status) ∧
    ((∀ n, s.requests n = some (.answered .ok) → s.passed.count n = 1) ↔
      Lib.StepsMeet (step cfg) Drained (start cfg) events) := by
  have hs : s.Tracked := Lib.exec_invariant (fun _ _ _ hi ht => hi.step ht) h (.start cfg)
  have hentered : s.entered = s.passed ++ s.discarded := by
    rw [entered, hs.emptied (hs.exited outcome hx)]
    exact List.append_nil _
  have hcount : ∀ n, s.entered.count n = s.passed.count n + s.discarded.count n := by
    intro n
    rw [hentered, List.count_append]
  have honce : ∀ n, s.entered.count n ≤ 1 := List.nodup_iff_count_le_one.mp hs.once
  have hok : ∀ n, s.requests n = some (.answered .ok) ↔
      s.passed.count n + s.discarded.count n = 1 := by
    intro n
    rw [hs.answered, ← List.count_pos_iff, ← hcount]
    have := honce n
    omega
  refine ⟨hs.sent, hok, fun n => hcount n ▸ honce n, ?_, ?_, ?_⟩
  · intro n response hr hf hd
    refine hs.refused n response hr ?_
    rw [hentered, List.mem_append]
    exact not_or.mpr ⟨hf, hd⟩
  · intro hall
    -- a dropped request was answered 200, but it has no place left to be passed from
    have hnone : s.discarded = [] := by
      rw [List.eq_nil_iff_forall_not_mem]
      intro n hn
      have hpos : 0 < s.discarded.count n := List.count_pos_iff.mpr hn
      have hle := hcount n ▸ honce n
      have hone := hall n ((hok n).mpr (by omega))
      omega
    exact (Lib.StepsMeet.of_final (I := fun _ => True) (G := fun u : HttpIngest => u.discarded = [])
      (fun _ _ _ _ _ => trivial) (fun _ _ _ _ hu hd => (discarded_step hu).mp hd) h trivial hnone).2
  · intro hmeet n hn
    have hnone : s.discarded = [] :=
      Lib.exec_invariant_where (P := fun u : HttpIngest => u.discarded = [])
        (fun _ _ _ hi hd hu => (discarded_step hu).mpr ⟨hi, hd⟩) h hmeet rfl
    have hone := (hok n).mp hn
    rw [hnone, List.count_nil] at hone
    exact hone

def ingest : HttpSourceConfig := { id := "in", path := "/ingest" }

/-- A request is answered and passed on before cancellation. -/
theorem passed_of_exited_one :
    ∃ s, run ingest [.request 0 ⟨"POST", "/ingest", .ok [7]⟩, .read 0 "m0" 5, .send 0, .poll "t0",
        .sent, .cancel, .stop, .close] = some s ∧
      s.requests 0 = some (.answered .ok) ∧ s.passed.count 0 + s.discarded.count 0 = 1 :=
  have h := rfl
  ⟨_, h, rfl, ((passed_of_exited h rfl).2.1 0).mp rfl⟩

/-- Cancellation fires while the envelope of a request that was answered 200 is in the channel: it
is dropped. -/
theorem answered_discarded :
    ∃ s, run ingest [.request 0 ⟨"POST", "/ingest", .ok [7]⟩, .read 0 "m0" 5, .send 0, .cancel,
        .stop, .close] = some s ∧
      s.loop.pc = .exited (.ok ()) ∧ s.requests 0 = some (.answered .ok) ∧ s.passed = [] ∧
      s.loop.forwarded = [] :=
  ⟨_, rfl, rfl, rfl, rfl, rfl⟩

end HttpIngest

end Wafer
