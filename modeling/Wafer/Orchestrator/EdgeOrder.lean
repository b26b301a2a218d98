import Mathlib.Data.List.Count
import Wafer.Orchestrator.Progress

/-!
# What goes over an edge

Every envelope a node sends is handed to each selected sender, one `send_one`
after the other. A run leaves behind what was handed over and how it ended. For
every sender this is, in order, what its node sent, less what is still to be
sent; for every queue the accepted part is, in order, what its receiver read and
what it has still to read.

## Main definitions

- `Handover`, `Pipeline.deliveries` — the `send_one`s of a run
- `NodeTask.sends`, `NodeTask.received` — what a task sent on, what came in

## Main results

- `Pipeline.edges_keep_order` — nothing is lost, duplicated or reordered
- `Pipeline.slow_edges_lose_nothing` — what a `Slow` edge passes on
- `Pipeline.completed_edges_deliver` — what it has passed on in the end
-/

namespace Wafer

/-- A `send_one` and how it ended. -/
structure Handover where
  sender : DownstreamSender
  envelope : RuntimeEnvelope
  outcome : SendOne

/-! ## What a task sends and receives -/

def Obs.sentOn? : Obs → Option Outgoing
  | forwarded _ out => some out
  | _ => none

def Obs.read? : Obs → Option RuntimeEnvelope
  | dequeued taken => some taken.envelope
  | _ => none

def World.sends (w : World) : List Outgoing := (w.trace.filterMap Obs.sentOn?).reverse

def World.read (w : World) : List RuntimeEnvelope := (w.trace.filterMap Obs.read?).reverse

namespace NodeTask

/-- What the task began to send, oldest first. -/
def sends : NodeTask → List Outgoing
  | source l _ => l.forwarded.reverse.map fun envelope => ⟨.all, envelope⟩
  | sink _ => []
  | passthrough l => l.forwarded.reverse.map fun envelope => ⟨.all, envelope⟩
  | runner _ w => w.sends

/-- What the task took off its queue, oldest first. -/
def read : NodeTask → List RuntimeEnvelope
  | source .. => []
  | sink l => l.collected.reverse
  | passthrough l => l.forwarded.reverse
  | runner _ w => w.read

/-- What came in: what was read and what is queued. -/
def received (t : NodeTask) : List RuntimeEnvelope := t.read ++ t.input.buffer

end NodeTask

/-- The task starts to send an envelope, or keeps what it has sent. -/
inductive Sends (before : Option Outgoing) (sent : List Outgoing) :
    Option Outgoing → List Outgoing → Prop
  | starts {out : Outgoing} (silent : before = none) : Sends before sent (some out) (sent ++ [out])
  | goesOn {after : Option Outgoing} (kept : after = none ∨ after = before) :
      Sends before sent after sent

namespace World

variable {cfg : LoopConfig} {w w' : World} {e : Event}

def outgoing (w : World) : Option Outgoing :=
  match w.pc with
  | .sending _ out => some out
  | _ => none

theorem Handled.outgoing {n : Nat} (h : Handled n w w') : w'.outgoing = none := by
  rcases h.pc with hp | ⟨e, hp⟩ <;> rw [World.outgoing, hp]

theorem step_sends (h : Transition cfg w e w') : Sends w.outgoing w.sends w'.outgoing w'.sends := by
  cases h with
  | @forwarded call out node answer answers at_ =>
    have hs : ({ w with node }.forward call out).sends = w.sends ++ [out] := List.reverse_cons
    rw [hs]
    exact .starts (by simp only [outgoing, at_])
  | failed at_ loaded rebuilt handled | lost at_ role canary handled =>
    have ho := handled.outgoing
    obtain ⟨pc, node, policy, metrics, state, generation, rfl⟩ := handled.frame
    exact .goesOn (.inl ho)
  | escalated at_ role canary answered condemns rebuilt handled =>
    have ho := handled.outgoing
    obtain ⟨pc, node, policy, metrics, state, generation, rfl⟩ := handled.frame
    exact .goesOn (.inl ho)
  | move moves => cases moves <;> exact .goesOn (.inl rfl)
  | arrive | close | refuse | cancel | tick | recordHash | prepare | publish | withdrawn | tooLate
  | retract => exact .goesOn (.inr rfl)
  | window | rerun | pickup | slotEmpty | claimed | adopted | initFailed | unhold | retry | dequeue
  | eof | hold | hand | filtered | unrouted | rolledBack | sent | shutdown =>
    exact .goesOn (.inl rfl)

theorem step_read (h : Transition cfg w e w') (he : ∀ envelope, e ≠ .arrive envelope) :
    w'.read ++ w'.input.buffer = w.read ++ w.input.buffer := by
  cases h with
  | arrive => exact absurd rfl (he _)
  | dequeue at_ message =>
    rw [(InputQueue.recv_message message).1, List.append_cons]
    exact congrArg (· ++ _) List.reverse_cons
  | failed at_ loaded rebuilt handled | lost at_ role canary handled
  | escalated at_ role canary answered condemns rebuilt handled =>
    obtain ⟨pc, node, policy, metrics, state, generation, rfl⟩ := handled.frame
    rfl
  | _ => rfl

end World

namespace NodeTask

variable {t t' : NodeTask} {i : TaskInput}

theorem source_sends {l l' : SourceLoop} {q : InputQueue} {e : SourceEvent}
    (h : l.step e = some l') : Sends (source l q).sending (source l q).sends
      (source l' q).sending (source l' q).sends := by
  cases e with
  | cancel | tick =>
    obtain rfl := Option.some.inj h
    exact .goesOn (.inr rfl)
  | poll answer =>
    simp only [SourceLoop.step] at h
    split at h
    · next hp =>
      obtain rfl := Option.some.inj h
      cases answer with
      | item item uuid =>
        have hs : (source (l.polled (.item item uuid)) q).sends =
            (source l q).sends ++ [⟨.all, item.envelope.ensureTraceId uuid⟩] := by
          simp [sends, SourceLoop.polled]
        rw [hs]
        exact .starts (by simp only [sending, hp])
      | eof => exact .goesOn (.inl rfl)
      | error message =>
        simp only [SourceLoop.polled]
        split <;> exact .goesOn (.inl rfl)
    · cases h
  | wake | stop | sent | closed =>
    simp only [SourceLoop.step] at h
    repeat' split at h
    all_goals first
      | (obtain rfl := Option.some.inj h; exact .goesOn (.inl rfl))
      | cases h

theorem passthrough_sends {l l' : PassthroughLoop} {e : PassthroughEvent}
    (h : l.step e = some l') : Sends (passthrough l).sending (passthrough l).sends
      (passthrough l').sending (passthrough l').sends := by
  cases e with
  | arrive envelope =>
    simp only [PassthroughLoop.step] at h
    split at h
    · obtain ⟨input, -, rfl⟩ := Option.map_eq_some_iff.mp h
      exact .goesOn (.inr rfl)
    · cases h
  | close | refuse | cancel =>
    obtain rfl := Option.some.inj h
    exact .goesOn (.inr rfl)
  | recv =>
    simp only [PassthroughLoop.step] at h
    split at h
    · next hp =>
      split at h
      · next envelope rest hm =>
        obtain rfl := Option.some.inj h
        have hs : (passthrough { l with
            input := rest, pc := .sending envelope, forwarded := envelope :: l.forwarded }).sends =
              (passthrough l).sends ++ [⟨.all, envelope⟩] := by
          simp [sends]
        rw [hs]
        exact .starts (by simp only [sending, hp])
      · obtain rfl := Option.some.inj h
        exact .goesOn (.inl rfl)
      · cases h
    · cases h
  | stop | sent =>
    simp only [PassthroughLoop.step] at h
    repeat' split at h
    all_goals first
      | (obtain rfl := Option.some.inj h; exact .goesOn (.inl rfl))
      | cases h

theorem step_sends (h : t.step i = some t') : Sends t.sending t.sends t'.sending t'.sends := by
  cases task_step h with
  | source fired => exact source_sends fired
  | refused | closed => exact .goesOn (.inr rfl)
  | sink => exact .goesOn (.inl rfl)
  | passthrough fired => exact passthrough_sends fired
  | runner fired => exact World.step_sends (step_transition fired)

/-- Only the task's own steps start a send. -/
theorem step_sends_kept (h : t.step i = some t') (hi : ∀ e, i ≠ .own e) : t'.sends = t.sends := by
  cases task_step h with
  | @source l l' q e _ fired input =>
    cases e with
    | cancel =>
      obtain rfl := Option.some.inj fired
      rfl
    | _ => exact absurd input.symm (hi (.source _))
  | refused | closed | sink => rfl
  | @passthrough l l' e _ fired input =>
    cases e with
    | arrive envelope =>
      simp only [PassthroughLoop.step] at fired
      split at fired
      · obtain ⟨q, -, rfl⟩ := Option.map_eq_some_iff.mp fired
        rfl
      · cases fired
    | close | refuse | cancel =>
      obtain rfl := Option.some.inj fired
      rfl
    | recv | stop | sent => exact absurd input.symm (hi (.passthrough _))
  | @runner cfg w w' e _ fired input =>
    cases step_transition fired with
    | arrive | close | refuse | cancel | move => rfl
    | _ => exact absurd input.symm (hi (.runner _))

/-- A step that is no arrival only moves envelopes from the queue to what was read. -/
theorem step_received (h : t.step i = some t') (hi : ∀ envelope, i ≠ .arrive envelope) :
    t'.received = t.received := by
  cases task_step h with
  | source | refused | closed => rfl
  | @sink l l' e _ fired input =>
    cases e with
    | arrive envelope => exact absurd input.symm (hi envelope)
    | close | refuse | cancel =>
      obtain rfl := Option.some.inj fired
      rfl
    | recv | tryRecv =>
      simp only [SinkLoop.step] at fired
      repeat' split at fired
      all_goals first
        | (next envelope rest hm =>
            obtain rfl := Option.some.inj fired
            simp [received, read, NodeTask.input, (InputQueue.recv_message hm).1])
        | (obtain rfl := Option.some.inj fired; rfl)
        | cases fired
    | collect | idle | stop | flush | finish =>
      simp only [SinkLoop.step] at fired
      repeat' split at fired
      all_goals first
        | (obtain rfl := Option.some.inj fired; rfl)
        | cases fired
  | @passthrough l l' e _ fired input =>
    cases e with
    | arrive envelope => exact absurd input.symm (hi envelope)
    | close | refuse | cancel =>
      obtain rfl := Option.some.inj fired
      rfl
    | recv =>
      simp only [PassthroughLoop.step] at fired
      repeat' split at fired
      all_goals first
        | (next envelope rest hm =>
            obtain rfl := Option.some.inj fired
            simp [received, read, NodeTask.input, (InputQueue.recv_message hm).1])
        | (obtain rfl := Option.some.inj fired; rfl)
        | cases fired
    | stop | sent =>
      simp only [PassthroughLoop.step] at fired
      repeat' split at fired
      all_goals first
        | (obtain rfl := Option.some.inj fired; rfl)
        | cases fired
  | runner fired input =>
    refine World.step_read (step_transition fired) ?_
    rintro envelope rfl
    exact hi envelope input.symm

/-- An arrival goes to the end of what came in. -/
theorem arrive_received {envelope : RuntimeEnvelope} (h : t.arrive envelope = some t') :
    t'.received = t.received ++ [envelope] := by
  cases t with
  | source => cases h
  | sink l =>
    obtain ⟨l', hl, rfl⟩ := Option.map_eq_some_iff.mp h
    simp only [SinkLoop.step] at hl
    split at hl
    · obtain ⟨q, hq, rfl⟩ := Option.map_eq_some_iff.mp hl
      simp [received, read, NodeTask.input, InputQueue.send_buffer hq]
    · cases hl
  | passthrough l =>
    obtain ⟨l', hl, rfl⟩ := Option.map_eq_some_iff.mp h
    simp only [PassthroughLoop.step] at hl
    split at hl
    · obtain ⟨q, hq, rfl⟩ := Option.map_eq_some_iff.mp hl
      simp [received, read, NodeTask.input, InputQueue.send_buffer hq]
    · cases hl
  | runner cfg w =>
    obtain ⟨w', hw, rfl⟩ := Option.map_eq_some_iff.mp h
    simp only [Wafer.step] at hw
    split at hw
    · obtain ⟨q, hq, rfl⟩ := Option.map_eq_some_iff.mp hw
      simp [received, read, World.read, NodeTask.input, InputQueue.send_buffer hq]
    · cases hw

end NodeTask

/-! ## Deliveries -/

namespace Pipeline

/-- What a `send_one` leaves behind. -/
def delivery (p : Pipeline) : PipelineEvent → List Handover
  | .deliver n dlq =>
    match p.outbox n with
    | [] => []
    | (sender, envelope) :: _ =>
      match p.tasks sender.toNode with
      | none => []
      | some t => [⟨sender, envelope, sendOne sender t.receiving t.input envelope dlq⟩]
  | _ => []

/-- The `send_one`s of a run, oldest first. -/
def deliveries (cfg : PipelineConfig) (events : List PipelineEvent) : List Handover :=
  Lib.leftBehind (step cfg) delivery (start cfg) events

/-- What was handed to the sender, oldest first. -/
def movedOver (sender : DownstreamSender) (log : List Handover) : List RuntimeEnvelope :=
  (log.filter (·.sender = sender)).map Handover.envelope

/-- What the queue of the node accepted, oldest first. -/
def accepted (n : String) (log : List Handover) : List RuntimeEnvelope :=
  (log.filter fun d => d.sender.toNode = n ∧ d.outcome = .enqueued).map Handover.envelope

/-- What is still to be handed to the sender. -/
def pending (p : Pipeline) (sender : DownstreamSender) : List RuntimeEnvelope :=
  ((p.outbox sender.sourceNode).filter (·.1 = sender)).map Prod.snd

/-- What a send has for the sender: the envelope, once for each edge of that name it selects. -/
def due (cfg : PipelineConfig) (sender : DownstreamSender) (out : Outgoing) :
    List RuntimeEnvelope :=
  .replicate ((sendMatching (cfg.wiring.collectDownstreamSenders sender.sourceNode)
    out.selection).count sender) out.envelope

variable {cfg : PipelineConfig} {p p' : Pipeline} {e : PipelineEvent} {n : String}
  {t t' : NodeTask} {log : List Handover} {dlq : DlqAttempt}

theorem movedOver_append (sender : DownstreamSender) (log more : List Handover) :
    movedOver sender (log ++ more) = movedOver sender log ++ movedOver sender more := by
  simp [movedOver]

theorem accepted_append (n : String) (log more : List Handover) :
    accepted n (log ++ more) = accepted n log ++ accepted n more := by
  simp [accepted]

theorem sourceNode_of_mem {sender : DownstreamSender}
    (h : sender ∈ cfg.wiring.collectDownstreamSenders n) : sender.sourceNode = n := by
  obtain ⟨edge, he, rfl⟩ := List.mem_map.mp h
  exact of_decide_eq_true (List.mem_filter.mp he).2

/-- What one `send_one` does, and what it leaves behind. -/
theorem step_deliver (h : p.step cfg (.deliver n dlq) = some p') :
    ∃ sender envelope rest t t' outcome, p.outbox n = (sender, envelope) :: rest ∧
      p.tasks sender.toNode = some t ∧ p'.outbox = Function.update p.outbox n rest ∧
      p'.tasks = Function.update p.tasks sender.toNode (some t') ∧
      outcome = sendOne sender t.receiving t.input envelope dlq ∧
      p.delivery (.deliver n dlq) = [⟨sender, envelope, outcome⟩] ∧
      (outcome = .enqueued ∧ t.arrive envelope = some t' ∨
        outcome ≠ .enqueued ∧ ∃ r, t.refuse r = some t') := by
  simp only [step] at h
  split at h
  · cases h
  next sender envelope rest ho =>
  obtain ⟨q, hd, rfl⟩ := Option.map_eq_some_iff.mp h
  have hq := (deliver_tasks hd).1
  unfold deliver at hd
  split at hd
  · cases hd
  next t ht =>
  have hleft : p.delivery (.deliver n dlq) =
      [⟨sender, envelope, sendOne sender t.receiving t.input envelope dlq⟩] := by
    simp only [delivery, ho, ht]
  cases hs : sendOne sender t.receiving t.input envelope dlq with
  | waits =>
    rw [hs] at hd
    cases hd
  | enqueued =>
    rw [hs] at hd hleft
    obtain ⟨t', ha, rfl⟩ := Option.map_eq_some_iff.mp hd
    exact ⟨sender, envelope, rest, t, t', _, ho, ht, rfl, rfl, hs.symm, hleft, .inl ⟨rfl, ha⟩⟩
  | refused r =>
    rw [hs] at hd hleft
    obtain ⟨t', ha, rfl⟩ := Option.map_eq_some_iff.mp hd
    exact ⟨sender, envelope, rest, t, t', _, ho, ht, rfl, rfl, hs.symm, hleft,
      .inr ⟨by rintro ⟨⟩, r, ha⟩⟩
  | deadLettered record =>
    rw [hs] at hd hleft
    obtain ⟨t', ha, rfl⟩ := Option.map_eq_some_iff.mp hd
    exact ⟨sender, envelope, rest, t, t', _, ho, ht, rfl, rfl, hs.symm, hleft,
      .inr ⟨by rintro ⟨⟩, _, ha⟩⟩

theorem delivery_eq_nil (h : ∀ n dlq, e ≠ .deliver n dlq) : p.delivery e = [] := by
  cases e with
  | deliver n dlq => exact absurd rfl (h n dlq)
  | cancel | close | task => rfl

/-- What a task sent only grows by its own steps. -/
theorem sends_step (h : p.step cfg e = some p') (hn : ∀ te, e ≠ .task n te)
    (ht : p'.tasks n = some t') : ∃ t, p.tasks n = some t ∧ t'.sends = t.sends := by
  rcases step_tasks h n with hsame | ⟨u, i, u', hu, hu', hi, hc⟩
  · exact ⟨t', hsame ▸ ht, rfl⟩
  · obtain rfl := Option.some.inj (hu'.symm.trans ht)
    refine ⟨u, hu, NodeTask.step_sends_kept hi ?_⟩
    rintro te rfl
    cases hc with
    | own => exact hn te rfl

theorem received_step (h : p.step cfg e = some p') (hn : ∀ n dlq, e ≠ .deliver n dlq)
    (ht : p'.tasks n = some t') : ∃ t, p.tasks n = some t ∧ t'.received = t.received := by
  rcases step_tasks h n with hsame | ⟨u, i, u', hu, hu', hi, hc⟩
  · exact ⟨t', hsame ▸ ht, rfl⟩
  · obtain rfl := Option.some.inj (hu'.symm.trans ht)
    refine ⟨u, hu, NodeTask.step_received hi ?_⟩
    rintro envelope rfl
    cases hc with
    | arrive => exact hn _ _ rfl

/-- The copies of an envelope that one sender gets. -/
theorem pending_of_sends {sender : DownstreamSender} (hs : sender.sourceNode = n) {out : Outgoing}
    (ho : p.outbox n = (sendMatching (cfg.wiring.collectDownstreamSenders n) out.selection).map
      fun s => (s, out.envelope)) : p.pending sender = due cfg sender out := by
  subst hs
  simp only [pending, due, ho]
  generalize sendMatching _ _ = senders
  induction senders with
  | nil => rfl
  | cons s senders ih =>
    by_cases hs : s = sender
    · subst hs
      simpa [List.replicate_succ] using ih
    · simpa [hs] using ih

/-- A step of the task of `n` either starts a send, with an empty outbox before, or leaves what was
sent and what is left. -/
theorem fireTask_sends {te : TaskEvent} (hl : p.Linked cfg)
    (h : p.step cfg (.task n te) = some p') : ∃ t t', p.tasks n = some t ∧
      p'.tasks = Function.update p.tasks n (some t') ∧
      (p'.outbox = p.outbox ∧ t'.sends = t.sends ∨
        p.outbox n = [] ∧ ∃ out, t'.sends = t.sends ++ [out] ∧ p'.outbox = Function.update p.outbox n
          ((sendMatching (cfg.wiring.collectDownstreamSenders n) out.selection).map
            fun s => (s, out.envelope))) := by
  obtain ⟨t, t', ht, hs, hf, hu⟩ := step_task h
  refine ⟨t, t', ht, hu, ?_⟩
  have hfire : p.fireTask cfg n t te = some p' := by
    simp only [step] at h
    split at h
    · rwa [ht] at h
    · cases h
  obtain ⟨t'', hf', rfl⟩ := Option.map_eq_some_iff.mp hfire
  obtain rfl := Option.some.inj (hf.symm.trans hf')
  have hsends := NodeTask.step_sends hs
  generalize ha : t'.sending = after at hsends
  generalize hb : t'.sends = sent at hsends
  cases hsends with
  | @starts out silent =>
    right
    refine ⟨?_, out, rfl, ?_⟩
    · by_contra hne
      obtain ⟨v, out', hv, ho⟩ := hl.sending n hne
      obtain rfl := Option.some.inj (ht.symm.trans hv)
      rw [silent] at ho
      cases ho
    · rw [silent]
  | goesOn kept =>
    left
    refine ⟨?_, rfl⟩
    rcases kept with rfl | rfl
    · cases t.sending <;> rfl
    · cases t.sending <;> rfl

/-- For every sender what was handed over and what is still to be, and for every queue what was
accepted. -/
structure InOrder (cfg : PipelineConfig) (log : List Handover) (p : Pipeline) : Prop where
  linked : p.Linked cfg
  handed : ∀ n t, p.tasks n = some t → ∀ sender : DownstreamSender, sender.sourceNode = n →
    movedOver sender log ++ p.pending sender = t.sends.flatMap (due cfg sender)
  taken : ∀ n t, p.tasks n = some t → t.received = accepted n log

theorem InOrder.handed_step (hi : InOrder cfg log p) (h : p.step cfg e = some p')
    (ht : p'.tasks n = some t') {sender : DownstreamSender} (hsource : sender.sourceNode = n) :
    movedOver sender (log ++ p.delivery e) ++ p'.pending sender =
      t'.sends.flatMap (due cfg sender) := by
  subst hsource
  have hframe : ∀ t, p.tasks sender.sourceNode = some t → t'.sends = t.sends →
      p'.outbox sender.sourceNode = p.outbox sender.sourceNode → p.delivery e = [] →
      movedOver sender (log ++ p.delivery e) ++ p'.pending sender =
        t'.sends.flatMap (due cfg sender) := by
    intro t ht hs ho hd
    rw [hd, List.append_nil, hs, ← hi.handed _ t ht sender rfl]
    simp only [pending, ho]
  cases e with
  | cancel =>
    obtain ⟨t, hp, hs⟩ := sends_step h (by rintro te ⟨⟩) ht
    refine hframe t hp hs ?_ rfl
    obtain rfl := Option.some.inj h
    rfl
  | close m =>
    obtain ⟨t, hp, hs⟩ := sends_step h (by rintro te ⟨⟩) ht
    refine hframe t hp hs ?_ rfl
    simp only [step] at h
    split at h
    · obtain ⟨u, -, hm⟩ := Option.bind_eq_some_iff.mp h
      obtain ⟨u', -, rfl⟩ := Option.map_eq_some_iff.mp hm
      rfl
    · cases h
  | task m te =>
    obtain ⟨u, u', hu, htasks, hcase⟩ := fireTask_sends hi.linked h
    by_cases hm : sender.sourceNode = m
    · subst hm
      obtain rfl : u' = t' := by
        rw [htasks, Function.update_self] at ht
        exact Option.some.inj ht
      rcases hcase with ⟨ho, hs⟩ | ⟨hempty, out, hs, ho⟩
      · exact hframe u hu hs (by rw [ho]) rfl
      · have hbefore := hi.handed _ u hu sender rfl
        have hnil : p.pending sender = [] := by simp only [pending, hempty]; rfl
        rw [hnil, List.append_nil] at hbefore
        rw [hs, List.flatMap_append, ← hbefore]
        simp only [delivery, List.append_nil, List.flatMap_singleton]
        congr 1
        exact pending_of_sends rfl (by rw [ho, Function.update_self])
    · rw [htasks, Function.update_of_ne hm] at ht
      refine hframe t' ht rfl ?_ rfl
      rcases hcase with ⟨ho, -⟩ | ⟨-, out, -, ho⟩
      · rw [ho]
      · rw [ho, Function.update_of_ne hm]
  | deliver m dlq =>
    obtain ⟨s, envelope, rest, u, u', outcome, ho, hu, ho', -, -, hd, -⟩ := step_deliver h
    obtain ⟨t, hp, hs⟩ := sends_step h (by rintro te ⟨⟩) ht
    have hms : s.sourceNode = m :=
      sourceNode_of_mem (hi.linked.sound m (s, envelope) (by rw [ho]; exact .head _)).1
    rw [hs, ← hi.handed _ t hp sender rfl, hd, movedOver_append, List.append_assoc]
    congr 1
    by_cases hsm : sender.sourceNode = m
    · subst hsm
      simp only [pending, ho, ho', Function.update_self, movedOver]
      by_cases he : s = sender
      · simp [he]
      · simp [he]
    · have hne : s ≠ sender := by
        rintro rfl
        exact hsm hms
      simp only [pending, ho', Function.update_of_ne hsm]
      simp [movedOver, hne]

theorem InOrder.taken_step (hi : InOrder cfg log p) (h : p.step cfg e = some p')
    (ht : p'.tasks n = some t') : t'.received = accepted n (log ++ p.delivery e) := by
  by_cases hd : ∃ m dlq, e = .deliver m dlq
  · obtain ⟨m, dlq, rfl⟩ := hd
    obtain ⟨s, envelope, rest, u, u', outcome, ho, hu, -, htasks, -, hleft, hcase⟩ := step_deliver h
    rw [hleft, accepted_append]
    by_cases hn : n = s.toNode
    · subst hn
      obtain rfl : u' = t' := by
        rw [htasks, Function.update_self] at ht
        exact Option.some.inj ht
      rcases hcase with ⟨rfl, ha⟩ | ⟨hne, r, hr⟩
      · rw [NodeTask.arrive_received ha, hi.taken _ u hu]
        simp [accepted]
      · rw [NodeTask.step_received (i := .refuse r) hr (by rintro _ ⟨⟩), hi.taken _ u hu]
        simp [accepted, hne]
    · rw [htasks, Function.update_of_ne hn] at ht
      rw [hi.taken n t' ht]
      simp [accepted, Ne.symm hn]
  · have hnone : ∀ m dlq, e ≠ .deliver m dlq := by
      rintro m dlq rfl
      exact hd ⟨m, dlq, rfl⟩
    obtain ⟨t, hp, hr⟩ := received_step h hnone ht
    rw [hr, delivery_eq_nil hnone, List.append_nil]
    exact hi.taken n t hp

theorem InOrder.step (hi : InOrder cfg log p) (h : p.step cfg e = some p') :
    InOrder cfg (log ++ p.delivery e) p' where
  linked := hi.linked.step h
  handed _ _ ht _ hs := hi.handed_step h ht hs
  taken _ _ ht := hi.taken_step h ht

theorem InOrder.start (cfg : PipelineConfig) : InOrder cfg [] (start cfg) where
  linked := .start cfg
  handed n t ht sender hs := by
    obtain ⟨spec, -, rfl⟩ := Option.map_eq_some_iff.mp ht
    cases spec <;> rfl
  taken n t ht := by
    obtain ⟨spec, -, rfl⟩ := Option.map_eq_some_iff.mp ht
    have hq : (cfg.wiring.takeReceiver n).buffer = [] := by
      unfold QueueWiring.takeReceiver
      split <;> rfl
    cases spec with
    | source | sink | passthrough => exact hq
    | runner => rfl

theorem inOrder {events : List PipelineEvent} (h : run cfg events = some p) :
    InOrder cfg (deliveries cfg events) p :=
  Lib.exec_leftBehind (P := InOrder cfg) (InOrder.start cfg) (fun _ _ _ _ hi hs => hi.step hs) h

/-- Whatever the interleaving: what a node sent over one of its senders is in order what was handed
over and then what is still to be, and what came into a node is in order what its queue accepted. -/
theorem edges_keep_order {events : List PipelineEvent} (h : run cfg events = some p)
    (ht : p.tasks n = some t) :
    (∀ sender : DownstreamSender, sender.sourceNode = n →
      movedOver sender (deliveries cfg events) ++ p.pending sender =
        t.sends.flatMap (due cfg sender)) ∧
      t.received = accepted n (deliveries cfg events) :=
  ⟨(inOrder h).handed n t ht, (inOrder h).taken n t ht⟩

/-- The only sender of the source in `screened`. -/
def meterSender : DownstreamSender where
  toNode := "screen"
  port := "default"
  edge := "meter:default->screen:default"
  sourceNode := "meter"
  overflow := .slow
  dlqSender := false

theorem edges_keep_order_backpressured :
    ∃ p t first second, run (screened (.sink none)) backpressuredRun = some p ∧
      p.tasks "meter" = some t ∧ t.sends.flatMap (due (screened (.sink none)) meterSender) =
        [first, second] ∧ p.pending meterSender = [second] ∧
      movedOver meterSender (deliveries (screened (.sink none)) backpressuredRun) ++
        p.pending meterSender = [first, second] ∧
      t.received = accepted "meter" (deliveries (screened (.sink none)) backpressuredRun) := by
  have hr : ∃ p t first second, run (screened (.sink none)) backpressuredRun = some p ∧
      p.tasks "meter" = some t ∧ t.sends.flatMap (due (screened (.sink none)) meterSender) =
        [first, second] ∧ p.pending meterSender = [second] :=
    ⟨_, _, _, _, rfl, rfl, rfl, rfl⟩
  obtain ⟨p, t, first, second, h, ht, hs, hp⟩ := hr
  obtain ⟨hover, hreceived⟩ := edges_keep_order h ht
  exact ⟨p, t, first, second, h, ht, hs, hp, (hover meterSender rfl).trans hs, hreceived⟩

end Pipeline

/-! ## Edges that wait for room -/

namespace NodeTask

/-- The task gave up its input: it was cancelled or failed, or it never had one. -/
def GaveUp (t : NodeTask) : Prop :=
  t.cancelled = true ∨ (∃ e, t.result = some (.error e)) ∨ ∃ l q, t = .source l q

variable {t t' : NodeTask} {i : TaskInput}

theorem cancel_cancelled (h : t.cancel = some t') : t'.cancelled = true := by
  cases t <;> obtain rfl := Option.some.inj h <;> rfl

theorem GaveUp.step (hg : t.GaveUp) (h : t.step i = some t') : t'.GaveUp := by
  rcases hg with hc | ⟨e, he⟩ | ⟨l, q, rfl⟩
  · left
    by_cases hi : i = .cancel
    · subst hi
      exact cancel_cancelled h
    · rw [step_cancelled h hi, hc]
  · exact .inr (.inl ⟨e, step_result he h⟩)
  · refine .inr (.inr ?_)
    cases task_step h with
    | source | refused | closed => exact ⟨_, _, rfl⟩

/-- A task that reads no more gave up its input, or has seen the end of it. -/
theorem Drained.gaveUp_or_ended (hd : t.Drained) (hr : t.receiving = false) :
    t.GaveUp ∨ t.input.Ended := by
  cases t with
  | source l q => exact .inl (.inr (.inr ⟨l, q, rfl⟩))
  | sink l =>
    cases hp : l.pc with
    | exited result =>
      rcases hd.stopped (by rw [SinkLoop.stopped, hp]) with hc | he
      · exact .inl (.inl hc)
      · exact .inr he
    | _ => simp [receiving, SinkLoop.running, hp] at hr
  | passthrough l =>
    cases hp : l.pc with
    | exited =>
      rcases hd.exited hp with hc | he
      · exact .inl (.inl hc)
      · exact .inr he
    | _ => simp [receiving, PassthroughLoop.running, hp] at hr
  | runner cfg w =>
    cases hp : w.pc with
    | exited result =>
      cases result with
      | error e => exact .inl (.inr (.inl ⟨e, by simp only [NodeTask.result, hp]⟩))
      | ok u =>
        rcases hd.finished (by rw [hp]; rfl) with hc | he
        · exact .inl (.inl hc)
        · exact .inr (hd.ended he)
    | _ => simp [receiving, World.running, hp] at hr

end NodeTask

namespace Pipeline

variable {cfg : PipelineConfig} {p p' : Pipeline} {e : PipelineEvent} {log : List Handover}

/-- A `Slow` sender that got rid of an envelope elsewhere than in the queue found nobody there. -/
theorem sendOne_slow {sender : DownstreamSender} {receiving : Bool} {q : InputQueue}
    {envelope : RuntimeEnvelope} {dlq : DlqAttempt} (hs : sender.overflow = .slow)
    (hw : sendOne sender receiving q envelope dlq ≠ .waits)
    (he : sendOne sender receiving q envelope dlq ≠ .enqueued) : receiving = false := by
  cases receiving with
  | false => rfl
  | true =>
    unfold sendOne at hw he
    simp only [Bool.true_eq_false, if_false] at hw he
    split at he
    · exact absurd rfl he
    · next hfull =>
      rw [if_neg hfull, hs] at hw
      exact absurd rfl hw

/-- A `Slow` sender only loses envelopes to a task that gave up. -/
structure SlowKept (cfg : PipelineConfig) (log : List Handover) (p : Pipeline) : Prop where
  linked : p.Linked cfg
  drained : ∀ n t, p.tasks n = some t → t.Drained
  kept : ∀ d ∈ log, d.sender.overflow = .slow →
    d.outcome = .enqueued ∨ ∃ t, p.tasks d.sender.toNode = some t ∧ t.GaveUp

theorem SlowKept.gaveUp_step {n : String} {t : NodeTask} (h : p.step cfg e = some p')
    (ht : p.tasks n = some t) (hg : t.GaveUp) : ∃ t', p'.tasks n = some t' ∧ t'.GaveUp := by
  rcases step_tasks h n with hsame | ⟨u, i, t', hu, ht', hi, -⟩
  · exact ⟨t, hsame.trans ht, hg⟩
  · obtain rfl := Option.some.inj (hu.symm.trans ht)
    exact ⟨t', ht', hg.step hi⟩

theorem SlowKept.step (hk : SlowKept cfg log p) (h : p.step cfg e = some p') :
    SlowKept cfg (log ++ p.delivery e) p' where
  linked := hk.linked.step h
  drained n t ht := by
    rcases step_tasks h n with hsame | ⟨u, i, t', hu, ht', hi, -⟩
    · exact hk.drained n t (hsame ▸ ht)
    · obtain rfl := Option.some.inj (ht'.symm.trans ht)
      exact (hk.drained n u hu).step hi
  kept d hd hs := by
    rcases List.mem_append.mp hd with hd | hd
    · refine (hk.kept d hd hs).imp_right ?_
      rintro ⟨t, ht, hg⟩
      exact SlowKept.gaveUp_step h ht hg
    by_cases hdel : ∃ n dlq, e = .deliver n dlq
    · obtain ⟨n, dlq, rfl⟩ := hdel
      obtain ⟨sender, envelope, rest, t, t', outcome, ho, ht, -, -, hout, hleft, hcase⟩ :=
        step_deliver h
      rw [hleft, List.mem_singleton] at hd
      subst hd
      rcases hcase with ⟨rfl, -⟩ | ⟨hne, r, hr⟩
      · exact .inl rfl
      right
      -- the sender of an ended queue would be gone
      have hm : (sender, envelope) ∈ p.outbox n := by
        rw [ho]
        exact .head _
      have hrecv : t.receiving = false := by
        refine sendOne_slow hs ?_ (hout ▸ hne)
        intro hw
        simp only [Pipeline.step, ho, deliver, ht, hw] at h
        cases h
      rcases (hk.drained _ t ht).gaveUp_or_ended hrecv with hg | hend
      · exact SlowKept.gaveUp_step h ht hg
      · have hrel := hk.linked.closed _ t ht hend.1 n
          (QueueWiring.mem_upstream (hk.linked.sound n _ hm).1)
        obtain ⟨u, out, hu, hsend⟩ := hk.linked.sending n (List.ne_nil_of_mem hm)
        rcases (released_of_task hu).mp hrel with ⟨l, rfl⟩ | hres
        · cases hsend
        · rw [NodeTask.result_of_sending hsend] at hres
          cases hres
    · rw [delivery_eq_nil fun n dlq he => hdel ⟨n, dlq, he⟩] at hd
      exact absurd hd List.not_mem_nil

theorem SlowKept.start (cfg : PipelineConfig) : SlowKept cfg [] (start cfg) where
  linked := .start cfg
  drained n t ht := by
    obtain ⟨spec, -, rfl⟩ := Option.map_eq_some_iff.mp ht
    exact (cfg.spawn_drained n spec).1
  kept _ hd := absurd hd List.not_mem_nil

theorem slowKept {events : List PipelineEvent} (h : run cfg events = some p) :
    SlowKept cfg (deliveries cfg events) p :=
  Lib.exec_leftBehind (P := SlowKept cfg) (SlowKept.start cfg) (fun _ _ _ _ hk hs => hk.step hs) h

/-- In every run a `Slow` sender has enqueued all that was handed to it, unless the task behind it was
cancelled, failed, or is a source. -/
theorem slow_edges_lose_nothing {events : List PipelineEvent} (h : run cfg events = some p) :
    ∀ d ∈ deliveries cfg events, d.sender.overflow = .slow →
      d.outcome = .enqueued ∨ ∃ t, p.tasks d.sender.toNode = some t ∧ t.GaveUp :=
  (slowKept h).kept

theorem slow_edges_lose_nothing_backpressured : ∃ p d,
    run (screened (.sink none)) backpressuredRun = some p ∧
      deliveries (screened (.sink none)) backpressuredRun = [d] ∧ d.sender = meterSender ∧
      (d.outcome = .enqueued ∨ ∃ t, p.tasks d.sender.toNode = some t ∧ t.GaveUp) := by
  have hr : ∃ p d, run (screened (.sink none)) backpressuredRun = some p ∧
      deliveries (screened (.sink none)) backpressuredRun = [d] ∧ d.sender = meterSender :=
    ⟨_, _, rfl, rfl, rfl⟩
  obtain ⟨p, d, h, hd, hs⟩ := hr
  refine ⟨p, d, h, hd, hs, slow_edges_lose_nothing h d ?_ (by rw [hs]; rfl)⟩
  rw [hd]
  exact .head _

theorem not_cancelled {events : List PipelineEvent} (h : run cfg events = some p)
    (hc : .cancel ∉ events) {n : String} {t : NodeTask} (ht : p.tasks n = some t) :
    t.cancelled = false := by
  obtain ⟨spec, inputs, -, hrun, hcancel⟩ := tasks_run h ht
  refine Lib.exec_invariant_where (P := fun t : NodeTask => t.cancelled = false)
    (C := fun _ i => i ≠ .cancel) ?_ hrun (.of_forall ?_) (cfg.spawn_drained n spec).2
  · intro s i t hs hi hstep
    exact (NodeTask.step_cancelled hstep hi).trans hs
  · rintro s i hi rfl
    exact hc (hcancel hi)

/-- What a queue accepted over one sender, oldest first. -/
def acceptedOver (sender : DownstreamSender) (log : List Handover) : List RuntimeEnvelope :=
  ((log.filter fun d => d.sender.toNode = sender.toNode ∧ d.outcome = .enqueued).filter
    (·.sender = sender)).map Handover.envelope

/-- When all tasks have returned without error and without cancellation, a node has read exactly what
its queue accepted, and over a `Slow` sender that is exactly what the node at the other end sent, in
that order. -/
theorem completed_edges_deliver {events : List PipelineEvent} (h : run cfg events = some p)
    (hc : .cancel ∉ events) (hr : ∀ n t, p.tasks n = some t → t.result = some (.ok ()))
    {sender : DownstreamSender} (hs : sender.overflow = .slow) {t u : NodeTask}
    (ht : p.tasks sender.sourceNode = some t) (hu : p.tasks sender.toNode = some u)
    (hsource : ∀ l q, u ≠ .source l q) :
    acceptedOver sender (deliveries cfg events) = t.sends.flatMap (due cfg sender) ∧
      u.read = accepted sender.toNode (deliveries cfg events) := by
  have hk := slowKept h
  have hi := inOrder h
  constructor
  · have hnone : p.outbox sender.sourceNode = [] := by
      by_contra hne
      obtain ⟨v, out, hv, ho⟩ := hk.linked.sending _ hne
      cases (hr _ v hv).symm.trans (NodeTask.result_of_sending ho)
    have hhanded := hi.handed _ t ht sender rfl
    have hempty : p.pending sender = [] := by
      rw [pending, hnone]
      rfl
    rw [hempty, List.append_nil] at hhanded
    rw [← hhanded, acceptedOver, movedOver, List.filter_filter]
    congr 1
    refine List.filter_congr fun d hd => ?_
    by_cases hd' : d.sender = sender
    · subst hd'
      have henq : d.outcome = .enqueued := by
        refine (hk.kept d hd hs).resolve_right ?_
        rintro ⟨v, hv, hcancel | ⟨e, he⟩ | ⟨l, q, rfl⟩⟩
        · rw [not_cancelled h hc hv] at hcancel
          cases hcancel
        · cases (hr _ v hv).symm.trans he
        · exact hsource l q (Option.some.inj (hu.symm.trans hv))
      simp [henq]
    · simp [hd']
  · have hbuffer := ((hk.drained _ u hu).completed (not_cancelled h hc hu) (hr _ u hu)).2
    have htaken := hi.taken _ u hu
    rwa [NodeTask.received, hbuffer, List.append_nil] at htaken

/-- The run of `screened` to its end, with the tasks it ends in. -/
theorem completedRun_ends : ∃ p, run (screened (.sink none)) completedRun = some p ∧
    (∀ n t, p.tasks n = some t → t.result = some (.ok ())) ∧
    ∃ t u envelope, p.tasks "meter" = some t ∧ p.tasks "screen" = some u ∧
      (∀ l q, u ≠ .source l q) ∧
      t.sends.flatMap (due (screened (.sink none)) meterSender) = [envelope] := by
  have hr : ∃ p, run (screened (.sink none)) completedRun = some p ∧
      (∃ t, p.tasks "last" = some t ∧ t.result = some (.ok ())) ∧
      ∃ t u envelope, p.tasks "meter" = some t ∧ t.result = some (.ok ()) ∧
        p.tasks "screen" = some u ∧ u.result = some (.ok ()) ∧ (∃ cfg w, u = .runner cfg w) ∧
        t.sends.flatMap (due (screened (.sink none)) meterSender) = [envelope] :=
    ⟨_, rfl, ⟨_, rfl, rfl⟩, _, _, _, rfl, rfl, rfl, rfl, ⟨_, _, rfl⟩, rfl⟩
  obtain ⟨p, h, ⟨last, hlast, hok⟩, t, u, envelope, ht, htok, hu, huok, ⟨cfg, w, rfl⟩, hs⟩ := hr
  refine ⟨p, h, ?_, t, _, envelope, ht, hu, by rintro l q ⟨⟩, hs⟩
  intro n v hv
  have hsome := tasks_isSome h n
  rw [hv] at hsome
  by_cases h1 : n = "meter"
  · subst h1
    rwa [Option.some.inj (hv.symm.trans ht)]
  by_cases h2 : n = "screen"
  · subst h2
    rwa [Option.some.inj (hv.symm.trans hu)]
  by_cases h3 : n = "last"
  · subst h3
    rwa [Option.some.inj (hv.symm.trans hlast)]
  · simp [screened, h1, h2, h3] at hsome

theorem completed_edges_deliver_screened : ∃ p u envelope,
    run (screened (.sink none)) completedRun = some p ∧ p.tasks "screen" = some u ∧
      acceptedOver meterSender (deliveries (screened (.sink none)) completedRun) = [envelope] ∧
        u.read = accepted "screen" (deliveries (screened (.sink none)) completedRun) := by
  obtain ⟨p, h, hall, t, u, envelope, ht, hu, hk, hs⟩ := completedRun_ends
  have hc : .cancel ∉ completedRun := by
    simp [completedRun, screenCalled, meterRun, screenEnd, ofNode, idleRound]
  obtain ⟨hover, hread⟩ := completed_edges_deliver h hc hall
    (show meterSender.overflow = .slow from rfl) ht hu hk
  exact ⟨p, u, envelope, h, hu, hover.trans hs, hread⟩

end Pipeline

end Wafer
