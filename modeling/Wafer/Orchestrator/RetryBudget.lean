import Wafer.Orchestrator.Completion

/-!
# Retry budgets

An envelope carries the number of retries spent on it. A Wasm transform sends
a new envelope on; a filter, a router and a native transform send on the one
they were given, with the count they were given. Budgets are per node exactly
as long as none of these sends on an envelope it took from its retry buffer.

## Main definitions

- `LoadedNode.keepsRetryCount` — a success keeps the retry count
- `World.Budgeted`, `World.FullBudget` — what a loop knows of the counts
- `Pipeline.BudgetsFull`, `Pipeline.KeepsBudget` — the property and its condition
-/

namespace Wafer

namespace LoadedNode

/-- A success sends the retry count on: only a Wasm transform builds its output anew. -/
def keepsRetryCount (role : Role) (node : LoadedNode) : Bool :=
  match role, node with
  | .transform, wasm _ => false
  | _, _ => true

variable {role : Role} {node : LoadedNode} {envelope out : RuntimeEnvelope} {answer : GuestAnswer}

theorem process_retryCount {r : LoadedNode}
    (h : node.process envelope answer = some (.ok out, r)) :
    out.retryCount = if node.keepsRetryCount .transform then envelope.retryCount else 0 := by
  simp only [process] at h
  split at h
  · next w call =>
    obtain ⟨hr, -⟩ := Prod.mk.inj (Option.some.inj h)
    cases hc : (w.callGuest call).1 with
    | ok output =>
      rw [hc] at hr
      obtain rfl := Except.ok.inj hr
      rfl
    | error e =>
      rw [hc] at hr
      cases hr
  · next n =>
    obtain ⟨hr, -⟩ := Prod.mk.inj (Option.some.inj h)
    simp only [NativeTransform.process] at hr
    split at hr
    · obtain rfl := Except.ok.inj hr
      rfl
    · split at hr <;> cases hr
  · cases h

theorem emitted_retryCount (h : node.emitted role envelope answer = some out) :
    out.retryCount = if node.keepsRetryCount role then envelope.retryCount else 0 := by
  cases role with
  | transform =>
    simp only [emitted] at h
    split at h
    · next hp =>
      obtain rfl := Option.some.inj h
      exact process_retryCount hp
    · cases h
  | filter =>
    simp only [emitted] at h
    split at h
    · obtain rfl := Option.some.inj h
      rfl
    · cases h
  | router =>
    simp only [emitted] at h
    split at h
    · obtain rfl := Option.some.inj h
      rfl
    · cases h

end LoadedNode

/-! ## One loop -/

def Obs.forwarded? : Obs → Option RuntimeEnvelope
  | forwarded _ out => some out.envelope
  | _ => none

def Pc.callTaken : Pc → Option Taken
  | calling call => some call.taken
  | _ => none

namespace World

/-- What the loop sent on, newest first. -/
def forwarded (w : World) : List RuntimeEnvelope := w.trace.filterMap Obs.forwarded?

/-- The envelope in the guest and the one waiting for its rerun. -/
def working (w : World) : List Taken := w.rollbackRetry.toList ++ w.pc.callTaken.toList

/-- Retries are counted: an envelope out of the retry buffer has been retried. -/
structure Budgeted (w : World) : Prop where
  placed : w.Placed
  inOrder : w.InOrder
  working : ∀ taken ∈ w.working, taken ∈ w.taken
  counted : ∀ entry ∈ w.policy.retryBuffer.entries, 0 < entry.envelope.retryCount
  retried : ∀ taken ∈ w.taken, taken.origin = .retry → 0 < taken.envelope.retryCount
  sending : ∀ call out, w.pc = .sending call out → out.envelope ∈ w.forwarded

/-- Nothing that came in or went out had been retried. -/
structure FullBudget (w : World) : Prop where
  entered : ∀ envelope ∈ w.entered, envelope.retryCount = 0
  forwarded : ∀ envelope ∈ w.forwarded, envelope.retryCount = 0

/-- The event is no success that sends on an envelope out of the retry buffer with its count. -/
def KeepsBudget (cfg : LoopConfig) (w : World) (e : Event) : Prop :=
  ∀ call answer answers, e = .returned answer answers → w.pc = .calling call →
    w.node.keepsRetryCount cfg.role = true →
    (w.node.emitted cfg.role call.taken.envelope answer).isSome = true → call.taken.origin = .fresh

section Steps

variable {cfg : LoopConfig} {w w' : World} {e : Event}

theorem taken_mono (h : Transition cfg w e w') : w.taken ⊆ w'.taken := by
  intro t ht
  obtain ⟨later, htrace⟩ := h.trace_suffix
  simp only [taken, List.mem_reverse, ← htrace, List.filterMap_append, List.mem_append] at ht ⊢
  exact .inr ht

theorem Handled.callTaken {n : Nat} (h : Handled n w w') : w'.pc.callTaken = none := by
  rcases h.pc with hp | ⟨e, hp⟩ <;> rw [hp] <;> rfl

theorem mem_working_of_rerun {t : Taken} (h : t ∈ w.rollbackRetry.toList ++ []) :
    t ∈ w.working := by
  rw [List.append_nil] at h
  exact List.mem_append_left _ h

/-- An envelope the loop works on was worked on before the step, or comes from its hands. -/
theorem working_step (h : Transition cfg w e w') {t : Taken} (ht : t ∈ w'.working) :
    t ∈ w.working ∨ t ∈ w.inHand := by
  cases h with
  | close | refuse | cancel | tick | recordHash | prepare | publish | withdrawn | tooLate | retract
  | arrive => exact .inl ht
  | move m =>
    cases m <;> exact .inl (mem_working_of_rerun ht)
  | window | pickup | slotEmpty | claimed | adopted | initFailed | eof | hold | retry | dequeue
  | forwarded | filtered | unrouted | sent | shutdown => exact .inl (mem_working_of_rerun ht)
  | rerun at_ rerun =>
    obtain rfl := List.mem_singleton.mp ht
    refine .inl (List.mem_append_left _ ?_)
    rw [rerun]
    exact .head _
  | rolledBack at_ =>
    obtain rfl := List.mem_singleton.mp ht
    refine .inl (List.mem_append_right _ ?_)
    rw [at_]
    exact .head _
  | unhold at_ held =>
    refine (List.mem_append.mp ht).imp (List.mem_append_left _) fun hm => ?_
    obtain rfl := List.mem_singleton.mp hm
    rw [inHand, held]
    exact .head _
  | hand at_ =>
    refine (List.mem_append.mp ht).imp (List.mem_append_left _) fun hm => ?_
    obtain rfl := List.mem_singleton.mp hm
    rw [inHand, at_]
    exact List.mem_append_right _ (.head _)
  | failed _ _ _ handled | escalated _ _ _ _ _ _ handled | lost _ _ _ handled =>
    have hc := handled.callTaken
    obtain ⟨pc, node, policy, metrics, state, generation, rfl⟩ := handled.frame
    simp only [working, observe] at hc ht
    rw [hc] at ht
    exact .inl (mem_working_of_rerun ht)

/-- The retry buffer only gains retried envelopes. -/
theorem buffered_step (h : Transition cfg w e w') {entry : RetryEntry}
    (he : entry ∈ w'.policy.retryBuffer.entries) :
    entry ∈ w.policy.retryBuffer.entries ∨ 0 < entry.envelope.retryCount := by
  cases h with
  | close | refuse | cancel | tick | recordHash | prepare | publish | withdrawn | tooLate | retract
  | arrive | move | window | rerun | pickup | slotEmpty | claimed | initFailed | unhold | dequeue
  | eof | hold | hand | forwarded | filtered | unrouted | rolledBack | sent => exact .inl he
  | @adopted _ _ attempts =>
    change entry ∈ (w.policy.flushToDlq .hotSwapDrain attempts w.metrics).1.retryBuffer.entries at he
    rw [(w.policy.flushToDlq_spec .hotSwapDrain attempts w.metrics).1] at he
    exact absurd he List.not_mem_nil
  | @shutdown _ attempts =>
    change entry ∈ (w.policy.flushToDlq .shutdown attempts w.metrics).1.retryBuffer.entries at he
    rw [(w.policy.flushToDlq_spec .shutdown attempts w.metrics).1] at he
    exact absurd he List.not_mem_nil
  | retry at_ ready =>
    obtain ⟨-, -, -, -, hsub⟩ := ErrorPolicyExecutor.nextReadyRetry_spec ready
    exact .inl (hsub he)
  | failed _ _ _ handled | lost _ _ _ handled => exact handled.buffered entry he
  | escalated _ _ _ _ _ _ handled => exact handled.buffered entry he

/-- What was taken in a step came from the queue or the retry buffer. -/
theorem taken_step (h : Transition cfg w e w') {t : Taken} (ht : t ∈ w'.taken)
    (hr : t.origin = .retry) :
    t ∈ w.taken ∨ ∃ entry ∈ w.policy.retryBuffer.entries, entry.envelope = t.envelope := by
  cases h with
  | close | refuse | cancel | tick | recordHash | prepare | publish | withdrawn | tooLate | retract
  | arrive | move | window | rerun | pickup | slotEmpty | claimed | adopted | initFailed | unhold
  | eof | hold | hand | forwarded | filtered | unrouted | rolledBack | sent | shutdown =>
    exact .inl ht
  | failed _ _ _ handled | escalated _ _ _ _ _ _ handled | lost _ _ _ handled =>
    obtain ⟨pc, node, policy, metrics, state, generation, rfl⟩ := handled.frame
    exact .inl ht
  | retry at_ ready =>
    obtain ⟨-, entry, hm, he, -⟩ := ErrorPolicyExecutor.nextReadyRetry_spec ready
    rw [taken_observe] at ht
    refine (List.mem_append.mp ht).imp_right fun hm' => ?_
    obtain rfl := List.mem_singleton.mp hm'
    exact ⟨entry, hm, he⟩
  | dequeue =>
    rw [taken_observe] at ht
    refine (List.mem_append.mp ht).imp_right fun hm => ?_
    obtain rfl := List.mem_singleton.mp hm
    exact absurd hr nofun

/-- A step sends nothing on, or what a successful call emitted. -/
theorem forwarded_step (h : Transition cfg w e w') :
    w'.forwarded = w.forwarded ∨ ∃ call answer answers out, e = .returned answer answers ∧
      w.pc = .calling call ∧ w.node.emitted cfg.role call.taken.envelope answer = some out ∧
      w'.forwarded = out :: w.forwarded := by
  cases h with
  | close | refuse | cancel | tick | recordHash | prepare | publish | withdrawn | tooLate | retract
  | arrive | move | window | rerun | pickup | slotEmpty | claimed | adopted | initFailed | unhold
  | eof | hold | hand | filtered | unrouted | rolledBack | sent | shutdown | retry | dequeue =>
    exact .inl rfl
  | failed _ _ _ handled | escalated _ _ _ _ _ _ handled | lost _ _ _ handled =>
    obtain ⟨pc, node, policy, metrics, state, generation, rfl⟩ := handled.frame
    exact .inl rfl
  | @forwarded call out _ answer answers at_ loaded rebuilt emitted =>
    exact .inr ⟨call, answer, answers, out.envelope, rfl, at_, emitted, rfl⟩

theorem sending_step (h : Transition cfg w e w') {call : Call} {out : Outgoing}
    (hp : w'.pc = .sending call out) :
    out.envelope ∈ w'.forwarded ∨ w.pc = .sending call out ∧ w'.forwarded = w.forwarded := by
  cases h with
  | close | refuse | cancel | tick | recordHash | prepare | publish | withdrawn | tooLate | retract
  | arrive => exact .inr ⟨hp, rfl⟩
  | move m => cases m <;> exact absurd hp (fun h => nomatch h)
  | window | rerun | pickup | slotEmpty | claimed | adopted | initFailed | unhold | eof | hold
  | hand | filtered | unrouted | rolledBack | sent | shutdown | retry | dequeue =>
    exact absurd hp (fun h => nomatch h)
  | failed _ _ _ handled | lost _ _ _ handled =>
    rcases handled.pc with hp' | ⟨e, hp'⟩ <;> exact absurd (hp'.symm.trans hp) (fun h => nomatch h)
  | escalated _ _ _ _ _ _ handled running =>
    exact absurd (running.symm.trans hp) (fun h => nomatch h)
  | forwarded =>
    obtain ⟨-, rfl⟩ := Pc.sending.inj hp
    exact .inl (.head _)

theorem Budgeted.step (hb : w.Budgeted) (h : Transition cfg w e w') : w'.Budgeted where
  placed := hb.placed.step h
  inOrder := hb.inOrder.step hb.placed h
  working t ht := by
    rcases working_step h ht with ht | ht
    · exact taken_mono h (hb.working t ht)
    · apply taken_mono h
      rw [hb.inOrder]
      exact List.mem_append_right _ ht
  counted entry he := (buffered_step h he).elim (hb.counted entry) id
  retried t ht hr := by
    rcases taken_step h ht hr with ht | ⟨entry, he, heq⟩
    · exact hb.retried t ht hr
    · exact heq ▸ hb.counted entry he
  sending call out hp := by
    rcases sending_step h hp with hm | ⟨hp, hf⟩
    · exact hm
    · exact hf ▸ hb.sending call out hp

theorem Budgeted.start (cfg : LoopConfig) (setup : LoopSetup) :
    (World.start cfg setup).Budgeted where
  placed := .of_empty rfl rfl
  inOrder := rfl
  working _ ht := nomatch ht
  counted _ he := nomatch he
  retried _ ht := nomatch ht
  sending _ _ hp := nomatch hp

theorem Budgeted.call_taken (hb : w.Budgeted) {call : Call} (hp : w.pc = .calling call) :
    call.taken ∈ w.taken := by
  apply hb.working
  rw [World.working, hp]
  exact List.mem_append_right _ (.head _)

/-- A call that emits sends its output on. -/
theorem returned_emitted {call : Call} {answer : GuestAnswer} {answers : FailureAnswers}
    {out : RuntimeEnvelope} (h : w.returned cfg call answer answers = some w')
    (he : w.node.emitted cfg.role call.taken.envelope answer = some out) :
    w'.forwarded = out :: w.forwarded := by
  simp only [World.returned] at h
  split at h
  · next hr =>
    obtain ⟨⟨result, node⟩, ha, rfl⟩ := Option.map_eq_some_iff.mp h
    simp only [LoadedNode.emitted, hr, ha] at he
    cases result with
    | ok output =>
      obtain rfl := Option.some.inj he
      rfl
    | error error => cases he
  · next hr =>
    obtain ⟨⟨result, node⟩, ha, rfl⟩ := Option.map_eq_some_iff.mp h
    simp only [LoadedNode.emitted, hr, ha] at he
    cases result with
    | ok outcome =>
      cases outcome with
      | forward =>
        obtain rfl := Option.some.inj he
        rfl
      | drop => cases he
    | error error => cases he
  · next hr =>
    obtain ⟨⟨result, node⟩, ha, rfl⟩ := Option.map_eq_some_iff.mp h
    simp only [LoadedNode.emitted, hr, ha] at he
    cases result with
    | ok outcome =>
      cases outcome with
      | ports names =>
        cases names with
        | nil => cases he
        | cons name names =>
          obtain rfl := Option.some.inj he
          rfl
      | error error => cases he
    | error error => cases he

/-- A step after which nothing retried has been sent on meets the condition. -/
theorem Budgeted.keepsBudget (hb : w.Budgeted) (h : Wafer.step cfg w e = some w')
    (hf : ∀ envelope ∈ w'.forwarded, envelope.retryCount = 0) : w.KeepsBudget cfg e := by
  rintro call answer answers rfl hp hk he
  obtain ⟨out, ho⟩ := Option.isSome_iff_exists.mp he
  simp only [Wafer.step, hp] at h
  have h0 : out.retryCount = 0 := by
    apply hf
    rw [returned_emitted h ho]
    exact .head _
  rw [LoadedNode.emitted_retryCount ho, if_pos hk] at h0
  cases hr : call.taken.origin with
  | fresh => rfl
  | retry => exact absurd h0 (hb.retried _ (hb.call_taken hp) hr).ne'

theorem FullBudget.of_taken (hf : w.FullBudget) {t : Taken} (ht : t ∈ w.taken)
    (hr : t.origin = .fresh) : t.envelope.retryCount = 0 := by
  refine hf.entered _ (List.mem_append_left _ (List.mem_map_of_mem (List.mem_filter.mpr ⟨ht, ?_⟩)))
  exact decide_eq_true hr

theorem FullBudget.step (hf : w.FullBudget) (hb : w.Budgeted) (hk : w.KeepsBudget cfg e)
    (ha : ∀ envelope, e = .arrive envelope → envelope.retryCount = 0) (h : Transition cfg w e w') :
    w'.FullBudget where
  entered envelope hm := by
    rw [h.entered] at hm
    rcases List.mem_append.mp hm with hm | hm
    · exact hf.entered envelope hm
    · cases e with
      | arrive envelope' =>
        obtain rfl := List.mem_singleton.mp hm
        exact ha envelope rfl
      | _ => exact absurd hm List.not_mem_nil
  forwarded envelope hm := by
    rcases forwarded_step h with heq | ⟨call, answer, answers, out, rfl, hp, ho, heq⟩
    · exact hf.forwarded envelope (heq ▸ hm)
    rw [heq] at hm
    rcases List.mem_cons.mp hm with rfl | hm
    · rw [LoadedNode.emitted_retryCount ho]
      split
      · next hkeep =>
        apply hf.of_taken (hb.call_taken hp)
        exact hk call answer answers rfl hp hkeep (by rw [ho]; rfl)
      · rfl
    · exact hf.forwarded envelope hm

theorem FullBudget.start (cfg : LoopConfig) (setup : LoopSetup) :
    (World.start cfg setup).FullBudget :=
  ⟨fun _ hm => (nomatch hm), fun _ hm => (nomatch hm)⟩

end Steps

end World

namespace ErrorPolicyExecutor

variable {ex : ErrorPolicyExecutor} {category : ErrorCategory} {envelope : RuntimeEnvelope}

/-- How often the policy still retries `envelope`. -/
def retriesLeft (ex : ErrorPolicyExecutor) (category : ErrorCategory)
    (envelope : RuntimeEnvelope) : Nat :=
  (ex.retryConfig category).retries - envelope.retryCount

end ErrorPolicyExecutor

/-! ## The pipeline -/

namespace NodeTask

/-- What the node has sent on, newest first. -/
def forwarded : NodeTask → List RuntimeEnvelope
  | source l _ => l.forwarded
  | sink _ => []
  | passthrough l => l.forwarded
  | runner _ w => w.forwarded

def Budgeted : NodeTask → Prop
  | runner _ w => w.Budgeted
  | _ => True

def FullBudget : NodeTask → Prop
  | source l _ => l.Fresh
  | sink _ => True
  | passthrough l => l.Fresh
  | runner _ w => w.FullBudget

variable {t t' : NodeTask} {i : TaskInput}

theorem Budgeted.step (hb : t.Budgeted) (h : t.step i = some t') : t'.Budgeted := by
  cases task_step h with
  | source | refused | closed | sink | passthrough => trivial
  | runner fired => exact World.Budgeted.step hb (step_transition fired)

/-- The step is no success that sends on an envelope out of the retry buffer with its count. -/
def KeepsBudget (t : NodeTask) (i : TaskInput) : Prop :=
  ∀ cfg w e, t = .runner cfg w → i = .own (.runner e) → w.KeepsBudget cfg e

theorem FullBudget.step (hf : t.FullBudget) (hb : t.Budgeted) (hk : t.KeepsBudget i)
    (ha : ∀ envelope, i = .arrive envelope → envelope.retryCount = 0) (h : t.step i = some t') :
    t'.FullBudget := by
  cases task_step h with
  | source fired => exact SourceLoop.Fresh.step hf fired
  | refused | closed => exact hf
  | sink => trivial
  | passthrough fired input =>
    refine PassthroughLoop.Fresh.step hf ?_ fired
    rintro envelope rfl
    exact ha envelope input.symm
  | @runner cfg w w' e _ fired input =>
    refine World.FullBudget.step hf hb ?_ ?_ (step_transition fired)
    · rintro call answer answers rfl
      exact hk cfg w _ rfl input.symm call answer answers rfl
    · rintro envelope rfl
      exact ha envelope input.symm

theorem FullBudget.forwarded (hf : t.FullBudget) :
    ∀ envelope ∈ t.forwarded, envelope.retryCount = 0 := by
  cases t with
  | source => exact hf.1
  | sink => exact fun _ hm => nomatch hm
  | passthrough => exact PassthroughLoop.Fresh.forwarded hf
  | runner => exact World.FullBudget.forwarded hf

theorem FullBudget.sending (hf : t.FullBudget) (hb : t.Budgeted) {out : Outgoing}
    (ht : t.sending = some out) : out.envelope.retryCount = 0 := by
  cases t with
  | source l q =>
    simp only [NodeTask.sending] at ht
    split at ht
    · next hp =>
      obtain rfl := Option.some.inj ht
      exact hf.2 _ hp
    · exact absurd ht nofun
  | sink => exact absurd ht nofun
  | passthrough l =>
    simp only [NodeTask.sending] at ht
    split at ht
    · next hp =>
      obtain rfl := Option.some.inj ht
      exact PassthroughLoop.Fresh.sending hf _ hp
    · exact absurd ht nofun
  | runner cfg w =>
    simp only [NodeTask.sending] at ht
    split at ht
    · next hp =>
      obtain rfl := Option.some.inj ht
      exact World.FullBudget.forwarded hf _ (World.Budgeted.sending hb _ _ hp)
    · exact absurd ht nofun

/-- Nothing is taken back from what was sent on. -/
theorem forwarded_mono (h : t.step i = some t') : t.forwarded ⊆ t'.forwarded := by
  cases task_step h with
  | source fired => exact SourceLoop.forwarded_mono fired
  | refused | closed | sink => exact List.Subset.refl _
  | passthrough fired => exact PassthroughLoop.forwarded_mono fired
  | runner fired =>
    intro envelope hm
    change envelope ∈ World.forwarded _
    rcases World.forwarded_step (step_transition fired) with heq | ⟨_, _, _, out, -, -, -, heq⟩
    · exact heq ▸ hm
    · exact heq ▸ List.mem_cons_of_mem _ hm

end NodeTask

namespace Pipeline

/-- Nothing retried was sent on, and every node has all its retries for what it dequeued. -/
structure BudgetsFull (p : Pipeline) : Prop where
  forwarded : ∀ n t, p.tasks n = some t → ∀ envelope ∈ t.forwarded, envelope.retryCount = 0
  dequeued : ∀ n cfg w, p.tasks n = some (.runner cfg w) →
    ∀ taken ∈ w.taken, taken.origin = .fresh → ∀ category,
      w.policy.retriesLeft category taken.envelope = (w.policy.retryConfig category).retries

/-- No filter, router or native transform sends on an envelope out of its retry buffer. -/
def KeepsBudget (p : Pipeline) (e : PipelineEvent) : Prop :=
  ∀ n cfg w we, p.tasks n = some (.runner cfg w) → e = .task n (.runner we) → w.KeepsBudget cfg we

/-- No retried envelope is in a task's input, output or outbox. -/
structure Fresh (p : Pipeline) : Prop where
  budgeted : ∀ n t, p.tasks n = some t → t.Budgeted
  full : ∀ n t, p.tasks n = some t → t.FullBudget
  outbox : ∀ n entry, entry ∈ p.outbox n → entry.2.retryCount = 0

variable {cfg : PipelineConfig} {p p' : Pipeline} {e : PipelineEvent}

theorem budgeted_step (hb : ∀ n t, p.tasks n = some t → t.Budgeted) (h : p.step cfg e = some p') :
    ∀ n t, p'.tasks n = some t → t.Budgeted := by
  intro n t ht
  rcases step_tasks h n with hn | ⟨u, i, t', hu, ht', hi, -⟩
  · exact hb n t (hn ▸ ht)
  · obtain rfl := Option.some.inj (ht'.symm.trans ht)
    exact (hb n u hu).step hi

theorem Fresh.step (hf : p.Fresh) (hk : p.KeepsBudget e) (h : p.step cfg e = some p') :
    p'.Fresh := by
  have hb := budgeted_step hf.budgeted h
  have hfull : ∀ n t, p'.tasks n = some t → t.FullBudget := by
    intro n t ht
    rcases step_tasks h n with hn | ⟨u, i, t', hu, ht', hi, hc⟩
    · exact hf.full n t (hn ▸ ht)
    obtain rfl := Option.some.inj (ht'.symm.trans ht)
    refine (hf.full n u hu).step (hf.budgeted n u hu) ?_ ?_ hi
    · rintro cfg' w we rfl rfl
      cases hc with
      | own => exact hk n cfg' w we hu rfl
    · rintro envelope rfl
      cases hc with
      | arrive left =>
        obtain ⟨entry, hm, rfl⟩ := List.mem_map.mp left
        exact hf.outbox _ entry hm
  refine ⟨hb, hfull, fun n entry hm => ?_⟩
  rcases step_outbox h hm with hm | ⟨t, out, ht, hs, he⟩
  · exact hf.outbox n entry hm
  · rw [he]
    exact (hfull n t ht).sending (hb n t ht) hs

theorem Fresh.start (cfg : PipelineConfig) : (start cfg).Fresh := by
  have htask : ∀ n t, (Pipeline.start cfg).tasks n = some t → t.Budgeted ∧ t.FullBudget := by
    intro n t ht
    obtain ⟨spec, -, rfl⟩ := Option.map_eq_some_iff.mp ht
    have hq : (cfg.wiring.takeReceiver n).buffer = [] := by
      simp only [QueueWiring.takeReceiver]
      split <;> rfl
    cases spec with
    | source =>
      exact ⟨trivial, fun _ hm => (nomatch hm), fun _ hp => (nomatch hp)⟩
    | sink => exact ⟨trivial, trivial⟩
    | passthrough =>
      refine ⟨trivial, fun envelope hm => ?_, fun _ hm => (nomatch hm), fun _ hp => (nomatch hp)⟩
      exact absurd (hq ▸ hm) List.not_mem_nil
    | runner => exact ⟨.start .., .start ..⟩
  exact ⟨fun n t ht => (htask n t ht).1, fun n t ht => (htask n t ht).2, fun _ _ hm => nomatch hm⟩

theorem Fresh.budgetsFull (hf : p.Fresh) : p.BudgetsFull where
  forwarded n t ht := (hf.full n t ht).forwarded
  dequeued n cfg w ht taken hm hr category := by
    have h0 := (hf.full n _ ht : w.FullBudget).of_taken hm hr
    rw [ErrorPolicyExecutor.retriesLeft, h0, Nat.sub_zero]

/-- A step after which nothing retried has been sent on meets the condition, and nothing retried
had been sent on before. -/
theorem keepsBudget_of_forwarded (hb : ∀ n t, p.tasks n = some t → t.Budgeted)
    (h : p.step cfg e = some p')
    (hf : ∀ n t, p'.tasks n = some t → ∀ envelope ∈ t.forwarded, envelope.retryCount = 0) :
    (∀ n t, p.tasks n = some t → ∀ envelope ∈ t.forwarded, envelope.retryCount = 0) ∧
      p.KeepsBudget e := by
  constructor
  · intro n t ht envelope hm
    rcases step_tasks h n with hn | ⟨u, i, t', hu, ht', hi, -⟩
    · exact hf n t (hn.trans ht) envelope hm
    · obtain rfl := Option.some.inj (hu.symm.trans ht)
      exact hf n t' ht' envelope (NodeTask.forwarded_mono hi hm)
  · rintro n cfg' w we ht rfl
    obtain ⟨u, t', hu, -, hs, htasks⟩ := step_task h
    obtain rfl := Option.some.inj (hu.symm.trans ht)
    obtain ⟨w', hw, rfl⟩ := Option.map_eq_some_iff.mp hs
    refine World.Budgeted.keepsBudget (hb n _ ht) hw ?_
    exact hf n (.runner cfg' w') (by rw [htasks, Function.update_self])

/-- Retries are spent per node exactly when no filter, router or native transform sends on an
envelope it took from its retry buffer. -/
theorem retries_spent_per_node {events : List PipelineEvent} (h : run cfg events = some p) :
    p.BudgetsFull ↔ Lib.StepsMeet (step cfg) KeepsBudget (start cfg) events := by
  constructor
  · intro hp
    refine (Lib.StepsMeet.of_final (I := fun p => ∀ n t, p.tasks n = some t → t.Budgeted)
      (fun _ _ _ => budgeted_step) (fun _ _ _ => keepsBudget_of_forwarded) h
      (Fresh.start cfg).budgeted hp.forwarded).2
  · intro hk
    exact (Lib.exec_invariant_where (P := Fresh) (fun _ _ _ => Fresh.step) h hk
      (.start cfg)).budgetsFull

/-! The filter retries a message once and sends it on. -/

def retryAnswer : Event :=
  .returned (.evaluate { result := .ok (.error (.processingFailed "busy")) }) noFailure

def failAnswer : Event :=
  .returned (.process { result := .ok (.error (.processingFailed "busy")) }) noFailure

def retriedRun : List PipelineEvent :=
  screenCalled ++ ofNode "screen" ([retryAnswer] ++ idleRound ++
    [.tick nsPerMs, .select .timer, .advance, .advance, .advance, keepAnswer]) ++
    [.deliver "screen" ⟨0, .ok⟩] ++
    ofNode "last" (idleRound ++ [.select .recv, .advance, failAnswer])

theorem retries_spent_per_node_completed :
    ∃ p, run (screened (.sink none)) completedRun = some p ∧ p.BudgetsFull := by
  have hr : ∃ p, run (screened (.sink none)) completedRun = some p := ⟨_, rfl⟩
  have hcalled : ∃ p, run (screened (.sink none)) screenCalled = some p ∧
      ∃ cfg w call, p.tasks "screen" = some (.runner cfg w) ∧ w.pc = .calling call ∧
        call.taken.origin = .fresh := ⟨_, rfl, _, _, _, rfl, rfl, rfl⟩
  obtain ⟨p, h⟩ := hr
  obtain ⟨q, hq, cfg, w, call, ht, hp, ho⟩ := hcalled
  refine ⟨p, h, (retries_spent_per_node h).mpr (.append (.append (.of_forall ?_) ?_) ?_)⟩
  · rintro s e he n _ _ we - rfl call answer answers rfl
    simp [screenCalled, meterRun, ofNode, idleRound] at he
  · intro s hs
    obtain rfl := Option.some.inj (hq.symm.trans hs)
    refine ⟨?_, fun _ _ => trivial⟩
    rintro n _ _ we ht' he call' answer answers rfl hp' - -
    obtain ⟨rfl, -⟩ := PipelineEvent.task.inj he
    obtain ⟨rfl, rfl⟩ := NodeTask.runner.inj (Option.some.inj (ht.symm.trans ht'))
    obtain rfl := Pc.calling.inj (hp.symm.trans hp')
    exact ho
  · intro s _
    refine .of_forall ?_
    rintro s e he n _ _ we - rfl call answer answers rfl
    simp [screenEnd, ofNode, idleRound] at he

/-- The next node is left without the one retry it is configured for. -/
theorem retried_message_spends_budget :
    ∃ p, run (screened (.runner ⟨.transform, "last", {}⟩ sampleSetup)) retriedRun = some p ∧
      ¬ p.BudgetsFull ∧ ∃ cfg w, p.tasks "last" = some (.runner cfg w) ∧
        (w.policy.retryConfig .processingFailed).retries = 1 ∧ w.metrics.retries = 0 ∧
        w.metrics.exhaustedSkips = 1 := by
  have hr : ∃ p, run (screened (.runner ⟨.transform, "last", {}⟩ sampleSetup)) retriedRun = some p ∧
      (∃ t envelope, p.tasks "screen" = some t ∧ t.forwarded = [envelope] ∧
        envelope.retryCount = 1) ∧
      ∃ cfg w, p.tasks "last" = some (.runner cfg w) ∧
        (w.policy.retryConfig .processingFailed).retries = 1 ∧ w.metrics.retries = 0 ∧
        w.metrics.exhaustedSkips = 1 :=
    ⟨_, rfl, ⟨_, _, rfl, rfl, rfl⟩, _, _, rfl, rfl, rfl, rfl⟩
  obtain ⟨p, h, ⟨t, envelope, ht, hf, hc⟩, hlast⟩ := hr
  refine ⟨p, h, ?_, hlast⟩
  intro hp
  have h0 := hp.forwarded "screen" t ht envelope (by rw [hf]; exact .head _)
  exact absurd (hc.symm.trans h0) nofun

end Pipeline

end Wafer
