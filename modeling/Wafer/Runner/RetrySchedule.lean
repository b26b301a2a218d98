import Mathlib.Logic.Function.Basic
import Wafer.Runner.PolicyRuns

/-!
# The retry schedule

An `ErrorPolicyExecutor` under any sequence of failures, with the envelopes of
its node under numbers: those the node works on, those that wait in the retry
buffer, and a record of what was buffered, handed out and flushed. Categories
share the envelope's retry count, each with its own limit.

## Main results

- `ErrorPolicyExecutor.computeBackoff_eq` — the delay, saturation and all
- `RetryRun.scheduled` — what holds of the schedule after every run
-/

namespace Wafer

/-- A buffered entry under the number of its envelope: which retry it is, and since when. -/
structure Waiting where
  number : ℕ
  attempt : ℕ
  since : ℕ
  entry : RetryEntry

/-- An entry taken out of the buffer, and everything that was in it. -/
structure HandOut where
  now : ℕ
  taken : Waiting
  among : List Waiting

/-- An entry that is handed out was due, and none that was due had an earlier deadline. -/
structure HandOut.InOrder (o : HandOut) : Prop where
  mem : o.taken ∈ o.among
  due : o.taken.entry.nextAttemptAt ≤ o.now
  earliest : ∀ w ∈ o.among, w.entry.nextAttemptAt ≤ o.now →
    o.taken.entry.nextAttemptAt ≤ w.entry.nextAttemptAt

structure RetryRun where
  executor : ErrorPolicyExecutor
  metrics : NodeMetrics := {}
  inHand : ℕ → Option RuntimeEnvelope := fun _ => none
  waiting : List Waiting := []
  entered : List ℕ := []
  /-- the retry count each envelope came with -/
  came : ℕ → ℕ := fun _ => 0
  /-- how often the policy answered `retried` -/
  retried : ℕ → ℕ := fun _ => 0
  buffered : List Waiting := []
  handedOut : List HandOut := []
  /-- what each flush took, and when -/
  flushed : List (ℕ × Waiting) := []

inductive RetryOp
  /-- a message is received -/
  | enter (number : ℕ) (envelope : RuntimeEnvelope)
  /-- a call failed -/
  | fail (number now : ℕ) (attempt : DlqAttempt) (error : WasmProcessError)
  /-- a due entry is taken up again -/
  | handOut (now : ℕ)
  /-- a call answered -/
  | answer (number : ℕ)
  /-- the instance of the message is replaced -/
  | condemn (number : ℕ) (attempt : DlqAttempt) (error : WasmProcessError)
  /-- hot swap, shutdown or failed recovery -/
  | flush (now : ℕ) (reason : DlqReason) (attempts : ℕ → DlqAttempt)

namespace RetryRun

def step (s : RetryRun) : RetryOp → Option RetryRun
  | .enter number envelope =>
    if number ∈ s.entered then none
    else
      some { s with
        inHand := Function.update s.inHand number (some envelope)
        entered := s.entered ++ [number]
        came := Function.update s.came number envelope.retryCount }
  | .fail number now attempt error =>
    (s.inHand number).map fun envelope =>
      let r := s.executor.handle now attempt error envelope
      -- the entry the executor pushed, if it did
      let pushed := (r.2.retryBuffer.entries.drop s.waiting.length).map fun entry =>
        { number, attempt := s.retried number + 1, since := now, entry : Waiting }
      { s with
        executor := r.2
        inHand := Function.update s.inHand number none
        waiting := s.waiting ++ pushed
        retried := if r.1 = .retried then Function.update s.retried number (s.retried number + 1)
          else s.retried
        buffered := s.buffered ++ pushed }
  | .handOut now =>
    match s.executor.nextReadyRetry now, s.executor.retryBuffer.earliestDue now with
    | some (envelope, executor), some (_, index) =>
      (s.waiting[index]?).map fun taken =>
        { s with
          executor
          inHand := Function.update s.inHand taken.number (some envelope)
          waiting := s.waiting.eraseIdx index
          handedOut := s.handedOut ++ [⟨now, taken, s.waiting⟩] }
    | _, _ => none
  | .answer number =>
    (s.inHand number).map fun _ => { s with inHand := Function.update s.inHand number none }
  | .condemn number attempt error =>
    (s.inHand number).map fun envelope =>
      let r := s.executor.recordCondemned attempt envelope error s.metrics
      { s with executor := r.1, metrics := r.2, inHand := Function.update s.inHand number none }
  | .flush now reason attempts =>
    let r := s.executor.flushToDlq reason attempts s.metrics
    some { s with
      executor := r.1
      metrics := r.2
      waiting := s.waiting.take r.1.pendingRetries
      flushed := s.flushed ++ (s.waiting.drop r.1.pendingRetries).map fun w => (now, w) }

def run (ex : ErrorPolicyExecutor) (ops : List RetryOp) : Option RetryRun :=
  Lib.exec step { executor := ex } ops

end RetryRun

namespace ErrorPolicyExecutor

variable {ex : ErrorPolicyExecutor} {now : ℕ} {attempt : DlqAttempt} {error : WasmProcessError}
  {envelope : RuntimeEnvelope} {category : ErrorCategory}

/-- The saturating product and the bound on the exponent lie above the cap, so that neither shows. -/
theorem computeBackoff_eq (ex : ErrorPolicyExecutor) (category : ErrorCategory) (k : ℕ) :
    ex.computeBackoff category k =
      min ((ex.retryConfig category).backoffMs * 2 ^ (k - 1)) maxBackoffMs * nsPerMs := by
  have hsat : ∀ ms, min (min ms u64Max) maxBackoffMs = min ms maxBackoffMs := by
    intro ms
    simp only [u64Max, maxBackoffMs]
    omega
  simp only [computeBackoff, hsat]
  congr 1
  generalize (ex.retryConfig category).backoffMs = backoff
  by_cases hk : k - 1 ≤ 20
  · rw [Nat.min_eq_left hk]
  · rw [show min (k - 1) 20 = 20 by omega]
    by_cases hzero : backoff = 0
    · rw [hzero, Nat.zero_mul, Nat.zero_mul]
    · -- past the cap from the twentieth doubling on
      have hpow : 2 ^ 20 ≤ 2 ^ (k - 1) := Nat.pow_le_pow_right (by decide) (by omega)
      have hcap : maxBackoffMs ≤ 2 ^ 20 := by decide
      have hlow : maxBackoffMs ≤ backoff * 2 ^ 20 :=
        hcap.trans (Nat.le_mul_of_pos_left _ (by omega))
      have hhigh : backoff * 2 ^ 20 ≤ backoff * 2 ^ (k - 1) := Nat.mul_le_mul_left _ hpow
      rw [Nat.min_eq_right hlow, Nat.min_eq_right (hlow.trans hhigh)]

theorem computeBackoff_mono (ex : ErrorPolicyExecutor) (category : ErrorCategory) {j k : ℕ}
    (h : j ≤ k) : ex.computeBackoff category j ≤ ex.computeBackoff category k := by
  rw [computeBackoff_eq, computeBackoff_eq]
  have hpow : 2 ^ (j - 1) ≤ 2 ^ (k - 1) := Nat.pow_le_pow_right (by decide) (by omega)
  have hmul := Nat.mul_le_mul_left (ex.retryConfig category).backoffMs hpow
  apply Nat.mul_le_mul_right
  omega

/-- The entry of another attempt. -/
def retryEntry (ex : ErrorPolicyExecutor) (now : ℕ) (category : ErrorCategory)
    (envelope : RuntimeEnvelope) : RetryEntry :=
  let next := min (envelope.retryCount+1) u32Max
  { envelope := { envelope with retryCount := next }, category, retryCount := next,
    nextAttemptAt := now + ex.computeBackoff category next }

/-- What the policy answers: it buffers the envelope while retries of the category are left and the
buffer has room, or leaves the buffer alone. -/
inductive Answer (ex : ErrorPolicyExecutor) (now : ℕ) (error : WasmProcessError)
    (envelope : RuntimeEnvelope) (r : ErrorPolicyAction × ErrorPolicyExecutor) : Prop
  | retried {category : ErrorCategory} (kind : error.retryCategory = some category)
      (left : envelope.retryCount < (ex.retryConfig category).retries)
      (room : ex.retryBuffer.entries.length < ex.retryBuffer.capacity)
      (result : r = (.retried,
        { ex with retryBuffer := ex.retryBuffer.push (ex.retryEntry now category envelope) }))
  | settled (action : r.1 ≠ .retried) (buffer : r.2.retryBuffer = ex.retryBuffer)
      (config : r.2.config = ex.config)

theorem sendToDlq_answer (attempt : DlqAttempt) (category : Option ErrorCategory) (message : String)
    (count : ℕ) (reason : DlqReason) :
    Answer ex now error envelope
      (ex.sendToDlq attempt envelope category message count reason) := by
  obtain ⟨hbuffer, hconfig⟩ := sendToDlq_frame ex attempt envelope category message count reason
  refine .settled ?_ hbuffer hconfig
  intro h
  obtain ha | ha | ha := sendToDlq_action ex attempt envelope category message count reason
  all_goals exact nomatch ha.symm.trans h

theorem tryRetry_answer (hkind : error.retryCategory = some category) (attempt : DlqAttempt)
    (message : String) :
    Answer ex now error envelope (ex.tryRetry now attempt envelope category message) := by
  simp only [tryRetry]
  by_cases hleft : (ex.retryConfig category).retries ≤ envelope.retryCount
  · rw [if_pos hleft]
    cases (ex.retryConfig category).exhausted with
    | skip | teardown => exact .settled nofun rfl rfl
    | dlq => exact sendToDlq_answer ..
  · rw [if_neg hleft]
    by_cases hfull : ex.retryBuffer.isFull = true
    · rw [if_pos hfull]
      exact sendToDlq_answer ..
    · rw [if_neg hfull]
      have hroom : ex.retryBuffer.entries.length < ex.retryBuffer.capacity := by
        simpa [RetryBuffer.isFull] using hfull
      exact .retried hkind (Nat.lt_of_not_le hleft) hroom rfl

theorem timedOut_answer (attempt : DlqAttempt) (message : String) :
    Answer ex now error envelope (ex.timedOut attempt envelope message) := by
  simp only [timedOut]
  cases ex.config.timedOut with
  | skip | teardown => exact .settled (by rintro ⟨⟩) rfl rfl
  | dlq => exact sendToDlq_answer ..

theorem handle_answer (ex : ErrorPolicyExecutor) (now : ℕ) (attempt : DlqAttempt)
    (error : WasmProcessError) (envelope : RuntimeEnvelope) :
    Answer ex now error envelope (ex.handle now attempt error envelope) := by
  cases error with
  | badInput message =>
    simp only [handle]
    cases ex.config.badInput with
    | skip | teardown => exact .settled (by rintro ⟨⟩) rfl rfl
    | dlq => exact sendToDlq_answer ..
  | dependencyFailed message => exact tryRetry_answer rfl attempt message
  | processingFailed message => exact tryRetry_answer rfl attempt message
  | timedOut => exact timedOut_answer ..
  | trapped code message =>
    simp only [handle]
    split
    · exact timedOut_answer ..
    · exact .settled (by rintro ⟨⟩) rfl rfl
  | unrecoverable message => exact .settled (by rintro ⟨⟩) rfl rfl

theorem flushEntries_config (reason : DlqReason) (entries : List RetryEntry)
    (attempts : ℕ → DlqAttempt) (ex : ErrorPolicyExecutor) (m : NodeMetrics) :
    (flushEntries reason entries attempts ex m).1.config = ex.config := by
  induction entries generalizing attempts ex m with
  | nil => rfl
  | cons entry entries ih =>
    rw [flushEntries, ih]
    exact (sendToDlq_frame ..).2

theorem recordCondemned_config (ex : ErrorPolicyExecutor) (attempt : DlqAttempt)
    (envelope : RuntimeEnvelope) (error : WasmProcessError) (m : NodeMetrics) :
    (ex.recordCondemned attempt envelope error m).1.config = ex.config := by
  simp only [recordCondemned]
  split
  · rfl
  · exact (sendToDlq_frame ..).2

end ErrorPolicyExecutor

/-- The due entry that is handed out, with its place in the buffer. -/
theorem RetryBuffer.earliestDue_spec {b : RetryBuffer} {now index : ℕ} {entry : RetryEntry}
    (h : b.earliestDue now = some (entry, index)) :
    b.entries[index]? = some entry ∧ entry.nextAttemptAt ≤ now ∧
      ∀ other ∈ b.entries, other.nextAttemptAt ≤ now → entry.nextAttemptAt ≤ other.nextAttemptAt := by
  have hmem := List.minOn?_mem h
  rw [List.mem_filter] at hmem
  refine ⟨List.mem_zipIdx_iff_getElem?.mp hmem.1, of_decide_eq_true hmem.2, ?_⟩
  intro other hother hdue
  obtain ⟨i, hi⟩ := List.mem_iff_getElem?.mp hother
  have hin : (other, i) ∈ b.entries.zipIdx.filter fun p => decide (p.1.nextAttemptAt ≤ now) := by
    rw [List.mem_filter]
    exact ⟨List.mem_zipIdx_iff_getElem?.mpr hi, decide_eq_true hdue⟩
  have hle := List.apply_get_minOn?_le_of_mem (f := fun p : RetryEntry × ℕ => p.1.nextAttemptAt) hin
  rw [earliestDue] at h
  simpa only [h, Option.get_some] using hle

/-- Some due entry is handed out as long as there is one. -/
theorem RetryBuffer.earliestDue_isSome {b : RetryBuffer} {now : ℕ} {entry : RetryEntry}
    (hmem : entry ∈ b.entries) (hdue : entry.nextAttemptAt ≤ now) :
    (b.earliestDue now).isSome = true := by
  obtain ⟨i, hi⟩ := List.mem_iff_getElem?.mp hmem
  apply List.isSome_minOn?_of_mem (x := (entry, i))
  rw [List.mem_filter]
  exact ⟨List.mem_zipIdx_iff_getElem?.mpr hi, decide_eq_true hdue⟩

/-- Largest configured retry count. -/
def ResolvedErrorPolicy.maxRetries (policy : ResolvedErrorPolicy) : ℕ :=
  max policy.dependencyFailed.retries policy.processingFailed.retries

theorem ErrorPolicyExecutor.retries_le (ex : ErrorPolicyExecutor) (category : ErrorCategory) :
    (ex.retryConfig category).retries ≤ ex.config.maxRetries := by
  cases category with
  | dependencyFailed => exact Nat.le_max_left ..
  | badInput | processingFailed | timedOut | unrecoverable => exact Nat.le_max_right ..

namespace RetryRun

/-! ## What a step does -/

/-- The waiting entries are those of the buffer, in its order. -/
def Aligned (s : RetryRun) : Prop :=
  s.waiting.map Waiting.entry = s.executor.retryBuffer.entries

/-- The entry of a failed envelope's next attempt, under its number. -/
def nextAttempt (s : RetryRun) (number now : ℕ) (category : ErrorCategory)
    (envelope : RuntimeEnvelope) : Waiting where
  number
  attempt := s.retried number + 1
  since := now
  entry := s.executor.retryEntry now category envelope

/-- What a step does to the envelopes of the node. -/
inductive Move (s : RetryRun) : RetryRun → Prop
  | entered {number : ℕ} {envelope : RuntimeEnvelope} (new : number ∉ s.entered) :
      Move s { s with
        inHand := Function.update s.inHand number (some envelope)
        entered := s.entered ++ [number]
        came := Function.update s.came number envelope.retryCount }
  | buffered {number : ℕ} (now : ℕ) {category : ErrorCategory} {envelope : RuntimeEnvelope}
      (held : s.inHand number = some envelope)
      (limited : category = .dependencyFailed ∨ category = .processingFailed)
      (left : envelope.retryCount < (s.executor.retryConfig category).retries)
      (room : s.executor.retryBuffer.entries.length < s.executor.retryBuffer.capacity) :
      Move s { s with
        executor := { s.executor with
          retryBuffer := s.executor.retryBuffer.push (s.executor.retryEntry now category envelope) }
        inHand := Function.update s.inHand number none
        waiting := s.waiting ++ [s.nextAttempt number now category envelope]
        retried := Function.update s.retried number (s.retried number + 1)
        buffered := s.buffered ++ [s.nextAttempt number now category envelope] }
  /-- the envelope leaves the node, or was never there -/
  | settled {number : ℕ} {executor : ErrorPolicyExecutor} {metrics : NodeMetrics}
      (buffer : executor.retryBuffer = s.executor.retryBuffer)
      (config : executor.config = s.executor.config) :
      Move s { s with executor, metrics, inHand := Function.update s.inHand number none }
  | handedOut {now index : ℕ} {taken : Waiting} (at_ : s.waiting[index]? = some taken)
      (due : taken.entry.nextAttemptAt ≤ now)
      (earliest : ∀ w ∈ s.waiting, w.entry.nextAttemptAt ≤ now →
        taken.entry.nextAttemptAt ≤ w.entry.nextAttemptAt) :
      Move s { s with
        executor := { s.executor with
          retryBuffer := { s.executor.retryBuffer with
            entries := s.executor.retryBuffer.entries.eraseIdx index } }
        inHand := Function.update s.inHand taken.number (some taken.entry.envelope)
        waiting := s.waiting.eraseIdx index
        handedOut := s.handedOut ++ [⟨now, taken, s.waiting⟩] }
  | flushed {now : ℕ} {executor : ErrorPolicyExecutor} {metrics : NodeMetrics}
      (buffer : executor.retryBuffer = { s.executor.retryBuffer with entries := [] })
      (config : executor.config = s.executor.config) :
      Move s { s with
        executor, metrics
        waiting := []
        flushed := s.flushed ++ s.waiting.map fun w => (now, w) }

variable {s t : RetryRun} {op : RetryOp} {policy : ResolvedErrorPolicy}

theorem Move.of_fail {number now : ℕ} {attempt : DlqAttempt} {error : WasmProcessError}
    (ha : s.Aligned) (h : s.step (.fail number now attempt error) = some t) : Move s t := by
  simp only [RetryRun.step, Option.map_eq_some_iff] at h
  obtain ⟨envelope, hheld, rfl⟩ := h
  have hlen : s.waiting.length = s.executor.retryBuffer.entries.length := by
    rw [← ha, List.length_map]
  have hanswer := s.executor.handle_answer now attempt error envelope
  generalize s.executor.handle now attempt error envelope = r at hanswer
  cases hanswer with
  | retried kind left room result =>
    subst result
    rename_i category
    have hlimited : category = .dependencyFailed ∨ category = .processingFailed := by
      cases error with
      | dependencyFailed => exact .inl (Option.some.inj kind).symm
      | processingFailed => exact .inr (Option.some.inj kind).symm
      | badInput | timedOut | trapped | unrecoverable => cases kind
    have hmove := Move.buffered now hheld hlimited left room
    simp only [RetryBuffer.push, hlen, List.drop_left, List.map_cons, List.map_nil, if_true]
    exact hmove
  | settled action buffer config =>
    have hmove : Move s { s with
        executor := r.2, inHand := Function.update s.inHand number none } := .settled buffer config
    simp only [buffer, hlen, List.drop_length, List.map_nil, List.append_nil, if_neg action]
    exact hmove

theorem Move.of_handOut {now : ℕ} (ha : s.Aligned) (h : s.step (.handOut now) = some t) :
    Move s t := by
  simp only [RetryRun.step] at h
  split at h
  · next envelope executor entry index hready hdue =>
    obtain ⟨taken, htaken, rfl⟩ := Option.map_eq_some_iff.mp h
    obtain ⟨hat, hle, hearliest⟩ := RetryBuffer.earliestDue_spec hdue
    have hentry : taken.entry = entry := by
      rw [← ha, List.getElem?_map, htaken] at hat
      exact Option.some.inj hat
    subst hentry
    simp only [ErrorPolicyExecutor.nextReadyRetry, RetryBuffer.nextReady, hdue, Option.map_some,
      Option.some.injEq, Prod.mk.injEq] at hready
    obtain ⟨rfl, rfl⟩ := hready
    refine .handedOut htaken hle ?_
    intro w hw hwdue
    exact hearliest w.entry (ha ▸ List.mem_map_of_mem hw) hwdue
  · cases h

theorem Move.of_step (ha : s.Aligned) (h : s.step op = some t) : Move s t := by
  cases op with
  | enter number envelope =>
    simp only [RetryRun.step] at h
    split at h
    · cases h
    · next hnew =>
      obtain rfl := Option.some.inj h
      exact .entered hnew
  | fail number now attempt error => exact .of_fail ha h
  | handOut now => exact .of_handOut ha h
  | answer number =>
    obtain ⟨envelope, -, rfl⟩ := Option.map_eq_some_iff.mp h
    exact .settled rfl rfl
  | condemn number attempt error =>
    obtain ⟨envelope, -, rfl⟩ := Option.map_eq_some_iff.mp h
    exact .settled (s.executor.recordCondemned_spec attempt envelope error s.metrics).1
      (s.executor.recordCondemned_config attempt envelope error s.metrics)
  | flush now reason attempts =>
    obtain rfl := Option.some.inj h
    have hmove : Move s { s with
        executor := (s.executor.flushToDlq reason attempts s.metrics).1
        metrics := (s.executor.flushToDlq reason attempts s.metrics).2
        waiting := []
        flushed := s.flushed ++ s.waiting.map fun w => (now, w) } :=
      .flushed (s.executor.flushToDlq_spec reason attempts s.metrics).1
        (ErrorPolicyExecutor.flushEntries_config ..)
    simp only [ErrorPolicyExecutor.flushToDlq_pending, List.take_zero, List.drop_zero]
    exact hmove

/-! ## Who is where -/

/-- An envelope that entered is worked on, waits, or has left; its retry count counts on from the
one it came with. -/
structure Numbered (s : RetryRun) : Prop where
  aligned : s.Aligned
  nodup : (s.waiting.map Waiting.number).Nodup
  apart : ∀ w ∈ s.waiting, s.inHand w.number = none
  known : ∀ n, n ∉ s.entered → s.inHand n = none ∧ s.retried n = 0
  knownWaiting : ∀ w ∈ s.waiting, w.number ∈ s.entered
  knownBuffered : ∀ w ∈ s.buffered, w.number ∈ s.entered
  countInHand : ∀ n e, s.inHand n = some e → e.retryCount = s.came n + s.retried n
  countWaiting : ∀ w ∈ s.waiting, w.entry.envelope.retryCount = s.came w.number + s.retried w.number

theorem Numbered.entered (h : s.Numbered) {number : ℕ} {envelope : RuntimeEnvelope}
    (hnew : number ∉ s.entered) :
    Numbered { s with
      inHand := Function.update s.inHand number (some envelope)
      entered := s.entered ++ [number]
      came := Function.update s.came number envelope.retryCount } := by
  have hne : ∀ w ∈ s.waiting, w.number ≠ number := fun w hw he => hnew (he ▸ h.knownWaiting w hw)
  refine ⟨h.aligned, h.nodup, ?_, ?_, ?_, ?_, ?_, ?_⟩
  · intro w hw
    simp only [Function.update_of_ne (hne w hw)]
    exact h.apart w hw
  · intro n hn
    rw [List.mem_append, List.mem_singleton, not_or] at hn
    simp only [Function.update_of_ne hn.2]
    exact h.known n hn.1
  · intro w hw
    exact List.mem_append_left _ (h.knownWaiting w hw)
  · intro w hw
    exact List.mem_append_left _ (h.knownBuffered w hw)
  · intro n e he
    by_cases hn : n = number
    · subst hn
      simp only [Function.update_self, Option.some.injEq] at he ⊢
      rw [he, (h.known n hnew).2, Nat.add_zero]
    · simp only [Function.update_of_ne hn] at he ⊢
      exact h.countInHand n e he
  · intro w hw
    simp only [Function.update_of_ne (hne w hw)]
    exact h.countWaiting w hw

/-- An envelope in hand that fails moves to the end of the buffer. -/
theorem Numbered.buffered (h : s.Numbered) {number now : ℕ} {category : ErrorCategory}
    {envelope : RuntimeEnvelope} (hheld : s.inHand number = some envelope)
    (hcount : envelope.retryCount + 1 ≤ u32Max) :
    Numbered { s with
      executor := { s.executor with
        retryBuffer := s.executor.retryBuffer.push (s.executor.retryEntry now category envelope) }
      inHand := Function.update s.inHand number none
      waiting := s.waiting ++ [s.nextAttempt number now category envelope]
      retried := Function.update s.retried number (s.retried number + 1)
      buffered := s.buffered ++ [s.nextAttempt number now category envelope] } := by
  have hne : ∀ w ∈ s.waiting, w.number ≠ number := by
    rintro w hw rfl
    exact nomatch (h.apart w hw).symm.trans hheld
  have hentered : number ∈ s.entered := by
    by_contra hnew
    exact nomatch (h.known number hnew).1.symm.trans hheld
  refine ⟨?_, ?_, ?_, ?_, ?_, ?_, ?_, ?_⟩
  · simp only [Aligned, List.map_append, RetryBuffer.push, List.map_cons, List.map_nil, nextAttempt]
    exact congrArg (· ++ _) h.aligned
  · rw [List.map_append, List.nodup_append]
    refine ⟨h.nodup, List.nodup_singleton _, ?_⟩
    intro n hn m hm
    obtain ⟨w, hw, rfl⟩ := List.mem_map.mp hn
    obtain rfl := List.mem_singleton.mp hm
    exact hne w hw
  · intro w hw
    rw [List.mem_append, List.mem_singleton] at hw
    obtain hw | rfl := hw
    · simp only [Function.update_of_ne (hne w hw)]
      exact h.apart w hw
    · exact Function.update_self ..
  · intro n hn
    have hn' : n ≠ number := fun he => hn (he ▸ hentered)
    simp only [Function.update_of_ne hn']
    exact h.known n hn
  · intro w hw
    rw [List.mem_append, List.mem_singleton] at hw
    obtain hw | rfl := hw
    · exact h.knownWaiting w hw
    · exact hentered
  · intro w hw
    rw [List.mem_append, List.mem_singleton] at hw
    obtain hw | rfl := hw
    · exact h.knownBuffered w hw
    · exact hentered
  · intro n e he
    by_cases hn : n = number
    · subst hn
      simp only [Function.update_self, reduceCtorEq] at he
    · simp only [Function.update_of_ne hn] at he ⊢
      exact h.countInHand n e he
  · intro w hw
    rw [List.mem_append, List.mem_singleton] at hw
    obtain hw | rfl := hw
    · simp only [Function.update_of_ne (hne w hw)]
      exact h.countWaiting w hw
    -- the entry goes in with its count raised, and so does the number of its retries
    · have hc := h.countInHand number envelope hheld
      simp only [nextAttempt, ErrorPolicyExecutor.retryEntry, Function.update_self]
      omega

theorem Numbered.settled (h : s.Numbered) {number : ℕ} {executor : ErrorPolicyExecutor}
    {metrics : NodeMetrics} (hbuffer : executor.retryBuffer = s.executor.retryBuffer) :
    Numbered { s with executor, metrics, inHand := Function.update s.inHand number none } := by
  refine ⟨?_, h.nodup, ?_, ?_, h.knownWaiting, h.knownBuffered, ?_, h.countWaiting⟩
  · simp only [Aligned, hbuffer]
    exact h.aligned
  · intro w hw
    by_cases hn : w.number = number
    · rw [hn]
      exact Function.update_self ..
    · simp only [Function.update_of_ne hn]
      exact h.apart w hw
  · intro n hn
    refine ⟨?_, (h.known n hn).2⟩
    by_cases he : n = number
    · rw [he]
      exact Function.update_self ..
    · simp only [Function.update_of_ne he]
      exact (h.known n hn).1
  · intro n e he
    by_cases hn : n = number
    · subst hn
      simp only [Function.update_self, reduceCtorEq] at he
    · simp only [Function.update_of_ne hn] at he
      exact h.countInHand n e he

theorem Numbered.handedOut (h : s.Numbered) {now index : ℕ} {taken : Waiting}
    (hat : s.waiting[index]? = some taken) :
    Numbered { s with
      executor := { s.executor with
        retryBuffer := { s.executor.retryBuffer with
          entries := s.executor.retryBuffer.entries.eraseIdx index } }
      inHand := Function.update s.inHand taken.number (some taken.entry.envelope)
      waiting := s.waiting.eraseIdx index
      handedOut := s.handedOut ++ [⟨now, taken, s.waiting⟩] } := by
  have hmem : taken ∈ s.waiting := List.mem_of_getElem? hat
  have hsub : ∀ w ∈ s.waiting.eraseIdx index, w ∈ s.waiting := fun w hw => List.mem_of_mem_eraseIdx hw
  obtain ⟨hlt, hget⟩ := List.getElem?_eq_some_iff.mp hat
  -- the numbers left behind are those of the others, since no number waits twice
  have hperm : (taken :: s.waiting.eraseIdx index).Perm s.waiting := by
    rw [← hget]
    exact List.getElem_cons_eraseIdx_perm hlt
  have hnodup := (hperm.map Waiting.number).nodup_iff.mpr h.nodup
  rw [List.map_cons, List.nodup_cons] at hnodup
  have hne : ∀ w ∈ s.waiting.eraseIdx index, w.number ≠ taken.number := by
    intro w hw he
    exact hnodup.1 (he ▸ List.mem_map_of_mem hw)
  refine ⟨?_, hnodup.2, ?_, ?_, ?_, h.knownBuffered, ?_, ?_⟩
  · exact (List.eraseIdx_map ..).symm.trans (congrArg (·.eraseIdx index) h.aligned)
  · intro w hw
    simp only [Function.update_of_ne (hne w hw)]
    exact h.apart w (hsub w hw)
  · intro n hn
    have hn' : n ≠ taken.number := fun he => hn (he ▸ h.knownWaiting taken hmem)
    simp only [Function.update_of_ne hn']
    exact h.known n hn
  · intro w hw
    exact h.knownWaiting w (hsub w hw)
  · intro n e he
    by_cases hn : n = taken.number
    · subst hn
      simp only [Function.update_self, Option.some.injEq] at he
      rw [← he]
      exact h.countWaiting taken hmem
    · simp only [Function.update_of_ne hn] at he
      exact h.countInHand n e he
  · intro w hw
    exact h.countWaiting w (hsub w hw)

theorem Numbered.flushed (h : s.Numbered) {now : ℕ} {executor : ErrorPolicyExecutor}
    {metrics : NodeMetrics}
    (hbuffer : executor.retryBuffer = { s.executor.retryBuffer with entries := [] }) :
    Numbered { s with
      executor, metrics
      waiting := []
      flushed := s.flushed ++ s.waiting.map fun w => (now, w) } := by
  refine ⟨?_, .nil, ?_, h.known, ?_, h.knownBuffered, h.countInHand, ?_⟩
  · simp only [Aligned, hbuffer, List.map_nil]
  all_goals
    intro w hw
    exact nomatch hw

/-- The executor keeps its configuration, and its buffer stays within capacity. -/
structure Limited (policy : ResolvedErrorPolicy) (s : RetryRun) : Prop where
  numbered : s.Numbered
  config : s.executor.config = policy
  capacity : s.executor.retryBuffer.capacity = policy.retryBufferCapacity
  room : s.executor.retryBuffer.entries.length ≤ policy.retryBufferCapacity
  retried : ∀ n, s.retried n = 0 ∨ s.came n + s.retried n ≤ policy.maxRetries

theorem Limited.start (policy : ResolvedErrorPolicy) (dlqSender : Option DlqSender)
    (sourceNode : String) :
    Limited policy { executor := .new policy dlqSender sourceNode } := by
  refine ⟨⟨rfl, .nil, ?_, ?_, ?_, ?_, ?_, ?_⟩, rfl, rfl, Nat.zero_le _, ?_⟩
  · exact fun w hw => nomatch hw
  · exact fun n _ => ⟨rfl, rfl⟩
  · exact fun w hw => nomatch hw
  · exact fun w hw => nomatch hw
  · exact fun n e he => nomatch he
  · exact fun w hw => nomatch hw
  · exact fun n => .inl rfl

/-- A retry that is answered counts at most up to the limit of its category. -/
theorem Limited.count_lt (h : s.Limited policy) {number : ℕ} {envelope : RuntimeEnvelope}
    {category : ErrorCategory} (hheld : s.inHand number = some envelope)
    (hleft : envelope.retryCount < (s.executor.retryConfig category).retries) :
    s.came number + s.retried number < policy.maxRetries := by
  have hcount := h.numbered.countInHand number envelope hheld
  have hle := s.executor.retries_le category
  rw [h.config] at hle
  omega

theorem Limited.step (hu32 : policy.maxRetries ≤ u32Max) (h : s.Limited policy)
    (hs : s.step op = some t) : t.Limited policy := by
  obtain ⟨hn, hconfig, hcapacity, hroom, hretried⟩ := h
  cases Move.of_step hn.aligned hs with
  | entered new =>
    rename_i number envelope
    refine ⟨hn.entered new, hconfig, hcapacity, hroom, ?_⟩
    intro n
    by_cases he : n = number
    · left
      rw [he]
      exact (hn.known number new).2
    · simp only [Function.update_of_ne he]
      exact hretried n
  -- the policy lets an envelope be buffered only below its limit, and so only then is it counted
  | buffered now held limited left room =>
    rename_i number category envelope
    have hlt := count_lt ⟨hn, hconfig, hcapacity, hroom, hretried⟩ held left
    have hcount := hn.countInHand number envelope held
    refine ⟨hn.buffered held (by omega), hconfig, hcapacity, ?_, ?_⟩
    · rw [RetryBuffer.push, List.length_append, List.length_singleton]
      omega
    · intro n
      by_cases he : n = number
      · right
        rw [he]
        simp only [Function.update_self]
        omega
      · simp only [Function.update_of_ne he]
        exact hretried n
  | settled buffer config =>
    refine ⟨hn.settled buffer, config.trans hconfig, ?_, ?_, hretried⟩
    · rw [buffer]
      exact hcapacity
    · rw [buffer]
      exact hroom
  | handedOut at_ due earliest =>
    refine ⟨hn.handedOut at_, hconfig, hcapacity, ?_, hretried⟩
    exact (List.length_eraseIdx_le ..).trans hroom
  | flushed buffer config =>
    refine ⟨hn.flushed buffer, config.trans hconfig, ?_, ?_, hretried⟩
    · rw [buffer]
      exact hcapacity
    · rw [buffer]
      exact Nat.zero_le _

/-! ## What was buffered -/

/-- Every buffered entry is in one place, was buffered by its own attempt and waits for the delay
of that attempt. -/
structure Recorded (ex : ErrorPolicyExecutor) (s : RetryRun) : Prop where
  once : s.buffered.Perm (s.waiting ++ (s.handedOut.map HandOut.taken ++ s.flushed.map Prod.snd))
  distinct : (s.buffered.map fun w => (w.number, w.attempt)).Nodup
  attempts : ∀ w ∈ s.buffered, 0 < w.attempt ∧ w.attempt ≤ s.retried w.number
  delays : ∀ w ∈ s.buffered, w.entry.nextAttemptAt =
    w.since + ex.computeBackoff w.entry.category (s.came w.number + w.attempt)

theorem perm_push {all waiting gone : List Waiting} (h : all.Perm (waiting ++ gone)) (w : Waiting) :
    (all ++ [w]).Perm ((waiting ++ [w]) ++ gone) := by
  refine (h.append_right [w]).trans ?_
  rw [List.append_assoc, List.append_assoc]
  exact List.perm_append_comm.append_left waiting

theorem computeBackoff_of_config {ex ex' : ErrorPolicyExecutor} (h : ex.config = ex'.config) :
    ex.computeBackoff = ex'.computeBackoff := by
  funext category k
  have hretry : ex.retryConfig category = ex'.retryConfig category := by
    cases category <;> simp only [ErrorPolicyExecutor.retryConfig, h]
  simp only [ErrorPolicyExecutor.computeBackoff, hretry]

theorem Recorded.entered {ex : ErrorPolicyExecutor} (h : s.Recorded ex) (hn : s.Numbered)
    {number : ℕ} {envelope : RuntimeEnvelope} (hnew : number ∉ s.entered) :
    Recorded ex { s with
      inHand := Function.update s.inHand number (some envelope)
      entered := s.entered ++ [number]
      came := Function.update s.came number envelope.retryCount } := by
  refine ⟨h.once, h.distinct, h.attempts, ?_⟩
  intro w hw
  have hne : w.number ≠ number := fun he => hnew (he ▸ hn.knownBuffered w hw)
  simp only [Function.update_of_ne hne]
  exact h.delays w hw

theorem Recorded.buffered {ex : ErrorPolicyExecutor} (h : s.Recorded ex)
    (hconfig : s.executor.config = ex.config) (hn : s.Numbered) {number now : ℕ}
    {category : ErrorCategory} {envelope : RuntimeEnvelope}
    (hheld : s.inHand number = some envelope) (hcount : envelope.retryCount + 1 ≤ u32Max) :
    Recorded ex { s with
      executor := { s.executor with
        retryBuffer := s.executor.retryBuffer.push (s.executor.retryEntry now category envelope) }
      inHand := Function.update s.inHand number none
      waiting := s.waiting ++ [s.nextAttempt number now category envelope]
      retried := Function.update s.retried number (s.retried number + 1)
      buffered := s.buffered ++ [s.nextAttempt number now category envelope] } := by
  have hraised : ∀ n, s.retried n ≤ Function.update s.retried number (s.retried number + 1) n := by
    intro n
    by_cases he : n = number
    · rw [he, Function.update_self]
      exact Nat.le_succ _
    · rw [Function.update_of_ne he]
  refine ⟨?_, ?_, ?_, ?_⟩
  · exact perm_push h.once _
  · rw [List.map_append, List.nodup_append]
    refine ⟨h.distinct, List.nodup_singleton _, ?_⟩
    -- an earlier entry of this number belongs to an earlier attempt
    intro p hp q hq
    obtain ⟨w, hw, rfl⟩ := List.mem_map.mp hp
    obtain rfl := List.mem_singleton.mp hq
    intro he
    obtain ⟨hnumber, hattempt⟩ := Prod.mk.inj he
    have hle := (h.attempts w hw).2
    rw [hnumber, hattempt] at hle
    exact absurd hle (Nat.not_succ_le_self _)
  · intro w hw
    rw [List.mem_append, List.mem_singleton] at hw
    obtain hw | rfl := hw
    · exact ⟨(h.attempts w hw).1, (h.attempts w hw).2.trans (hraised _)⟩
    · refine ⟨Nat.succ_pos _, ?_⟩
      simp only [nextAttempt, Function.update_self, Nat.le_refl]
  · intro w hw
    rw [List.mem_append, List.mem_singleton] at hw
    obtain hw | rfl := hw
    · exact h.delays w hw
    · have hc := hn.countInHand number envelope hheld
      simp only [nextAttempt, ErrorPolicyExecutor.retryEntry]
      rw [computeBackoff_of_config hconfig, Nat.min_eq_left hcount, hc, Nat.add_assoc]

theorem Recorded.handedOut {ex : ErrorPolicyExecutor} (h : s.Recorded ex) {now index : ℕ}
    {taken : Waiting} (hat : s.waiting[index]? = some taken) :
    s.buffered.Perm (s.waiting.eraseIdx index ++
      ((s.handedOut ++ [({ now, taken, among := s.waiting } : HandOut)]).map HandOut.taken ++
        s.flushed.map Prod.snd)) := by
  obtain ⟨hlt, hget⟩ := List.getElem?_eq_some_iff.mp hat
  have htaken : s.waiting.Perm (taken :: s.waiting.eraseIdx index) := by
    rw [← hget]
    exact (List.getElem_cons_eraseIdx_perm hlt).symm
  refine h.once.trans ((htaken.append_right _).trans ?_)
  simp only [List.map_append, List.map_cons, List.map_nil, List.append_assoc, List.cons_append,
    List.nil_append]
  rw [← List.append_assoc, ← List.append_assoc]
  exact List.perm_middle.symm

theorem Recorded.flushed {ex : ErrorPolicyExecutor} (h : s.Recorded ex) (now : ℕ) :
    s.buffered.Perm (s.handedOut.map HandOut.taken ++
      (s.flushed ++ s.waiting.map fun w => (now, w)).map Prod.snd) := by
  have hsnd : (s.waiting.map fun w => (now, w)).map Prod.snd = s.waiting := by
    simp [List.map_map, Function.comp_def]
  rw [List.map_append, hsnd, ← List.append_assoc]
  exact h.once.trans List.perm_append_comm

theorem Recorded.step {ex : ErrorPolicyExecutor} (hu32 : policy.maxRetries ≤ u32Max)
    (hex : ex.config = policy) (hl : s.Limited policy) (h : s.Recorded ex)
    (hs : s.step op = some t) : t.Recorded ex := by
  cases Move.of_step hl.numbered.aligned hs with
  | entered new => exact h.entered hl.numbered new
  | buffered now held limited left room =>
    rename_i number category envelope
    have hlt := hl.count_lt held left
    have hcount := hl.numbered.countInHand number envelope held
    exact h.buffered (hl.config.trans hex.symm) hl.numbered held (by omega)
  | settled buffer config => exact ⟨h.once, h.distinct, h.attempts, h.delays⟩
  | handedOut at_ due earliest => exact ⟨h.handedOut at_, h.distinct, h.attempts, h.delays⟩
  | flushed buffer config => exact ⟨h.flushed _, h.distinct, h.attempts, h.delays⟩

theorem inOrder_step (ha : s.Aligned) (h : ∀ o ∈ s.handedOut, o.InOrder)
    (hs : s.step op = some t) : ∀ o ∈ t.handedOut, o.InOrder := by
  cases Move.of_step ha hs with
  | entered | buffered | settled | flushed => exact h
  | handedOut at_ due earliest =>
    intro o ho
    rw [List.mem_append, List.mem_singleton] at ho
    obtain ho | rfl := ho
    · exact h o ho
    · exact ⟨List.mem_of_getElem? at_, due, earliest⟩

/-- A due entry can be handed out at any time, and a flush leaves none behind. -/
structure Leaves (s : RetryRun) : Prop where
  due : ∀ w ∈ s.waiting, ∀ now, w.entry.nextAttemptAt ≤ now → (s.step (.handOut now)).isSome = true
  flushed : ∀ now reason attempts t, s.step (.flush now reason attempts) = some t → t.waiting = []

theorem Numbered.leaves (h : s.Numbered) : s.Leaves := by
  constructor
  · intro w hw now hdue
    have hmem : w.entry ∈ s.executor.retryBuffer.entries := h.aligned ▸ List.mem_map_of_mem hw
    obtain ⟨⟨entry, index⟩, he⟩ := Option.isSome_iff_exists.mp (RetryBuffer.earliestDue_isSome hmem hdue)
    have hat := (RetryBuffer.earliestDue_spec he).1
    rw [← h.aligned, List.getElem?_map, Option.map_eq_some_iff] at hat
    obtain ⟨taken, htaken, -⟩ := hat
    simp only [RetryRun.step, ErrorPolicyExecutor.nextReadyRetry, RetryBuffer.nextReady, he,
      Option.map_some, htaken, Option.isSome_some]
  · intro now reason attempts t hs
    obtain rfl := Option.some.inj hs
    simp only [ErrorPolicyExecutor.flushToDlq_pending, List.take_zero]

/-- What holds of the schedule of an executor after a run. -/
structure Scheduled (ex : ErrorPolicyExecutor) (s : RetryRun) : Prop where
  bounded : ∀ n, s.came n = 0 → s.retried n ≤ ex.config.maxRetries
  capacity : s.executor.retryBuffer.entries.length ≤ ex.config.retryBufferCapacity
  aligned : s.waiting.map Waiting.entry = s.executor.retryBuffer.entries
  once : s.buffered.Perm (s.waiting ++ (s.handedOut.map HandOut.taken ++ s.flushed.map Prod.snd))
  distinct : (s.buffered.map fun w => (w.number, w.attempt)).Nodup
  leaves : s.Leaves
  inOrder : ∀ o ∈ s.handedOut, o.InOrder
  delays : ∀ w ∈ s.buffered, s.came w.number = 0 → w.entry.nextAttemptAt = w.since +
    min ((ex.retryConfig w.entry.category).backoffMs * 2 ^ (w.attempt - 1)) maxBackoffMs * nsPerMs

/-- Under any failures at any times, retries stay within the largest configured count, the buffer
within its capacity, and an entry leaves once: handed out, when due and in order of the deadlines,
or flushed. The delays double up to the cap. -/
theorem scheduled (policy : ResolvedErrorPolicy) (dlqSender : Option DlqSender) (sourceNode : String)
    (hu32 : policy.maxRetries ≤ u32Max) {ops : List RetryOp}
    (h : run (.new policy dlqSender sourceNode) ops = some s) :
    Scheduled (.new policy dlqSender sourceNode) s ∧ ∀ category k,
      s.executor.computeBackoff category k =
          min ((s.executor.retryConfig category).backoffMs * 2 ^ (k - 1)) maxBackoffMs * nsPerMs ∧
        s.executor.computeBackoff category k ≤ s.executor.computeBackoff category (k + 1) := by
  refine ⟨?_, fun category k => ⟨s.executor.computeBackoff_eq category k,
    s.executor.computeBackoff_mono category (Nat.le_succ k)⟩⟩
  have hinv : s.Limited policy ∧ s.Recorded (.new policy dlqSender sourceNode) ∧
      ∀ o ∈ s.handedOut, o.InOrder := by
    refine Lib.exec_invariant (P := fun s => s.Limited policy ∧
      s.Recorded (.new policy dlqSender sourceNode) ∧ ∀ o ∈ s.handedOut, o.InOrder) ?_ h ?_
    · rintro s op t ⟨hl, hr, ho⟩ hs
      exact ⟨hl.step hu32 hs, hr.step hu32 rfl hl hs, inOrder_step hl.numbered.aligned ho hs⟩
    · refine ⟨.start policy dlqSender sourceNode, ⟨.nil, .nil, ?_, ?_⟩, ?_⟩
      all_goals exact fun w hw => nomatch hw
  obtain ⟨hl, hr, ho⟩ := hinv
  refine ⟨?_, hl.room, hl.numbered.aligned, hr.once, hr.distinct, hl.numbered.leaves, ho, ?_⟩
  · intro n hzero
    have hle := hl.retried n
    simp only [ErrorPolicyExecutor.new]
    omega
  · intro w hw hzero
    have hdelay := hr.delays w hw
    rwa [hzero, Nat.zero_add, ErrorPolicyExecutor.computeBackoff_eq] at hdelay

/-- One retry with a delay of a second. -/
def oneRetry : ResolvedErrorPolicy where
  badInput := .skip
  dependencyFailed := ⟨1, 1000, .skip⟩
  processingFailed := ⟨0, 0, .skip⟩
  timedOut := .skip
  retryBufferCapacity := 1

/-- A failed envelope waits for its deadline, fails for another reason and is skipped. -/
def retriedOps : List RetryOp :=
  [.enter 0 (.new "m1" 0 "source" []), .fail 0 0 ⟨0, .ok⟩ (.dependencyFailed "down"),
    .handOut 1000000000, .fail 0 1000000000 ⟨0, .ok⟩ (.processingFailed "bad")]

theorem scheduled_retried :
    ∃ s, run (.new oneRetry none "scale") retriedOps = some s ∧
      Scheduled (.new oneRetry none "scale") s ∧ s.retried 0 = 1 ∧ s.handedOut.length = 1 := by
  have hr : ∃ s, run (.new oneRetry none "scale") retriedOps = some s ∧ s.retried 0 = 1 ∧
      s.handedOut.length = 1 := ⟨_, rfl, rfl, rfl⟩
  obtain ⟨s, h, hretried, hhanded⟩ := hr
  exact ⟨s, h, (scheduled oneRetry none "scale" (by decide) h).1, hretried, hhanded⟩

/-- At a shutdown the buffer is flushed whatever the deadlines are. -/
theorem flushed_before_deadline :
    ¬ ∀ (policy : ResolvedErrorPolicy) dlqSender sourceNode, policy.maxRetries ≤ u32Max →
      ∀ ops s, run (.new policy dlqSender sourceNode) ops = some s →
        (∀ o ∈ s.handedOut, o.taken.entry.nextAttemptAt ≤ o.now) ∧
          ∀ f ∈ s.flushed, f.2.entry.nextAttemptAt ≤ f.1 := by
  intro h
  have hearly := (h oneRetry none "scale" (by decide)
    [.enter 0 (.new "m1" 0 "source" []), .fail 0 0 ⟨0, .ok⟩ (.dependencyFailed "down"),
      .flush 1 .shutdown fun _ => ⟨0, .ok⟩] _ rfl).2
  have hfirst := hearly _ (List.Mem.head _)
  exact absurd hfirst (by decide)

end RetryRun

end Wafer
