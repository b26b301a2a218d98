import Wafer.Runner.DeadLetters

/-!
# What a step does to a task's queue and sends

Whatever a task is, one step leaves its input queue alone, takes the first
envelope off it, or is what a sender or the orchestrator does to it. A task that
sends an envelope goes on sending it until the step after the last `send_one`,
and a task that has returned stays so.

## Main definitions

- `InputQueue.Turn` — what one step of a task does to its input queue

## Main results

- `NodeTask.step_input`, `NodeTask.step_sending`, `NodeTask.step_result`
-/

namespace Wafer

/-- What one step of a task does to the queue in front of it. -/
inductive InputQueue.Turn (q : InputQueue) : TaskInput → InputQueue → Prop
  | arrived {envelope : RuntimeEnvelope} {q' : InputQueue} (room : q.send envelope = some q') :
      Turn q (.arrive envelope) q'
  | refused {r : QueueMetrics.Refusal} : Turn q (.refuse r) (q.refuse r)
  | closed : Turn q .close { q with closed := true }
  | cancelled : Turn q .cancel q
  | kept {e : TaskEvent} : Turn q (.own e) q
  | taken {e : TaskEvent} {envelope : RuntimeEnvelope} {q' : InputQueue}
      (message : q.recv = .message envelope q') : Turn q (.own e) q'

theorem InputQueue.send_frame {q q' : InputQueue} {envelope : RuntimeEnvelope}
    (h : q.send envelope = some q') : q'.capacity = q.capacity ∧ q'.closed = q.closed := by
  simp only [send] at h
  split at h
  · obtain rfl := Option.some.inj h
    exact ⟨rfl, rfl⟩
  · cases h

namespace InputQueue.Turn

variable {q q' : InputQueue} {i : TaskInput}

theorem capacity (h : q.Turn i q') : q'.capacity = q.capacity := by
  cases h with
  | arrived room => exact (send_frame room).1
  | taken message => exact (recv_message message).2.2.1
  | refused | closed | cancelled | kept => rfl

theorem closed_iff (h : q.Turn i q') : q'.closed = true ↔ q.closed = true ∨ i = .close := by
  cases h with
  | arrived room => simp [(send_frame room).2]
  | taken message => simp [(recv_message message).2.1]
  | refused => simp [refuse]
  | closed | cancelled | kept => simp

end InputQueue.Turn

namespace TaskInput

/-- A step of the task's own loop whose envelope is not through yet. -/
def keepsSending : TaskInput → Bool
  | own e => !e.isSent
  | _ => true

end TaskInput

/-! ## The loops -/

namespace World

variable {cfg : LoopConfig} {w w' : World} {e : Event}

theorem step_input (h : Transition cfg w e w') : w.input.Turn (TaskEvent.runner e).input w'.input := by
  cases h with
  | arrive running room => exact .arrived room
  | close => exact .closed
  | refuse => exact .refused
  | cancel => exact .cancelled
  | move moves => cases moves <;> exact .kept
  | dequeue at_ message => exact .taken message
  | failed at_ loaded rebuilt handled | lost at_ role canary handled
  | escalated at_ role canary answered condemns rebuilt handled =>
    obtain ⟨pc, node, policy, metrics, state, generation, rfl⟩ := handled.frame
    exact .kept
  | _ => exact .kept

theorem step_sending {call : Call} {out : Outgoing} (hp : w.pc = .sending call out)
    (h : Transition cfg w e w') (he : e ≠ .sent) : w'.pc = .sending call out := by
  cases h with
  | arrive | close | refuse | cancel | tick | recordHash | prepare | publish | withdrawn | tooLate
  | retract => exact hp
  | sent => exact absurd rfl he
  | move moves =>
    cases moves with
    | noSwap at_ | ignored at_ | wait at_ | swapFirst at_ | retryNext at_ | drained at_ | idle at_
    | cancelled at_ | swap at_ | timer at_ =>
      rw [hp] at at_
      cases at_
  | _ at_ =>
    rw [hp] at at_
    cases at_

end World

namespace SinkLoop

variable {l l' : SinkLoop} {e : SinkEvent}

theorem step_input (h : l.step e = some l') : l.input.Turn (TaskEvent.sink e).input l'.input := by
  cases e with
  | arrive envelope =>
    simp only [step] at h
    split at h
    · obtain ⟨input, hi, rfl⟩ := Option.map_eq_some_iff.mp h
      exact .arrived hi
    · cases h
  | close =>
    obtain rfl := Option.some.inj h
    exact .closed
  | refuse r =>
    obtain rfl := Option.some.inj h
    exact .refused
  | cancel =>
    obtain rfl := Option.some.inj h
    exact .cancelled
  | recv | tryRecv =>
    simp only [step] at h
    repeat' split at h
    all_goals first
      | (obtain rfl := Option.some.inj h
         exact .taken (by assumption))
      | (obtain rfl := Option.some.inj h; exact .kept)
      | cases h
  | collect | idle | stop | flush | finish =>
    simp only [step] at h
    repeat' split at h
    all_goals first
      | (obtain rfl := Option.some.inj h; exact .kept)
      | cases h

theorem step_exited {result : Except WaferError Unit} (hp : l.pc = .exited result)
    (h : l.step e = some l') : l'.pc = .exited result := by
  cases e with
  | arrive envelope =>
    simp only [step, running, hp] at h
    cases h
  | close | refuse | cancel =>
    obtain rfl := Option.some.inj h
    exact hp
  | recv | collect | idle | stop | tryRecv | flush | finish =>
    simp only [step, hp] at h
    cases h

end SinkLoop

namespace PassthroughLoop

variable {l l' : PassthroughLoop} {e : PassthroughEvent}

theorem step_input (h : l.step e = some l') :
    l.input.Turn (TaskEvent.passthrough e).input l'.input := by
  cases e with
  | arrive envelope =>
    simp only [step] at h
    split at h
    · obtain ⟨input, hi, rfl⟩ := Option.map_eq_some_iff.mp h
      exact .arrived hi
    · cases h
  | close =>
    obtain rfl := Option.some.inj h
    exact .closed
  | refuse r =>
    obtain rfl := Option.some.inj h
    exact .refused
  | cancel =>
    obtain rfl := Option.some.inj h
    exact .cancelled
  | recv =>
    simp only [step] at h
    repeat' split at h
    all_goals first
      | (obtain rfl := Option.some.inj h
         exact .taken (by assumption))
      | (obtain rfl := Option.some.inj h; exact .kept)
      | cases h
  | stop | sent =>
    simp only [step] at h
    repeat' split at h
    all_goals first
      | (obtain rfl := Option.some.inj h; exact .kept)
      | cases h

theorem step_sending {envelope : RuntimeEnvelope} (hp : l.pc = .sending envelope)
    (h : l.step e = some l') (he : e ≠ .sent) : l'.pc = .sending envelope := by
  cases e with
  | sent => exact absurd rfl he
  | arrive envelope =>
    simp only [step] at h
    split at h
    · obtain ⟨input, -, rfl⟩ := Option.map_eq_some_iff.mp h
      exact hp
    · cases h
  | close | refuse | cancel =>
    obtain rfl := Option.some.inj h
    exact hp
  | recv | stop =>
    simp only [step, hp] at h
    cases h

end PassthroughLoop

theorem SourceLoop.step_sending {l l' : SourceLoop} {e : SourceEvent} {envelope : RuntimeEnvelope}
    (hp : l.pc = .sending envelope) (h : l.step e = some l') (he : e ≠ .sent) :
    l'.pc = .sending envelope := by
  cases e with
  | sent => exact absurd rfl he
  | cancel | tick =>
    obtain rfl := Option.some.inj h
    exact hp
  | poll | wake | stop | closed =>
    simp only [step, hp] at h
    cases h

/-! ## The tasks -/

namespace NodeTask

variable {t t' : NodeTask} {i : TaskInput}

theorem step_input (h : t.step i = some t') : t.input.Turn i t'.input := by
  cases task_step h with
  | @source l l' q e _ fired input =>
    cases e with
    | cancel =>
      obtain rfl := input
      exact .cancelled
    | _ =>
      obtain rfl := input
      exact .kept
  | refused => exact .refused
  | closed => exact .closed
  | sink fired input =>
    obtain rfl := input
    exact SinkLoop.step_input fired
  | passthrough fired input =>
    obtain rfl := input
    exact PassthroughLoop.step_input fired
  | runner fired input =>
    obtain rfl := input
    exact World.step_input (step_transition fired)

/-- The task goes on sending an envelope until its last `send_one` is through. -/
theorem step_sending {out : Outgoing} (ht : t.sending = some out) (h : t.step i = some t')
    (hi : i.keepsSending = true) : t'.sending = some out := by
  cases task_step h with
  | @source l l' q e _ fired input =>
    simp only [sending] at ht ⊢
    split at ht
    · next envelope hp =>
      rw [SourceLoop.step_sending hp fired]
      · exact ht
      · rintro rfl
        obtain rfl := input
        cases hi
    · cases ht
  | refused | closed => exact ht
  | sink => cases ht
  | @passthrough l l' e _ fired input =>
    simp only [sending] at ht ⊢
    split at ht
    · next envelope hp =>
      rw [PassthroughLoop.step_sending hp fired]
      · exact ht
      · rintro rfl
        obtain rfl := input
        cases hi
    · cases ht
  | @runner cfg w w' e _ fired input =>
    simp only [sending] at ht ⊢
    split at ht
    · next call out' hp =>
      rw [World.step_sending hp (step_transition fired)]
      · exact ht
      · rintro rfl
        obtain rfl := input
        cases hi
    · cases ht

theorem step_result {r : Except WaferError Unit} (hr : t.result = some r)
    (h : t.step i = some t') : t'.result = some r := by
  cases task_step h with
  | source fired =>
    simp only [result] at hr ⊢
    split at hr
    · next hp => rwa [SourceLoop.step_exited hp fired]
    · cases hr
  | refused | closed => exact hr
  | sink fired =>
    simp only [result] at hr ⊢
    split at hr
    · next hp => rwa [SinkLoop.step_exited hp fired]
    · cases hr
  | passthrough fired =>
    simp only [result] at hr ⊢
    split at hr
    · next hp => rwa [PassthroughLoop.step_exited hp fired]
    · cases hr
  | runner fired =>
    simp only [result] at hr ⊢
    split at hr
    · next hp => rwa [(World.step_exited hp (step_transition fired)).1]
    · cases hr

/-- A task that sends has not returned. -/
theorem result_of_sending {out : Outgoing} (ht : t.sending = some out) : t.result = none := by
  cases t with
  | source l q =>
    simp only [sending] at ht
    split at ht
    · next hp => simp only [result, hp]
    · cases ht
  | sink => cases ht
  | passthrough l =>
    simp only [sending] at ht
    split at ht
    · next hp => simp only [result, hp]
    · cases ht
  | runner cfg w =>
    simp only [sending] at ht
    split at ht
    · next hp => simp only [result, hp]
    · cases ht

end NodeTask

end Wafer
