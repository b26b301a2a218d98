import Wafer.Queue.Channel

/-!
# The passthrough loop

`run_passthrough_loop`: a node without an instance sends every envelope on as it
came, until the input ends or cancellation fires.
-/

namespace Wafer

inductive PassthroughPc
  | receiving
  | sending (envelope : RuntimeEnvelope)
  | exited

structure PassthroughLoop where
  pc : PassthroughPc := .receiving
  input : InputQueue
  metrics : NodeMetrics := {}
  cancelled : Bool := false
  /-- what was sent on so far, newest first -/
  forwarded : List RuntimeEnvelope := []

inductive PassthroughEvent
  | arrive (envelope : RuntimeEnvelope)
  | close
  | refuse (r : QueueMetrics.Refusal)
  | cancel
  | recv
  /-- the cancellation branch of `select!` -/
  | stop
  | sent

namespace PassthroughLoop

def running (l : PassthroughLoop) : Bool :=
  match l.pc with
  | .exited => false
  | _ => true

def step (l : PassthroughLoop) : PassthroughEvent → Option PassthroughLoop
  | .arrive envelope =>
    if l.running then (l.input.send envelope).map fun input => { l with input } else none
  | .close => some { l with input := { l.input with closed := true } }
  | .refuse r => some { l with input := l.input.refuse r }
  | .cancel => some { l with cancelled := true }
  | .recv =>
    match l.pc with
    | .receiving =>
      match l.input.recv with
      | .message envelope rest =>
        some { l with
          input := rest, pc := .sending envelope, forwarded := envelope :: l.forwarded }
      | .closed => some { l with pc := .exited }
      | .notReady => none
    | _ => none
  | .stop =>
    match l.pc with
    | .receiving => if l.cancelled then some { l with pc := .exited } else none
    | _ => none
  | .sent =>
    match l.pc with
    | .sending _ => some { l with metrics := l.metrics.recordProcessed, pc := .receiving }
    | _ => none

/-- A passthrough loop that only got fresh envelopes only has and sends fresh ones. -/
structure Fresh (l : PassthroughLoop) : Prop where
  queued : ∀ envelope ∈ l.input.buffer, envelope.retryCount = 0
  forwarded : ∀ envelope ∈ l.forwarded, envelope.retryCount = 0
  sending : ∀ envelope, l.pc = .sending envelope → envelope.retryCount = 0

theorem Fresh.step {l l' : PassthroughLoop} {e : PassthroughEvent} (hf : l.Fresh)
    (ha : ∀ envelope, e = .arrive envelope → envelope.retryCount = 0) (h : l.step e = some l') :
    l'.Fresh := by
  cases e with
  | arrive envelope =>
    simp only [PassthroughLoop.step] at h
    split at h
    · obtain ⟨input, hi, rfl⟩ := Option.map_eq_some_iff.mp h
      refine ⟨?_, hf.forwarded, hf.sending⟩
      intro envelope' hm
      rw [InputQueue.send_buffer hi, List.mem_append, List.mem_singleton] at hm
      rcases hm with hm | rfl
      · exact hf.queued envelope' hm
      · exact ha _ rfl
    · exact absurd h nofun
  | close | refuse | cancel =>
    obtain rfl := Option.some.inj h
    exact ⟨hf.queued, hf.forwarded, hf.sending⟩
  | recv =>
    simp only [PassthroughLoop.step] at h
    split at h
    · split at h
      · next envelope rest hm =>
        obtain rfl := Option.some.inj h
        obtain ⟨hb, -⟩ := InputQueue.recv_message hm
        have h0 : envelope.retryCount = 0 := hf.queued _ (by rw [hb]; exact .head _)
        refine ⟨fun envelope' hm => hf.queued _ (by rw [hb]; exact .tail _ hm), ?_, ?_⟩
        · intro envelope' hm
          rcases List.mem_cons.mp hm with rfl | hm
          · exact h0
          · exact hf.forwarded _ hm
        · intro envelope' he
          obtain rfl := PassthroughPc.sending.inj he
          exact h0
      · obtain rfl := Option.some.inj h
        exact ⟨hf.queued, hf.forwarded, fun _ he => nomatch he⟩
      · exact absurd h nofun
    · exact absurd h nofun
  | stop =>
    simp only [PassthroughLoop.step] at h
    split at h
    · split at h
      · obtain rfl := Option.some.inj h
        exact ⟨hf.queued, hf.forwarded, fun _ he => nomatch he⟩
      · exact absurd h nofun
    · exact absurd h nofun
  | sent =>
    simp only [PassthroughLoop.step] at h
    split at h
    · obtain rfl := Option.some.inj h
      exact ⟨hf.queued, hf.forwarded, fun _ he => nomatch he⟩
    · exact absurd h nofun

theorem forwarded_mono {l l' : PassthroughLoop} {e : PassthroughEvent} (h : l.step e = some l') :
    l.forwarded ⊆ l'.forwarded := by
  cases e with
  | arrive envelope =>
    simp only [PassthroughLoop.step] at h
    split at h
    · obtain ⟨input, -, rfl⟩ := Option.map_eq_some_iff.mp h
      exact List.Subset.refl _
    · exact absurd h nofun
  | close | refuse | cancel =>
    obtain rfl := Option.some.inj h
    exact List.Subset.refl _
  | recv =>
    simp only [PassthroughLoop.step] at h
    split at h
    · split at h
      · obtain rfl := Option.some.inj h
        exact List.subset_cons_self ..
      · obtain rfl := Option.some.inj h
        exact List.Subset.refl _
      · exact absurd h nofun
    · exact absurd h nofun
  | stop | sent =>
    simp only [PassthroughLoop.step] at h
    repeat' split at h
    all_goals first
      | (obtain rfl := Option.some.inj h; exact List.Subset.refl _)
      | exact absurd h nofun

end PassthroughLoop

end Wafer
