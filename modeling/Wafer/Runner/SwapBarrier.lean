import Wafer.Runner.Canary
import Wafer.Runner.ClaimProtocol

/-!
# The swap barrier of `next_input`

Envelopes leave the input queue in order, and each is handed to the loop once.
One taken while a replacement waits in the watch slot is only processed after
that replacement was applied, withdrawn or published over.

## Main definitions

- `Superseded`, `Cleared` — how a replacement stops holding envelopes back
- `World.Open` — the replacement can still be adopted
- `ProtocolStep` — what one step does to one request
- `World.Barrier` — the invariant over the held slot, the calls and the adoptions
-/

namespace Wafer

/-- A later payload was published over `id`. -/
def Superseded (id : Nat) (trace : List Obs) : Prop :=
  ∃ j, j ≠ id ∧ [.published j, .published id].Sublist trace

/-- Applied, withdrawn or published over. -/
def Cleared (id : Nat) (trace : List Obs) : Prop :=
  0 < applications id trace ∨ 0 < withdrawals id trace ∨ Superseded id trace

theorem Cleared.mono {id : Nat} {trace trace' : List Obs} (h : Cleared id trace)
    (hs : trace <:+ trace') : Cleared id trace' := by
  rcases h with h | h | ⟨j, hj, h⟩
  · exact .inl (lt_of_lt_of_le h (hs.sublist.filter _).length_le)
  · exact .inr (.inl (lt_of_lt_of_le h (hs.sublist.filter _).length_le))
  · exact .inr (.inr ⟨j, hj, h.trans hs.sublist⟩)

/-- The runner can still adopt the payload of `id`. -/
def World.Open (w : World) (id : Nat) : Prop :=
  w.pc.applying? = some id ∨
    ((w.requests id).progress.claim = .pending ∧
      (w.pc.claiming? = some id ∨ w.slot = some id))

/-- What one step does to request `id`. -/
inductive ProtocolStep (id : Nat) (w : World) (e : Event) (w' : World) : Prop
  | quiet (status : (w'.requests id).status = (w.requests id).status)
      (claim : (w'.requests id).progress.claim = (w.requests id).progress.claim)
      (applying : w'.pc.applying? = some id ↔ w.pc.applying? = some id)
      (claiming : w'.pc.claiming? = some id ↔ w.pc.claiming? = some id)
      (slot : w'.slot = some id ↔ w.slot = some id)
  | prepared (before : (w.requests id).status = .unprepared)
      (after : (w'.requests id).status = .prepared) (pc : w'.pc = w.pc) (slot : w'.slot = w.slot)
  | published (event : e = .publish id) (before : (w.requests id).status = .prepared)
      (slot : w'.slot = some id)
  | overwritten {j : Nat} (other : j ≠ id) (requests : w'.requests id = w.requests id)
      (pc : w'.pc = w.pc) (slot : w'.slot = some j) (trace : w'.trace = .published j :: w.trace)
  | withdrawn (before : (w.requests id).progress.claim = .pending)
      (after : (w'.requests id).progress.claim = .withdrawn) (pc : w'.pc = w.pc)
      (status : (w'.requests id).status = (w.requests id).status)
  | retracted (claim : (w.requests id).progress.claim = .withdrawn)
      (requests : w'.requests = w.requests) (pc : w'.pc = w.pc)
  | picked (requests : w'.requests = w.requests) (slot : w.slot = some id) (kept : w'.slot = w.slot)
      (pc : w'.pc = .claiming id)
  | ignored (claim : (w.requests id).progress.claim ≠ .pending) (requests : w'.requests = w.requests)
      (at_ : w.pc = .claiming id) (pc : w'.pc = .waiting) (slot : w'.slot = w.slot)
  | claimed (at_ : w.pc = .claiming id) (before : (w.requests id).progress.claim = .pending)
      (after : (w'.requests id).progress.claim = .runner)
      (status : (w'.requests id).status = (w.requests id).status)
  | applied (at_ : w.pc = .applying id) (pc : w'.pc = .top)
      (claim : (w'.requests id).progress.claim = (w.requests id).progress.claim)
      (status : (w'.requests id).status = (w.requests id).status)

namespace Obs

/-- The call in hand names a request, and that request was dealt with before. -/
def CallCleared (o : Obs) (before : List Obs) : Prop :=
  ∀ call, o.called? = some call → ∀ id, call.taken.under = some id → Cleared id before

end Obs

namespace World

section Steps

variable {cfg : LoopConfig} {w w' : World} {e : Event} {id : Nat}

/-- Steps that move the program counter between points outside the protocol. -/
theorem quiet_of (id : Nat)
    (status : (w'.requests id).status = (w.requests id).status)
    (follows : (w.requests id).progress.Follows (w'.requests id).progress)
    (before : w.pc.applying? = none ∧ w.pc.claiming? = none)
    (after : w'.pc.applying? = none ∧ w'.pc.claiming? = none) (slot : w'.slot = w.slot) :
    ProtocolStep id w e w' :=
  .quiet status follows.claim (by rw [before.1, after.1]) (by rw [before.2, after.2]) (by rw [slot])

theorem protocolStep (h : Transition cfg w e w') (id : Nat) : ProtocolStep id w e w' := by
  cases h with
  | arrive | close | refuse | cancel | tick | recordHash | tooLate =>
    exact .quiet rfl rfl .rfl .rfl .rfl
  | @prepare j kind _ hash status =>
    by_cases hj : id = j
    · subst hj
      exact .prepared status (by simp [World.prepare]) rfl rfl
    · refine .quiet ?_ ?_ .rfl .rfl .rfl <;> simp [World.prepare, Function.update_of_ne hj]
  | @publish j status =>
    by_cases hj : id = j
    · subst hj
      exact .published rfl status rfl
    · exact .overwritten (Ne.symm hj) (by simp [World.publish, observe, Function.update_of_ne hj]) rfl
        rfl rfl
  | @withdrawn j status claim =>
    by_cases hj : id = j
    · subst hj
      exact .withdrawn claim (by simp [setProgress, observe]) rfl (by simp [setProgress, observe])
    · refine .quiet ?_ ?_ .rfl .rfl .rfl <;> simp [setProgress, observe, Function.update_of_ne hj]
  | @retract j claim =>
    by_cases hj : id = j
    · subst hj
      exact .retracted claim rfl rfl
    · refine .quiet rfl rfl .rfl .rfl ?_
      simp only [World.retract]
      split
      · next hs => simp [hs, Ne.symm hj]
      · exact .rfl
  | @claimed j at_ claim =>
    by_cases hj : id = j
    · subst hj
      exact .claimed at_ claim (by simp [setProgress, observe]) (by simp [setProgress, observe])
    · refine .quiet ?_ ?_ ?_ ?_ .rfl <;>
        simp [setProgress, observe, Function.update_of_ne hj, at_, Pc.applying?, Pc.claiming?,
          Ne.symm hj]
  | @adopted j _ attempts node left at_ =>
    by_cases hj : id = j
    · subst hj
      refine .applied at_ rfl ?_ ?_ <;>
        simp [adopt, setReplacement, setProgress, observe]
    · refine .quiet ?_ ?_ ?_ ?_ .rfl <;>
        simp [adopt, setReplacement, setProgress, observe, Function.update_of_ne hj, at_,
          Pc.applying?, Pc.claiming?, Ne.symm hj]
  | @initFailed j _ _ error left at_ =>
    by_cases hj : id = j
    · subst hj
      refine .applied at_ rfl ?_ ?_
      · simpa [failInit, setReplacement, reportTo, observe] using
          (HotSwapProgress.reportInitFailed_follows _ _).claim
      · simp [failInit, setReplacement, reportTo, observe]
    · refine .quiet ?_ ?_ ?_ ?_ .rfl <;>
        simp [failInit, setReplacement, reportTo, observe, Function.update_of_ne hj, at_,
          Pc.applying?, Pc.claiming?, Ne.symm hj]
  | @pickup j at_ _ _ slot =>
    by_cases hj : id = j
    · subst hj
      exact .picked rfl slot rfl rfl
    · refine .quiet rfl rfl ?_ ?_ .rfl <;> simp [at_, Pc.applying?, Pc.claiming?, Ne.symm hj]
  | move m =>
    cases m with
    | @ignored j at_ claim =>
      by_cases hj : id = j
      · subst hj
        exact .ignored claim rfl at_ rfl rfl
      · refine .quiet rfl rfl ?_ ?_ .rfl <;> simp [at_, Pc.applying?, Pc.claiming?, Ne.symm hj]
    | noSwap at_ | wait at_ | swapFirst at_ | retryNext at_ | drained at_ | idle at_ | cancelled at_
    | swap at_ | timer at_ =>
      exact quiet_of id rfl (.refl _) (by rw [at_]; exact ⟨rfl, rfl⟩) ⟨rfl, rfl⟩ rfl
  | window at_ | slotEmpty at_ | eof at_ | hold at_ | shutdown at_ | rerun at_ | retry at_
  | dequeue at_ | forwarded at_ | unhold at_ | hand at_ =>
    exact quiet_of id rfl (.refl _) (by rw [at_]; exact ⟨rfl, rfl⟩) ⟨rfl, rfl⟩ rfl
  | filtered at_ | unrouted at_ | sent at_ =>
    obtain ⟨hs, hf⟩ := reportTo_follows (fun p => p.markFirstOutcome_follows w.now _) w
      w.pendingSwapProgress id
    exact quiet_of id hs hf (by rw [at_]; exact ⟨rfl, rfl⟩) ⟨rfl, rfl⟩ rfl
  | failed at_ loaded rebuilt handled =>
    have hpc := handled.applying
    obtain ⟨pc, node, policy, metrics, state, generation, rfl⟩ := handled.frame
    exact quiet_of id rfl (.refl _) (by rw [at_]; exact ⟨rfl, rfl⟩) hpc rfl
  | @rolledBack _ canary node node' error _ answers at_ =>
    obtain ⟨hs, hf⟩ := rollBack_follows { w with node } node' (w.generation+1) canary error
      w.pendingSwapProgress answers.rollbackNs error.toString id
    exact quiet_of id hs hf (by rw [at_]; exact ⟨rfl, rfl⟩) ⟨rfl, rfl⟩ rfl
  | @escalated _ canary node node' error failure _ _ _ at_ _ _ _ _ _ handled
  | @lost _ canary node node' error failure _ _ _ _ at_ _ _ handled =>
    obtain ⟨hs, hf⟩ := rollBack_follows { w with node } node' (w.generation+1) canary error
      w.pendingSwapProgress 0 ("rollback failed: " ++ failure.toString) id
    have hpc := handled.applying
    obtain ⟨pc, node, policy, metrics, state, generation, rfl⟩ := handled.frame
    exact quiet_of id hs hf (by rw [at_]; exact ⟨rfl, rfl⟩) hpc rfl

/-- A published request that nobody has claimed is in the slot, picked up or published over. -/
def Unclaimed (w : World) : Prop :=
  ∀ id, (w.requests id).status = .published → (w.requests id).progress.claim = .pending →
    w.pc.claiming? = some id ∨ w.slot = some id ∨ Superseded id w.trace

theorem Unclaimed.step (hc : w.Claims) (hu : w.Unclaimed) (h : Transition cfg w e w') :
    w'.Unclaimed := by
  intro id hs hp
  have hsub := h.trace_suffix.sublist
  have old : (w.requests id).status = .published → (w.requests id).progress.claim = .pending →
      w.pc.claiming? = some id ∨ w.slot = some id ∨ Superseded id w'.trace := fun hs hp =>
    (hu id hs hp).imp_right (Or.imp_right fun ⟨j, hj, ht⟩ => ⟨j, hj, ht.trans hsub⟩)
  cases protocolStep h id with
  | quiet status claim _ claiming slot =>
    rw [claiming, slot]
    exact old (status ▸ hs) (claim ▸ hp)
  | prepared _ after => exact absurd (after.symm.trans hs) nofun
  | published _ _ slot => exact .inr (.inl slot)
  | @overwritten j other requests pc slot trace =>
    rcases old (requests ▸ hs) (requests ▸ hp) with hcl | hsl | hsup
    · exact .inl (pc ▸ hcl)
    · have hm := ((hc id).published (.inl hsl)).2
      exact .inr (.inr ⟨j, other, by rw [trace]; exact (List.singleton_sublist.mpr hm).cons_cons _⟩)
    · exact .inr (.inr hsup)
  | withdrawn _ after => exact absurd (after.symm.trans hp) nofun
  | retracted claim requests =>
    rw [requests, claim] at hp
    exact absurd hp nofun
  | picked _ _ _ pc => exact .inl (congrArg Pc.claiming? pc)
  | ignored claim requests => exact absurd (requests ▸ hp) claim
  | claimed _ _ after => exact absurd (after.symm.trans hp) nofun
  | applied at_ _ claim =>
    have hi := hc id
    rw [at_] at hi
    exact absurd ((claim.symm.trans hp).symm.trans hi.unapplied.1) nofun

/-- A request that was published and is not open any more has been dealt with. -/
theorem cleared_of_not_open (hc : w.Claims) (hu : w.Unclaimed)
    (hs : (w.requests id).status = .published) (ho : ¬ w.Open id) : Cleared id w.trace := by
  have hcl := (hc id).claims
  have hwi := (hc id).withdrawals
  have hap := (hc id).applications
  have hpc : ¬ w.pc.applying? = some id := fun h => ho (.inl h)
  cases hp : (w.requests id).progress.claim with
  | pending =>
    rcases hu id hs hp with h | h | h
    · exact absurd (.inr ⟨hp, .inl h⟩) ho
    · exact absurd (.inr ⟨hp, .inr h⟩) ho
    · exact .inr (.inr h)
  | runner =>
    rw [if_pos hp] at hcl
    rw [if_neg hpc] at hap
    exact .inl (by omega)
  | withdrawn =>
    rw [if_pos hp] at hwi
    exact .inr (.inl (by omega))

/-- A request opens when it is published, at no other step. -/
theorem open_step (hc : w.Claims) (h : Transition cfg w e w') (ho : w'.Open id) :
    w.Open id ∨ e = .publish id := by
  cases protocolStep h id with
  | quiet status claim applying claiming slot =>
    exact .inl (by simpa only [Open, claim, applying, claiming, slot] using ho)
  | prepared before after pc slot =>
    rw [Open, pc, slot] at ho
    rcases ho with ha | ⟨-, hor⟩
    · exact .inl (.inl ha)
    · exact absurd (((hc id).published hor.symm).1.symm.trans before) nofun
  | published event => exact .inr event
  | overwritten other requests pc slot =>
    rw [Open, requests, pc, slot] at ho
    exact .inl (ho.imp_right fun ⟨hp, hor⟩ =>
      ⟨hp, .inl (hor.resolve_right fun hj => other (Option.some.inj hj))⟩)
  | withdrawn _ after pc =>
    rw [Open, after, pc] at ho
    exact .inl (.inl (ho.resolve_right (nofun ∘ And.left)))
  | retracted claim requests pc =>
    rw [Open, requests, claim, pc] at ho
    exact .inl (.inl (ho.resolve_right (nofun ∘ And.left)))
  | picked requests slot _ pc =>
    rw [Open, requests, pc] at ho
    exact .inl (.inr ⟨(ho.resolve_left nofun).1, .inr slot⟩)
  | ignored claim requests _ pc =>
    rw [Open, requests, pc] at ho
    exact absurd (ho.resolve_left nofun).1 claim
  | claimed at_ before => exact .inl (.inr ⟨before, .inl (congrArg Pc.claiming? at_)⟩)
  | applied at_ => exact .inl (.inl (congrArg Pc.applying? at_))

/-- Once dealt with, a published request does not open again. -/
theorem open_of_step (hc : w.Claims) (h : Transition cfg w e w')
    (hs : (w.requests id).status = .published) (ho : w'.Open id) : w.Open id := by
  refine (open_step hc h ho).resolve_right ?_
  rintro rfl
  cases h with
  | publish status => exact absurd (status.symm.trans hs) nofun
  | move m => cases m

/-- Where the runner has seen the slot and applies nothing, no request is open. -/
theorem not_open_of_seen (hc : w.Claims) (hs : w.unseen = false)
    (hp : w.pc.applying? = none ∧ w.pc.claiming? = none) : ¬ w.Open id := by
  rintro (h | ⟨hpending, h | h⟩)
  · exact absurd (hp.1.symm.trans h) nofun
  · exact absurd (hp.2.symm.trans h) nofun
  · rcases (hc id).seen h hpending with hu | hcl
    · exact absurd (hs.symm.trans hu) nofun
    · exact absurd (hp.2.symm.trans hcl) nofun

theorem published_of_pending (hc : w.Claims) (h : w.pendingRequest = some id) :
    (w.requests id).status = .published := by
  obtain ⟨hs, -⟩ := Option.filter_eq_some_iff.mp h
  exact ((hc id).published (.inl hs)).1

theorem published_step (h : Transition cfg w e w') (hs : (w.requests id).status = .published) :
    (w'.requests id).status = .published := by
  cases protocolStep h id with
  | quiet status => exact status.trans hs
  | prepared before | published _ before => exact absurd (before.symm.trans hs) nofun
  | overwritten _ requests | retracted _ requests | picked requests | ignored _ requests =>
    rw [requests]
    exact hs
  | withdrawn _ _ _ status | claimed _ _ _ status | applied _ _ _ status => exact status.trans hs

theorem mem_inHand_of_held {taken : Taken} (h : taken ∈ w.held.toList ++ []) :
    taken ∈ w.inHand := by
  rw [List.append_nil] at h
  exact List.mem_append_left _ h

/-- An envelope in hand was there before the step, or was taken in it. -/
theorem inHand_step (h : Transition cfg w e w') {taken : Taken} (ht : taken ∈ w'.inHand) :
    taken ∈ w.inHand ∨ taken.under = w.pendingRequest := by
  cases h with
  | close | refuse | cancel | tick | recordHash | prepare | publish | withdrawn | tooLate | retract
  | arrive => exact .inl ht
  | move m =>
    cases m <;> exact .inl (mem_inHand_of_held ht)
  | window | pickup | slotEmpty | claimed | initFailed | sent | eof | rerun | adopted | forwarded
  | filtered | unrouted | rolledBack | shutdown | hand =>
    exact .inl (mem_inHand_of_held ht)
  | unhold => exact absurd ht (List.not_mem_nil)
  | hold at_ =>
    obtain rfl := List.mem_singleton.mp ht
    rw [inHand, at_]
    exact .inl (List.mem_append_right _ (.head _))
  | retry | dequeue =>
    refine (List.mem_append.mp ht).imp (List.mem_append_left _) fun hm => ?_
    obtain rfl := List.mem_singleton.mp hm
    rfl
  | failed _ _ _ handled | escalated _ _ _ _ _ _ handled | lost _ _ _ handled =>
    have hr := handled.receivedTaken
    obtain ⟨pc, node, policy, metrics, state, generation, rfl⟩ := handled.frame
    simp only [inHand, observe] at hr ht
    rw [hr] at ht
    exact .inl (mem_inHand_of_held ht)

/-- Envelopes in hand name published requests. -/
def Named (w : World) : Prop :=
  ∀ taken ∈ w.inHand, ∀ id, taken.under = some id → (w.requests id).status = .published

theorem Named.step (hc : w.Claims) (hn : w.Named) (h : Transition cfg w e w') : w'.Named := by
  intro taken ht id hu
  refine published_step h ?_
  rcases inHand_step h ht with hm | hp
  · exact hn taken hm id hu
  · exact published_of_pending hc (hp ▸ hu)

/-- A held envelope waits for the request being claimed, or for one that is not open any more. -/
def HeldBack (w : World) : Prop :=
  ∀ taken id, w.held = some taken → taken.under = some id →
    (∀ j, w.pc = .claiming j → j = id ∨ ¬ w.Open id) ∧ (w.pc = .waiting → ¬ w.Open id)

theorem HeldBack.step (hc : w.Claims) (hn : w.Named) (hb : w.HeldBack)
    (h : Transition cfg w e w') : w'.HeldBack := by
  intro taken id hh hu
  have stays : ∀ t, w.held = some t → t.under = some id → ¬ w.Open id → ¬ w'.Open id :=
    fun t ht hu ho ho' => ho (open_of_step hc h
      (hn t (List.mem_append_left _ (by rw [ht]; exact .head _)) id hu) ho')
  cases h with
  | close | refuse | cancel | tick | recordHash | prepare | publish | withdrawn | tooLate | retract
  | arrive =>
    obtain ⟨hcl, hw⟩ := hb taken id hh hu
    exact ⟨fun j hj => (hcl j hj).imp_right (stays taken hh hu),
      fun hp => stays taken hh hu (hw hp)⟩
  | pickup at_ _ _ slot =>
    refine ⟨fun j hj => ?_, nofun⟩
    obtain rfl := Pc.claiming.inj hj
    refine or_iff_not_imp_left.mpr fun hne => stays taken hh hu ?_
    rintro (ho | ⟨-, ho | ho⟩)
    · exact absurd ho (by rw [at_]; nofun)
    · exact absurd ho (by rw [at_]; nofun)
    · exact hne (Option.some.inj (slot.symm.trans ho))
  | slotEmpty at_ _ _ slot =>
    refine ⟨nofun, fun _ => stays taken hh hu ?_⟩
    rintro (ho | ⟨-, ho | ho⟩)
    · exact absurd ho (by rw [at_]; nofun)
    · exact absurd ho (by rw [at_]; nofun)
    · exact absurd (slot.symm.trans ho) nofun
  | move m =>
    cases m with
    | noSwap at_ _ seen =>
      exact ⟨nofun, fun _ => stays taken hh hu
        (not_open_of_seen hc seen (by rw [at_]; exact ⟨rfl, rfl⟩))⟩
    | @ignored j at_ claim =>
      refine ⟨nofun, fun _ => stays taken hh hu ?_⟩
      rcases (hb taken id hh hu).1 j at_ with rfl | ho
      · rintro (ho | ⟨hp, -⟩)
        · exact absurd ho (by rw [at_]; nofun)
        · exact claim hp
      · exact ho
    | wait | swapFirst | retryNext | drained | idle | cancelled | swap | timer =>
      exact ⟨nofun, nofun⟩
  | window | claimed | initFailed | sent | eof | rerun | adopted | forwarded
  | filtered | unrouted | rolledBack | shutdown | unhold | hand | hold | retry | dequeue =>
    exact ⟨nofun, nofun⟩
  | failed _ _ _ handled | escalated _ _ _ _ _ _ handled | lost _ _ _ handled =>
    rcases handled.pc with hp | ⟨_, hp⟩ <;>
      exact ⟨fun j hj => absurd (hp.symm.trans hj) nofun, fun hw => absurd (hp.symm.trans hw) nofun⟩

/-- An envelope the loop may call the guest with. -/
def Ready (w : World) (taken : Taken) : Prop :=
  w.rollbackRetry = some taken ∨ w.pc = .waiting ∧ w.held = some taken ∨
    w.pc = .received taken ∧ w.unseen = false

/-- What one step does to calls, adoptions and instances. -/
inductive CallStep (w w' : World) : Prop
  | quiet (trace : w'.trace = w.trace ∨
        ∃ o, w'.trace = o :: w.trace ∧ o.called? = none ∧ o.adoption? = none)
      (later : w.generation ≤ w'.generation) (pc : ∀ call, w'.pc = .calling call → w.pc = .calling call)
      (rerun : ∀ taken, w'.rollbackRetry = some taken →
        w.rollbackRetry = some taken ∨ ∃ call, w.pc = .calling call ∧ call.taken = taken)
  | adopted {a : Adoption} (at_ : w.pc = .applying a.id) (trace : w'.trace = .adopted a :: w.trace)
      (replaced : a.generation = w.generation) (later : w'.generation = w.generation+1)
      (before : a.before = w.node.loaded) (node : w.node.rebuilt.isSome = true)
      (pc : w'.pc = .top) (rerun : w'.rollbackRetry = w.rollbackRetry)
  | called {call : Call} {before : List Obs} (ready : w.Ready call.taken)
      (pc : w'.pc = .calling call) (trace : w'.trace = .called call w.generation :: before)
      (handed : before = w.trace ∨ before = .handed call.taken :: w.trace)
      (generation : w'.generation = w.generation) (rerun : w'.rollbackRetry = none)

theorem callStep (hp : w.Placed) (h : Transition cfg w e w') : CallStep w w' := by
  cases h with
  | close | refuse | cancel | tick | recordHash | prepare | tooLate | retract | arrive =>
    exact .quiet (.inl rfl) le_rfl (fun _ h => h) fun _ h => .inl h
  | publish | withdrawn =>
    exact .quiet (.inr ⟨_, rfl, rfl, rfl⟩) le_rfl (fun _ h => h) fun _ h => .inl h
  | move m => cases m <;> exact .quiet (.inl rfl) le_rfl (by rintro _ ⟨⟩) fun _ h => .inl h
  | window | pickup | slotEmpty | sent | eof | filtered | unrouted | shutdown | hold =>
    exact .quiet (.inl rfl) le_rfl (by rintro _ ⟨⟩) fun _ h => .inl h
  | claimed | initFailed | retry | dequeue | forwarded =>
    exact .quiet (.inr ⟨_, rfl, rfl, rfl⟩) le_rfl (by rintro _ ⟨⟩) fun _ h => .inl h
  | adopted at_ replaced =>
    refine .adopted at_ (adopt_trace ..) rfl rfl rfl ?_ rfl rfl
    cases replaced with
    | reconfigured _ before | swapped _ _ before => exact congrArg Option.isSome before
  | rerun at_ rerun => exact .called (.inl rerun) rfl rfl (.inl rfl) rfl rfl
  | unhold at_ held =>
    exact .called (.inr (.inl ⟨at_, held⟩)) rfl rfl (.inr rfl) rfl (hp.rerun (by rw [at_]; rfl))
  | hand at_ seen =>
    exact .called (.inr (.inr ⟨at_, seen⟩)) rfl rfl (.inr rfl) rfl (hp.rerun (by rw [at_]; rfl))
  | failed at_ _ _ handled | lost at_ _ _ handled =>
    have hl := handled.later
    have hpc := handled.pc
    obtain ⟨pc, node, policy, metrics, state, generation, rfl⟩ := handled.frame
    refine .quiet (.inl rfl) (le_trans (by simp [restoreReplaced, reportTo]) hl) (fun call hc => ?_)
      fun _ h => .inl h
    rcases hpc with hp | ⟨_, hp⟩ <;> exact absurd (hc.symm.trans hp) (by rintro ⟨⟩)
  | escalated at_ _ _ _ _ _ handled running =>
    have hl := handled.later
    obtain ⟨pc, node, policy, metrics, state, generation, rfl⟩ := handled.frame
    exact .quiet (.inr ⟨_, rfl, rfl, rfl⟩) ((Nat.le_succ _).trans hl)
      (fun call hc => absurd (hc.symm.trans running) (by rintro ⟨⟩)) fun _ h => .inl h
  | rolledBack at_ =>
    exact .quiet (.inr ⟨_, rfl, rfl, rfl⟩) (Nat.le_succ _) (by rintro _ ⟨⟩)
      fun _ h => .inr ⟨_, at_, Option.some.inj h⟩

/-- A quiet step adds no call and no adoption. -/
theorem mem_of_quiet {o : Obs} (h : w'.trace = w.trace ∨
      ∃ o, w'.trace = o :: w.trace ∧ o.called? = none ∧ o.adoption? = none)
    (ho : o.called? ≠ none ∨ o.adoption? ≠ none) (hm : o ∈ w'.trace) : o ∈ w.trace := by
  rcases h with ht | ⟨o', ht, hc, ha⟩ <;> rw [ht] at hm
  · exact hm
  · refine (List.mem_cons.mp hm).resolve_left ?_
    rintro rfl
    exact ho.elim (absurd hc) (absurd ha)

/-- Adoptions replace instances one after the other. -/
def Replacing (w : World) : Prop := ∀ a, .adopted a ∈ w.trace → a.generation < w.generation

theorem Replacing.step (hp : w.Placed) (hr : w.Replacing) (h : Transition cfg w e w') :
    w'.Replacing := by
  intro a ha
  cases callStep hp h with
  | quiet trace later => exact lt_of_lt_of_le (hr a (mem_of_quiet trace (.inr nofun) ha)) later
  | adopted at_ trace replaced later =>
    rw [trace] at ha
    rw [later, Nat.lt_succ_iff]
    rcases List.mem_cons.mp ha with heq | hm
    · rw [Obs.adopted.inj heq, replaced]
    · exact (hr a hm).le
  | called ready pc trace handed generation =>
    rw [generation]
    rw [trace] at ha
    have hb := (List.mem_cons.mp ha).resolve_left nofun
    rcases handed with rfl | rfl
    · exact hr a hb
    · exact hr a ((List.mem_cons.mp hb).resolve_left nofun)

/-- Every call made so far that names a request came after it was dealt with, and runs on an
instance younger than the one it replaced. -/
structure CallsBehind (w : World) : Prop where
  behind : ∀ call gen id, .called call gen ∈ w.trace → call.taken.under = some id →
    (w.requests id).status = .published ∧ ¬ w.Open id ∧
      ∀ a, .adopted a ∈ w.trace → a.id = id → a.generation < gen
  current : ∀ call, w.pc = .calling call → ∃ gen, .called call gen ∈ w.trace
  rerun : ∀ taken, w.rollbackRetry = some taken →
    ∃ call gen, .called call gen ∈ w.trace ∧ call.taken = taken
  cleared : Lib.Justified Obs.CallCleared w.trace

/-- What the loop is ready to call the guest with names no open request. -/
theorem Ready.dealt (hc : w.Claims) (hn : w.Named) (hb : w.HeldBack) (hca : w.CallsBehind)
    {taken : Taken} (hr : w.Ready taken) (hu : taken.under = some id) :
    (w.requests id).status = .published ∧ ¬ w.Open id := by
  rcases hr with hr | ⟨at_, hh⟩ | ⟨at_, hs⟩
  · obtain ⟨call, gen, hm, rfl⟩ := hca.rerun taken hr
    obtain ⟨hst, ho, -⟩ := hca.behind call gen id hm hu
    exact ⟨hst, ho⟩
  · have hm : taken ∈ w.inHand := mem_inHand_of_held (by rw [hh]; exact .head _)
    exact ⟨hn taken hm id hu, (hb taken id hh hu).2 at_⟩
  · have hm : taken ∈ w.inHand := by
      rw [inHand, at_]
      exact List.mem_append_right _ (.head _)
    exact ⟨hn taken hm id hu, not_open_of_seen hc hs (by rw [at_]; exact ⟨rfl, rfl⟩)⟩

theorem CallsBehind.step (hc : w.Claims) (hp : w.Placed) (hu : w.Unclaimed) (hn : w.Named)
    (hb : w.HeldBack) (hr : w.Replacing) (hca : w.CallsBehind) (h : Transition cfg w e w') :
    w'.CallsBehind := by
  have kept : ∀ id, (w.requests id).status = .published ∧ ¬ w.Open id →
      (w'.requests id).status = .published ∧ ¬ w'.Open id := fun id hd =>
    ⟨published_step h hd.1, fun ho => hd.2 (open_of_step hc h hd.1 ho)⟩
  have grown : ∀ o ∈ w.trace, o ∈ w'.trace := fun _ hm => h.trace_suffix.subset hm
  cases callStep hp h with
  | quiet trace later pc rerun =>
    refine ⟨fun call gen id hm hid => ?_, fun call hpc => ?_, fun taken ht => ?_, ?_⟩
    · obtain ⟨hst, ho, hold⟩ := hca.behind call gen id (mem_of_quiet trace (.inl nofun) hm) hid
      obtain ⟨hst', ho'⟩ := kept id ⟨hst, ho⟩
      exact ⟨hst', ho', fun a ha => hold a (mem_of_quiet trace (.inr nofun) ha)⟩
    · exact (hca.current call (pc call hpc)).imp fun _ => grown _
    · rcases rerun taken ht with hrt | ⟨call, hpc, rfl⟩
      · obtain ⟨call, gen, hm, heq⟩ := hca.rerun taken hrt
        exact ⟨call, gen, grown _ hm, heq⟩
      · obtain ⟨gen, hm⟩ := hca.current call hpc
        exact ⟨call, gen, grown _ hm, rfl⟩
    · rcases trace with ht | ⟨o, ht, hno, -⟩ <;> rw [ht]
      · exact hca.cleared
      · exact ⟨fun call ho => absurd (hno.symm.trans ho) nofun, hca.cleared⟩
  | @adopted a at_ trace replaced later _ _ pc rerun =>
    have old : ∀ call gen, .called call gen ∈ w'.trace → .called call gen ∈ w.trace := by
      intro call gen hm
      rw [trace] at hm
      exact (List.mem_cons.mp hm).resolve_left nofun
    refine ⟨fun call gen id hm hid => ?_, fun call hpc => absurd (pc.symm.trans hpc) nofun,
      fun taken ht => ?_, ?_⟩
    · obtain ⟨hst, ho, hold⟩ := hca.behind call gen id (old call gen hm) hid
      obtain ⟨hst', ho'⟩ := kept id ⟨hst, ho⟩
      refine ⟨hst', ho', fun a' ha hid' => ?_⟩
      rw [trace] at ha
      rcases List.mem_cons.mp ha with heq | ha
      · obtain rfl := Obs.adopted.inj heq
        exact absurd (.inl (by rw [at_, hid']; rfl)) ho
      · exact hold a' ha hid'
    · obtain ⟨call, gen, hm, heq⟩ := hca.rerun taken (rerun ▸ ht)
      exact ⟨call, gen, grown _ hm, heq⟩
    · rw [trace]
      exact ⟨fun _ h => (nomatch h), hca.cleared⟩
  | @called call before ready pc trace handed generation rerun =>
    have old : ∀ o ∈ before, o.called? ≠ none ∨ o.adoption? ≠ none → o ∈ w.trace := by
      intro o hm ho
      rcases handed with rfl | rfl
      · exact hm
      · refine (List.mem_cons.mp hm).resolve_left ?_
        rintro rfl
        exact ho.elim (absurd rfl) (absurd rfl)
    have adoptions : ∀ a, .adopted a ∈ w'.trace → .adopted a ∈ w.trace := by
      intro a ha
      rw [trace] at ha
      exact old _ ((List.mem_cons.mp ha).resolve_left nofun) (.inr nofun)
    refine ⟨fun call' gen id hm hid => ?_, fun call' hpc => ?_, ?_, ?_⟩
    · rw [trace] at hm
      rcases List.mem_cons.mp hm with heq | hm
      · obtain ⟨rfl, rfl⟩ := Obs.called.inj heq
        obtain ⟨hst, ho⟩ := kept id (ready.dealt hc hn hb hca hid)
        exact ⟨hst, ho, fun a ha _ => hr a (adoptions a ha)⟩
      · obtain ⟨hst, ho, hold⟩ := hca.behind call' gen id (old _ hm (.inl nofun)) hid
        obtain ⟨hst', ho'⟩ := kept id ⟨hst, ho⟩
        exact ⟨hst', ho', fun a ha => hold a (adoptions a ha)⟩
    · obtain rfl := Pc.calling.inj (pc.symm.trans hpc)
      exact ⟨w.generation, by rw [trace]; exact .head _⟩
    · intro taken ht
      exact absurd (rerun.symm.trans ht) nofun
    · have hcleared : Obs.CallCleared (.called call w.generation) before := by
        intro call' heq id hid
        obtain rfl := Option.some.inj heq
        obtain ⟨hst, ho⟩ := ready.dealt hc hn hb hca hid
        refine (cleared_of_not_open hc hu hst ho).mono ?_
        rcases handed with rfl | rfl
        · exact List.suffix_rfl
        · exact List.suffix_cons ..
      rw [trace]
      refine ⟨hcleared, ?_⟩
      rcases handed with rfl | rfl
      · exact hca.cleared
      · exact ⟨fun _ h => (nomatch h), hca.cleared⟩

/-- The invariants behind the swap barrier. -/
structure Barrier (w : World) : Prop where
  claims : w.Claims
  placed : w.Placed
  unclaimed : w.Unclaimed
  named : w.Named
  heldBack : w.HeldBack
  replacing : w.Replacing
  calls : w.CallsBehind

theorem Barrier.step (hb : w.Barrier) (h : Transition cfg w e w') : w'.Barrier where
  claims := hb.claims.step h
  placed := hb.placed.step h
  unclaimed := hb.unclaimed.step hb.claims h
  named := hb.named.step hb.claims h
  heldBack := hb.heldBack.step hb.claims hb.named h
  replacing := hb.replacing.step hb.placed h
  calls := hb.calls.step hb.claims hb.placed hb.unclaimed hb.named hb.heldBack hb.replacing h

end Steps

end World

def Event.arrival : Event → List RuntimeEnvelope
  | arrive envelope => [envelope]
  | _ => []

/-- The envelopes put into the input queue, in order. -/
def arrivals (events : List Event) : List RuntimeEnvelope := events.flatMap Event.arrival

/-- What has entered the input queue: taken out in order, or still in it. -/
def World.entered (w : World) : List RuntimeEnvelope :=
  (w.taken.filter Taken.fresh).map Taken.envelope ++ w.input.buffer

section Runs

variable {cfg : LoopConfig} {setup : LoopSetup} {events : List Event} {w w' : World} {e : Event}

theorem Transition.entered (h : Transition cfg w e w') : w'.entered = w.entered ++ e.arrival := by
  unfold World.entered
  cases h with
  | close | refuse | cancel | tick | recordHash | prepare | publish | withdrawn | tooLate | retract
  | window | pickup | slotEmpty | claimed | initFailed | sent | eof | rerun | adopted | forwarded
  | filtered | unrouted | rolledBack | shutdown | unhold | hold | hand =>
    exact (List.append_nil _).symm
  | move m => cases m <;> exact (List.append_nil _).symm
  | arrive running room =>
    rw [InputQueue.send_buffer room]
    exact (List.append_assoc ..).symm
  | retry =>
    rw [World.taken_observe, List.filter_append, List.map_append]
    simp [Obs.taken?, Taken.fresh, Event.arrival, World.observe, World.taken]
  | dequeue at_ message =>
    obtain ⟨hb, -⟩ := InputQueue.recv_message message
    rw [World.taken_observe, List.filter_append, List.map_append, hb]
    simp [Obs.taken?, Taken.fresh, Event.arrival, World.observe, World.taken]
  | failed _ _ _ handled | escalated _ _ _ _ _ _ handled | lost _ _ _ handled =>
    obtain ⟨pc, node, policy, metrics, state, generation, rfl⟩ := handled.frame
    exact (List.append_nil _).symm

theorem runLoop_entered (h : runLoop cfg setup events = some w) : w.entered = arrivals events := by
  have hstep : ∀ s e t, step cfg s e = some t → World.entered t = s.entered ++ e.arrival :=
    fun _ _ _ hs => (step_transition hs).entered
  exact Lib.exec_collects hstep h

theorem World.Barrier.start (cfg : LoopConfig) (setup : LoopSetup) :
    (World.start cfg setup).Barrier where
  claims := .start cfg setup
  placed := .of_empty rfl rfl
  unclaimed _ hs := nomatch hs
  named _ ht := nomatch ht
  heldBack _ _ hh := nomatch hh
  replacing _ ha := nomatch ha
  calls :=
    ⟨fun _ _ _ hm => (nomatch hm), fun _ hp => (nomatch hp), fun _ hr => (nomatch hr), trivial⟩

theorem runLoop_barrier (h : runLoop cfg setup events = some w) : w.Barrier :=
  runLoop_invariant World.Barrier.step (.start cfg setup) h

/-- What entered the input queue leaves it in order and is handed to the loop once, but for an
envelope still in hand. An envelope taken under a pending replacement is only processed after that
replacement was applied, withdrawn or published over, on an instance younger than the one it
replaced. -/
theorem swap_barrier (h : runLoop cfg setup events = some w) :
    arrivals events = (w.taken.filter Taken.fresh).map Taken.envelope ++ w.input.buffer ∧
      w.taken = w.handed ++ w.inHand ∧ (∀ result, w.pc = .exited result → w.inHand = []) ∧
      ∀ later before call gen id, w.trace = later ++ .called call gen :: before →
        call.taken.under = some id →
          Cleared id before ∧ ∀ a, .adopted a ∈ w.trace → a.id = id → a.generation < gen := by
  have hb := runLoop_barrier h
  refine ⟨(runLoop_entered h).symm, runLoop_inOrder h, fun result hx => ?_,
    fun later before call gen id ht hu => ?_⟩
  · have he := hb.placed.empty (by rw [hx]; rfl)
    simp [World.inHand, he.1, hx, Pc.receivedTaken]
  · have hm : .called call gen ∈ w.trace := by
      rw [ht]
      exact List.mem_append_right _ (.head _)
    have hcleared := hb.calls.cleared
    rw [ht] at hcleared
    exact ⟨hcleared.of_append call rfl id hu, (hb.calls.behind call gen id hm hu).2.2⟩

end Runs

/-- A message is taken while the swap to `bb` is pending and waits for it. -/
def heldForSwap : List Event :=
  idleRound ++ [.arrive (.new "m" 0 "source" []), .prepare 0 .transform (some swapToB) (some "bb"),
    .publish 0, .select .recv]

/-- The held message meets the new plugin. -/
def handedToSwap : List Event :=
  heldForSwap ++ List.replicate 4 .advance ++ [.applied {} noAttempts] ++ List.replicate 3 .advance

/-- A reconfigure is published over the swap before the runner looks at the slot again. -/
def handedToReconfigure : List Event :=
  heldForSwap ++ [.prepare 1 (.reconfigure "new") none none, .publish 1] ++
    List.replicate 4 .advance ++ [.applied {} noAttempts] ++ List.replicate 3 .advance

theorem swap_barrier_held :
    ∃ w, runTransformLoopWithConfig "scale" {} sampleSetup handedToSwap = some w ∧
      ∃ call before, w.trace = .called call 1 :: before ∧ call.taken.under = some 0 ∧
        Cleared 0 before ∧ ∀ a, .adopted a ∈ w.trace → a.id = 0 → a.generation < 1 := by
  have hr : ∃ w, runTransformLoopWithConfig "scale" {} sampleSetup handedToSwap = some w ∧
      ∃ call before, w.trace = .called call 1 :: before ∧ call.taken.under = some 0 :=
    ⟨_, rfl, _, _, rfl, rfl⟩
  obtain ⟨w, h, call, before, ht, hu⟩ := hr
  exact ⟨w, h, call, before, ht, hu, (swap_barrier h).2.2.2 [] before call 1 0 ht hu⟩

/-- A replacement that is published over is neither applied nor withdrawn, and the message taken
while it was pending is processed all the same. -/
theorem superseded_swap_unapplied :
    ¬ ∀ setup events w, runTransformLoopWithConfig "scale" {} setup events = some w →
      ∀ later before call gen id, w.trace = later ++ .called call gen :: before →
        call.taken.under = some id → 0 < applications id before ∨ 0 < withdrawals id before := by
  intro h
  have hr : ∃ w, runTransformLoopWithConfig "scale" {} sampleSetup handedToReconfigure = some w ∧
      ∃ call gen before, w.trace = .called call gen :: before ∧ call.taken.under = some 0 ∧
        applications 0 before = 0 ∧ withdrawals 0 before = 0 :=
    ⟨_, rfl, _, _, _, rfl, rfl, rfl, rfl⟩
  obtain ⟨w, hw, call, gen, before, ht, hu, ha, hwi⟩ := hr
  have hc := h sampleSetup handedToReconfigure w hw [] before call gen 0 ht hu
  omega

end Wafer
