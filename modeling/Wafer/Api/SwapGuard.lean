import Wafer.Api.ReconfigureGuard

/-!
# One replacement at a time

The guard of a node lives in the request handler, the payload first in the
watch slot and then in the runner. A handler that ends while its payload can
still be adopted gives the guard away too early.

## Main definitions

- `World.Answered` — an outcome is only reported for a payload that was applied
- `NodeApi.Unsettled` — the runner can still adopt the payload
- `NodeApi.GuardKept` — no handler is dropped or gives up while its payload is unsettled
- `NodeApi.Guarded` — the invariant
-/

namespace Wafer

namespace World

/-- The outcome of `id` was sent, or the next one goes there. -/
def Reports (w : World) (id : Nat) : Prop :=
  w.pendingSwapProgress = some id ∨ (w.requests id).progress.sent ≠ []

/-- Outcomes go to payloads that were applied. -/
def Answered (w : World) : Prop := ∀ id, w.Reports id → 0 < applications id w.trace

section Steps

variable {cfg : LoopConfig} {w w' : World} {e : Event} {id : Nat}

theorem reportTo_sent {target : Option Nat} {f : HotSwapProgress → HotSwapProgress}
    (h : ((w.reportTo target f).requests id).progress.sent ≠ []) :
    target = some id ∨ (w.requests id).progress.sent ≠ [] := by
  cases target with
  | none => exact .inr h
  | some k =>
    by_cases hk : id = k
    · exact .inl (congrArg some hk.symm)
    · simp only [reportTo, Function.update_of_ne hk] at h
      exact .inr h

theorem restoreReplacedPluginHash_sent (p : HotSwapProgress) (hashes : PluginHashes) :
    (p.restoreReplacedPluginHash hashes).1.sent = p.sent := by
  simp only [HotSwapProgress.restoreReplacedPluginHash]
  split
  · split <;> rfl
  · rfl

theorem restoreReplaced_sent (w : World) (canary : TransformCanaryState) (error : WasmProcessError)
    (id : Nat) : ((w.restoreReplaced canary error).requests id).progress.sent =
      (w.requests id).progress.sent := by
  by_cases hk : id = canary.swap
  · subst hk
    simp [restoreReplaced, setProgress, restoreReplacedPluginHash_sent]
  · simp [restoreReplaced, setProgress, Function.update_of_ne hk]

theorem markOutcome_reports {outcome : FirstPostReplacementLocalOutcome}
    (h : (w.markOutcome outcome).Reports id) : w.Reports id := by
  have hs : ((w.reportTo w.pendingSwapProgress
      (·.markFirstPostReplacementLocalOutcome w.now outcome)).requests id).progress.sent ≠ [] :=
    h.resolve_left nofun
  exact reportTo_sent hs

/-- What a rollback reports goes to the payload it waits for. -/
theorem rollBack_reports {node : LoadedNode} {generation ns : Nat} {canary : TransformCanaryState}
    {error : WasmProcessError} {reason : String}
    (h : (({ w.restoreReplaced canary error with node, generation }.reportTo w.pendingSwapProgress
      (·.reportRolledBack ns reason)).requests id).progress.sent ≠ []) : w.Reports id := by
  refine (reportTo_sent h).imp_right fun hs => ?_
  rw [← w.restoreReplaced_sent canary error id]
  exact hs

/-- A payload starts to be reported when it is applied. -/
theorem reports_step (h : Transition cfg w e w') (hr : w'.Reports id) :
    w.Reports id ∨ 0 < applications id w'.trace := by
  cases h with
  | arrive | close | refuse | cancel | tick | recordHash | tooLate | retract | move | window | pickup
  | slotEmpty | eof | hold | shutdown | rerun | retry | dequeue | forwarded | unhold | hand =>
    exact .inl hr
  | @prepare j kind _ hash status =>
    by_cases hj : id = j
    · subst hj
      refine .inl (hr.imp_right fun hs => ?_)
      simp only [World.prepare, Function.update_self] at hs
      cases kind <;> cases hash <;> exact absurd rfl hs
    · simpa only [Reports, World.prepare, Function.update_of_ne hj] using Or.inl hr
  | @publish j =>
    refine .inl (hr.imp_right fun hs => ?_)
    by_cases hj : id = j
    · subst hj
      simpa only [World.publish, observe, Function.update_self] using hs
    · simpa only [World.publish, observe, Function.update_of_ne hj] using hs
  | @withdrawn j =>
    refine .inl (hr.imp_right fun hs => ?_)
    by_cases hj : id = j
    · subst hj
      simpa only [setProgress, observe, Function.update_self] using hs
    · simpa only [setProgress, observe, Function.update_of_ne hj] using hs
  | @claimed j =>
    refine .inl (hr.imp_right fun hs => ?_)
    by_cases hj : id = j
    · subst hj
      simpa only [setProgress, observe, Function.update_self] using hs
    · simpa only [setProgress, observe, Function.update_of_ne hj] using hs
  | @adopted j _ attempts node left =>
    by_cases hj : id = j
    · subst hj
      exact .inr (by simp [applications, adopt, observe, Obs.applies])
    · refine .inl (hr.elim (fun hp => absurd (Option.some.inj hp).symm hj) fun hs => .inr ?_)
      simpa only [adopt, setReplacement, setProgress, observe, Function.update_of_ne hj] using hs
  | @initFailed j =>
    by_cases hj : id = j
    · subst hj
      exact .inr (by simp [applications, failInit, observe, Obs.applies])
    · refine .inl (hr.imp_right fun hs => ?_)
      simpa only [failInit, setReplacement, reportTo, observe, Function.update_of_ne hj] using hs
  | @filtered _ node =>
    exact .inl (@markOutcome_reports { w with node, metrics := w.metrics.recordFilteredOut } id
      .filterDropped hr)
  | @unrouted _ node =>
    exact .inl (@markOutcome_reports { w with node, metrics := w.metrics.recordProcessed } id
      .routerDropped hr)
  | sent => exact .inl (@markOutcome_reports w id .forwardedEnqueued hr)
  | failed at_ loaded rebuilt handled =>
    obtain ⟨pc, node, policy, metrics, state, generation, rfl⟩ := handled.frame
    exact .inl hr
  | @rolledBack _ canary node node' error _ answers =>
    exact .inl (@rollBack_reports { w with node } id node' (w.generation+1) answers.rollbackNs canary
      error error.toString (hr.resolve_left (by rintro ⟨⟩)))
  | @escalated _ canary node node' error failure _ _ _ at_ _ _ _ _ _ handled
  | @lost _ canary node node' error failure _ _ _ _ at_ _ _ handled =>
    obtain ⟨pc, _, policy, metrics, state, generation, rfl⟩ := handled.frame
    exact .inl (@rollBack_reports { w with node } id node' (w.generation+1) 0 canary error
      ("rollback failed: " ++ failure.toString) (hr.resolve_left (by rintro ⟨⟩)))

theorem Answered.step (ha : w.Answered) (h : Transition cfg w e w') : w'.Answered := by
  intro id hr
  rcases reports_step h hr with hr | hr
  · exact lt_of_lt_of_le (ha id hr) (h.trace_suffix.sublist.filter _).length_le
  · exact hr

/-- A payload whose outcome was sent cannot be adopted again. -/
theorem Answered.not_open (ha : w.Answered) (hc : w.Claims)
    (hs : (w.requests id).progress.sent ≠ []) : ¬ w.Open id := by
  have hap := ha id (.inr hs)
  have hi := hc id
  rintro (h | ⟨hp, -⟩)
  · have happ := hi.applications
    have hcl := hi.claims
    rw [if_pos h] at happ
    split at hcl <;> omega
  · have happ := hi.applications
    have hcl := hi.claims
    rw [hp] at hcl
    simp only [reduceCtorEq, if_false] at hcl
    omega

/-- A loop that has returned does not run again. -/
theorem running_step (h : Transition cfg w e w') (hr : w'.running = true) : w.running = true := by
  cases h with
  | arrive running | publish _ running => exact running
  | close | refuse | cancel | tick | recordHash | tooLate | prepare | withdrawn | retract => exact hr
  | move m =>
    cases m with
    | noSwap at_ | ignored at_ | wait at_ | swapFirst at_ | retryNext at_ | drained at_ | idle at_
    | cancelled at_ | swap at_ | timer at_ => simp only [World.running, at_]
  | window at_ | rerun at_ | pickup at_ | slotEmpty at_ | claimed at_ | adopted at_ | initFailed at_
  | unhold at_ | retry at_ | dequeue at_ | eof at_ | hold at_ | hand at_ | forwarded at_
  | filtered at_ | unrouted at_ | failed at_ | rolledBack at_ | escalated at_ | lost at_ | sent at_
  | shutdown at_ => simp only [World.running, at_]

end Steps

end World

/-- Waits for the runner's verdict on the published payload. -/
def HandlerPhase.awaits : HandlerPhase → Bool
  | waiting | settling => true
  | _ => false

theorem HandlerPhase.holdsGuard_of_awaits {phase : HandlerPhase} (h : phase.awaits = true) :
    phase.holdsGuard = true := by
  cases phase <;> first | rfl | exact absurd h nofun

namespace NodeApi

/-- The payload of `id` is claimable in the watch slot or picked up, or claimed but neither adopted
nor failed. -/
def Unsettled (s : NodeApi) (id : Nat) : Prop := s.world.running = true ∧ s.world.Open id

/-- No handler is dropped, and none gives up waiting, while its payload is unsettled. -/
def GuardKept (s : NodeApi) (e : ApiEvent) : Prop :=
  ∀ id, e = .disconnect id ∨ e = .settle id → ¬ s.Unsettled id

/-- At most one payload is unsettled, and while one is, `try_begin_swap` refuses. -/
structure OneAtATime (cfg : LoopConfig) (s : NodeApi) : Prop where
  sole : ∀ id id', s.Unsettled id → s.Unsettled id' → id = id'
  refused : ∀ id, s.Unsettled id →
    tryBeginSwap cfg.nodeId s.swapInProgress = .error (.swapInProgress cfg.nodeId)

/-- One handler holds the guard, and an unsettled payload has its handler waiting for it. -/
structure Guarded (s : NodeApi) : Prop where
  claims : s.world.Claims
  answered : s.world.Answered
  held : ∀ id, (s.handlers id).phase.holdsGuard = true → s.swapInProgress = some true
  sole : ∀ id id', (s.handlers id).phase.holdsGuard = true →
    (s.handlers id').phase.holdsGuard = true → id = id'
  awaited : ∀ id, s.Unsettled id → (s.handlers id).phase.awaits = true

section Steps

variable {cfg : LoopConfig} {s s' : NodeApi} {e : ApiEvent} {we : Event} {id : Nat}

theorem Guarded.oneAtATime (hg : s.Guarded) : s.OneAtATime cfg where
  sole id id' h h' := hg.sole id id' (HandlerPhase.holdsGuard_of_awaits (hg.awaited id h))
    (HandlerPhase.holdsGuard_of_awaits (hg.awaited id' h'))
  refused id h := by
    rw [hg.held id (HandlerPhase.holdsGuard_of_awaits (hg.awaited id h))]
    rfl

/-- Only publishing makes a payload unsettled. -/
theorem unsettled_step {world : World} (hg : s.Guarded) (ht : Transition cfg s.world we world)
    (hp : we ≠ .publish id) (h : Unsettled { s with world } id) : s.Unsettled id :=
  ⟨World.running_step ht h.1, (World.open_step hg.claims ht h.2).resolve_right hp⟩

/-- A payload whose withdrawal succeeded is not open. -/
theorem withdraw_not_open {w w' : World} (hc : w.Claims)
    (hp : (w.requests id).progress.claim = .pending) (h : step cfg w (.withdraw id) = some w') :
    ¬ w'.Open id := by
  have hc' := hc.step (step_transition h) id
  have hw : (w'.requests id).progress.claim = .withdrawn := by
    simp only [Wafer.step, Option.ite_none_right_eq_some] at h
    obtain rfl := Option.some.inj h.2
    simp [World.withdraw, HotSwapProgress.tryWithdraw, hp, World.setProgress, World.observe]
  rintro (ha | ⟨hpend, -⟩)
  · have hcl := hc'.claims
    have happ := hc'.applications
    rw [if_pos ha] at happ
    rw [hw] at hcl
    simp only [reduceCtorEq, if_false] at hcl
    omega
  · exact absurd (hw.symm.trans hpend) (by rintro ⟨⟩)

@[simp] theorem setPhase_phase (s : NodeApi) (id : Nat) (phase : HandlerPhase) :
    ((s.setPhase id phase).handlers id).phase = phase := by
  simp [setPhase]

@[simp] theorem setPhase_other {j : Nat} (hj : j ≠ id) (phase : HandlerPhase) :
    (s.setPhase id phase).handlers j = s.handlers j := by
  simp [setPhase, Function.update_of_ne hj]

/-- The handler that holds the guard goes on with it. -/
theorem Guarded.goOn {world : World} {handlers : Nat → Handler} (hg : s.Guarded)
    (ht : world = s.world ∨ ∃ we, Transition cfg s.world we world ∧
      ∀ j, we = .publish j → j = id)
    (hh : ∀ j, j ≠ id → handlers j = s.handlers j)
    (before : (s.handlers id).phase.holdsGuard = true)
    (after : (handlers id).phase.holdsGuard = true)
    (aw : Unsettled { s with world } id → (handlers id).phase.awaits = true) :
    Guarded { s with world, handlers } := by
  have old : ∀ j, (handlers j).phase.holdsGuard = true → (s.handlers j).phase.holdsGuard = true := by
    intro j hj
    by_cases hji : j = id
    · exact hji ▸ before
    · rwa [← hh j hji]
  refine ⟨?_, ?_, fun j hj => hg.held j (old j hj),
    fun i j hi hj => hg.sole i j (old i hi) (old j hj), fun j hu => ?_⟩
  · rcases ht with rfl | ⟨we, ht, -⟩
    · exact hg.claims
    · exact hg.claims.step ht
  · rcases ht with rfl | ⟨we, ht, -⟩
    · exact hg.answered
    · exact hg.answered.step ht
  · by_cases hji : j = id
    · subst hji
      exact aw hu
    · show (handlers j).phase.awaits = true
      rw [hh j hji]
      rcases ht with rfl | ⟨we, ht, hpub⟩
      · exact hg.awaited j hu
      · exact hg.awaited j (unsettled_step hg ht (fun hwe => hji (hpub j hwe)) hu)

/-- The handler that holds the guard ends with its payload settled. -/
theorem Guarded.release (cfg : LoopConfig) {world : World} {response : Option Response} (hg : s.Guarded)
    (ht : world = s.world ∨ ∃ we, Transition cfg s.world we world ∧ ∀ j, we ≠ .publish j)
    (before : (s.handlers id).phase.holdsGuard = true)
    (settled : ¬ s.Unsettled id) : Guarded { s.release id response with world } := by
  have none_left : ∀ j, ((s.release id response).handlers j).phase.holdsGuard = true → False := by
    intro j hj
    by_cases hji : j = id
    · subst hji
      rw [NodeApi.release, setPhase_phase] at hj
      cases hj
    · rw [NodeApi.release] at hj
      rw [show _ = s.handlers j from setPhase_other hji _] at hj
      exact hji (hg.sole j id hj before)
  have back : ∀ j, Unsettled { s with world } j → s.Unsettled j := by
    intro j hu
    rcases ht with rfl | ⟨we, ht, hpub⟩
    · exact hu
    · exact unsettled_step hg ht (hpub j) hu
  refine ⟨?_, ?_, fun j hj => (none_left j hj).elim, fun i j hi => (none_left i hi).elim,
    fun j hu => ?_⟩
  · rcases ht with rfl | ⟨we, ht, -⟩
    · exact hg.claims
    · exact hg.claims.step ht
  · rcases ht with rfl | ⟨we, ht, -⟩
    · exact hg.answered
    · exact hg.answered.step ht
  · -- the only handler that could wait is the one that ends
    have haw := hg.awaited j (back j hu)
    have hji : j = id := hg.sole j id (HandlerPhase.holdsGuard_of_awaits haw) before
    exact absurd (hji ▸ back j hu) settled

theorem Guarded.begin_ (hg : s.Guarded) (hp : (s.handlers id).phase = .absent) :
    (s.begin_ cfg.nodeId id).Guarded := by
  have quiet : ∀ j, s.Unsettled j → j ≠ id := by
    rintro j hu rfl
    have haw := hg.awaited j hu
    rw [hp] at haw
    cases haw
  simp only [NodeApi.begin_]
  split
  · next flag hb =>
    -- the flag was free, so nobody held the guard
    have hfree : s.swapInProgress = some false ∧ flag = some true := by
      simp only [tryBeginSwap] at hb
      split at hb
      · cases hb
      · cases hb
      · next hs => exact ⟨hs, (Except.ok.inj hb).symm⟩
    have only : ∀ j, ((s.setPhase id .guarded).handlers j).phase.holdsGuard = true → j = id := by
      intro j hj
      by_contra hji
      rw [setPhase_other hji] at hj
      exact absurd (hfree.1.symm.trans (hg.held j hj)) (by rintro ⟨⟩)
    refine ⟨hg.claims, hg.answered, fun _ _ => hfree.2, fun i j hi hj => ?_, fun j hu => ?_⟩
    · exact (only i hi).trans (only j hj).symm
    · show ((s.setPhase id .guarded).handlers j).phase.awaits = true
      rw [setPhase_other (quiet j hu)]
      exact hg.awaited j hu
  · next error hb =>
    have old : ∀ j, ((s.setPhase id (.gone (some (replacementError error)))).handlers
        j).phase.holdsGuard = true → (s.handlers j).phase.holdsGuard = true := by
      intro j hj
      by_cases hji : j = id
      · subst hji
        rw [setPhase_phase] at hj
        cases hj
      · rwa [setPhase_other hji] at hj
    refine ⟨hg.claims, hg.answered, fun j hj => hg.held j (old j hj),
      fun i j hi hj => hg.sole i j (old i hi) (old j hj), fun j hu => ?_⟩
    rw [setPhase_other (quiet j hu)]
    exact hg.awaited j hu

/-- A handler that does not wait has no unsettled payload. -/
theorem Guarded.settled (hg : s.Guarded) (h : (s.handlers id).phase.awaits = false) :
    ¬ s.Unsettled id := fun hu => by
  rw [hg.awaited id hu] at h
  exact absurd h nofun

/-- An outcome in the channel settles the payload. -/
theorem Guarded.outcome (cfg : LoopConfig) (hg : s.Guarded) (hp : (s.handlers id).phase = .waiting)
    (h : s.outcome id = some s') : s'.Guarded := by
  have before : (s.handlers id).phase.holdsGuard = true := by rw [hp]; rfl
  obtain ⟨o, ho, rfl⟩ := Option.map_eq_some_iff.mp h
  have hs : (s.world.requests id).progress.sent ≠ [] := by
    intro hnil
    rw [hnil] at ho
    cases ho
  exact hg.release cfg (.inl rfl) before fun hu => hg.answered.not_open hg.claims hs hu.2

/-- A withdrawn payload is settled; one that was claimed first is waited for. -/
theorem Guarded.timeout (hg : s.Guarded) (hp : (s.handlers id).phase = .waiting)
    (h : s.timeout cfg id = some s') : s'.Guarded := by
  have before : (s.handlers id).phase.holdsGuard = true := by rw [hp]; rfl
  simp only [NodeApi.timeout] at h
  obtain ⟨world, hw, rfl⟩ := Option.map_eq_some_iff.mp h
  have ht := step_transition hw
  refine hg.goOn (.inr ⟨_, ht, by rintro _ ⟨⟩⟩) (fun j hj => setPhase_other hj _) before ?_ fun hu => ?_
  · rw [setPhase_phase]
    split <;> rfl
  · rw [setPhase_phase]
    split
    · next htw =>
      -- the withdrawal won, so the runner cannot claim any more
      have hc : (s.world.requests id).progress.claim = .pending := by
        simp only [HotSwapProgress.tryWithdraw] at htw
        split at htw
        · assumption
        · cases htw
      exact absurd hu.2 (withdraw_not_open hg.claims hc hw)
    · rfl

theorem Guarded.step (hg : s.Guarded) (hk : s.GuardKept e) (h : fire cfg s e = some s') :
    s'.Guarded := by
  cases e with
  | runner we =>
    simp only [fire, Option.ite_none_right_eq_some] at h
    obtain ⟨hr, h⟩ := h
    obtain ⟨world, hw, rfl⟩ := Option.map_eq_some_iff.mp h
    have ht := step_transition hw
    refine ⟨hg.claims.step ht, hg.answered.step ht, hg.held, hg.sole, fun j hu => ?_⟩
    exact hg.awaited j (unsettled_step hg ht (by rintro rfl; exact absurd hr (by rintro ⟨⟩)) hu)
  | begin_ id =>
    simp only [fire, Option.ite_none_right_eq_some] at h
    obtain ⟨hp, h⟩ := h
    obtain rfl := Option.some.inj h
    exact hg.begin_ hp
  | prepared id replacement =>
    simp only [fire, Option.ite_none_right_eq_some] at h
    obtain ⟨hp, h⟩ := h
    obtain ⟨world, hw, rfl⟩ := Option.map_eq_some_iff.mp h
    have ht := step_transition hw
    refine hg.goOn (.inr ⟨_, ht, by rintro _ ⟨⟩⟩) (fun j hj => setPhase_other hj _) (by rw [hp]; rfl)
      (by rw [setPhase_phase]; rfl) fun hu => ?_
    exact absurd (unsettled_step hg ht (by rintro ⟨⟩) hu) (hg.settled (by rw [hp]; rfl))
  | failPreparation id response =>
    simp only [fire, Option.ite_none_right_eq_some] at h
    obtain ⟨hp, h⟩ := h
    obtain rfl := Option.some.inj h
    exact hg.release cfg (.inl rfl) (by rw [hp]; rfl) (hg.settled (by rw [hp]; rfl))
  | reconfigure id config expected =>
    simp only [fire, Option.ite_none_right_eq_some] at h
    obtain ⟨hp, h⟩ := h
    unfold NodeApi.reconfigure at h
    dsimp only at h
    split at h
    · obtain rfl := Option.some.inj h
      exact hg.release cfg (.inl rfl) (by rw [hp]; rfl) (hg.settled (by rw [hp]; rfl))
    · obtain ⟨world, hw, rfl⟩ := Option.map_eq_some_iff.mp h
      have ht := step_transition hw
      refine hg.goOn (.inr ⟨_, ht, by rintro _ ⟨⟩⟩) (fun j hj => Function.update_of_ne hj _ _)
        (by rw [hp]; rfl) (by rw [Function.update_self]; rfl) fun hu => ?_
      exact absurd (unsettled_step hg ht (by rintro ⟨⟩) hu) (hg.settled (by rw [hp]; rfl))
  | sendSwap id =>
    simp only [fire, Option.ite_none_right_eq_some] at h
    obtain ⟨hp, h⟩ := h
    simp only [NodeApi.sendSwap] at h
    split at h
    · obtain ⟨world, hw, rfl⟩ := Option.map_eq_some_iff.mp h
      refine hg.goOn (.inr ⟨_, step_transition hw, fun j hj => (Event.publish.inj hj).symm⟩)
        (fun j hj => setPhase_other hj _) (by rw [hp]; rfl) (by rw [setPhase_phase]; rfl) fun _ => ?_
      rw [setPhase_phase]
      rfl
    · obtain rfl := Option.some.inj h
      exact hg.release cfg (.inl rfl) (by rw [hp]; rfl) (hg.settled (by rw [hp]; rfl))
  | outcome id =>
    simp only [fire, Option.ite_none_right_eq_some] at h
    exact hg.outcome cfg h.1 h.2
  | timeout id =>
    simp only [fire, Option.ite_none_right_eq_some] at h
    exact hg.timeout h.1 h.2
  | retractSwap id =>
    simp only [fire, Option.ite_none_right_eq_some] at h
    obtain ⟨hp, h⟩ := h
    obtain ⟨world, hw, rfl⟩ := Option.map_eq_some_iff.mp h
    exact hg.release cfg (.inr ⟨_, step_transition hw, by rintro _ ⟨⟩⟩) (by rw [hp]; rfl)
      (hg.settled (by rw [hp]; rfl))
  | settle id =>
    simp only [fire, Option.ite_none_right_eq_some] at h
    obtain ⟨hp, h⟩ := h
    obtain rfl := Option.some.inj h
    exact hg.release cfg (.inl rfl) (by rw [hp]; rfl) (hk id (.inr rfl))
  | disconnect id =>
    simp only [fire, Option.ite_none_right_eq_some] at h
    obtain ⟨hp, h⟩ := h
    obtain rfl := Option.some.inj h
    exact hg.release cfg (.inl rfl) hp (hk id (.inl rfl))

/-- One step leads to a state with one replacement at a time exactly when it keeps the guard. -/
theorem Guarded.oneAtATime_iff (hg : s.Guarded) (h : fire cfg s e = some s') :
    s'.OneAtATime cfg ↔ s.GuardKept e := by
  refine ⟨fun ho id he hu => ?_, fun hk => (hg.step hk h).oneAtATime⟩
  -- the payload stays unsettled, but the flag is free
  have hs' : ∃ response, s' = s.release id response := by
    rcases he with rfl | rfl
    · simp only [fire, Option.ite_none_right_eq_some] at h
      exact ⟨none, (Option.some.inj h.2).symm⟩
    · simp only [fire, Option.ite_none_right_eq_some] at h
      exact ⟨_, (Option.some.inj h.2).symm⟩
  obtain ⟨response, rfl⟩ := hs'
  exact absurd (ho.refused id hu) (by rintro ⟨⟩)

end Steps

section Runs

variable {cfg : LoopConfig} {setup : LoopSetup} {events : List ApiEvent} {s : NodeApi}

theorem Guarded.start (cfg : LoopConfig) (setup : LoopSetup) : (start cfg setup).Guarded where
  claims := .start cfg _
  answered := by
    rintro id (hr | hr)
    · exact absurd hr nofun
    · exact absurd rfl hr
  held _ h := nomatch h
  sole _ _ h := nomatch h
  awaited := by
    rintro id ⟨-, h | ⟨-, h | h⟩⟩ <;> exact absurd h nofun

/-- At every instant at most one payload is unsettled and further requests are refused, exactly in
the runs where no handler leaves its unsettled payload behind. -/
theorem one_replacement_at_a_time (h : run cfg setup events = some s) :
    Lib.StepsMeet (fire cfg) GuardKept (start cfg setup) events ↔
      ∀ done later u, events = done ++ later → run cfg setup done = some u → u.OneAtATime cfg :=
  Lib.StepsMeet.iff_always (I := Guarded) (fun _ _ _ hg hk hf => hg.step hk hf)
    (fun _ _ _ hg hf => hg.oneAtATime_iff hf) h (.start cfg setup) (Guarded.start cfg setup).oneAtATime

end Runs

/-- A hot swap that is answered after its replacement processed a message. -/
def answeredSwap : List ApiEvent :=
  [.begin_ 0, .prepared 0 swapToB, .sendSwap 0] ++
    ofLoop ([.advance, .advance, .advance, .applied {} noAttempts] ++ idleRound ++
      [.arrive (.new "m" 0 "source" []), .select .recv, .advance, echoAnswer, .sent]) ++
    [.outcome 0]

theorem one_replacement_at_a_time_answered :
    ∃ s, run ⟨.transform, "scale", {}⟩ sampleSetup answeredSwap = some s ∧
      s.swapInProgress = some false ∧ s.OneAtATime ⟨.transform, "scale", {}⟩ := by
  have hr : ∃ s, run ⟨.transform, "scale", {}⟩ sampleSetup answeredSwap = some s ∧
      s.swapInProgress = some false := ⟨_, rfl, rfl⟩
  obtain ⟨s, h, hf⟩ := hr
  refine ⟨s, h, hf, (one_replacement_at_a_time h).mp ?_ answeredSwap [] s (by simp) h⟩
  refine .of_forall fun t e he id hid => ?_
  rcases hid with rfl | rfl <;> simp [answeredSwap, ofLoop] at he

/-- The client of a claimed hot swap disconnects and a reconfigure is admitted next to it. -/
def abandonedSwap : List ApiEvent :=
  [.begin_ 0, .prepared 0 swapToB, .sendSwap 0, .runner .advance, .runner .advance,
    .runner .advance, .disconnect 0, .begin_ 1, .reconfigure 1 "new" none, .sendSwap 1]

theorem abandoned_swap_is_joined :
    ∃ s, run ⟨.transform, "scale", {}⟩ sampleSetup abandonedSwap = some s ∧
      s.Unsettled 0 ∧ s.Unsettled 1 :=
  ⟨_, rfl, ⟨rfl, .inl rfl⟩, rfl, .inr ⟨rfl, .inr rfl⟩⟩

end NodeApi

end Wafer
