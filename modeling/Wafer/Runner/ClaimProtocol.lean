import Wafer.Runner.Accounting

/-!
# The claim and withdraw protocol

The API and the runner race over each request: the runner claims the payload it
finds in the watch slot, the API withdraws a request it gave up on. The
invariant relates one request to what the trace says about it, for any number
of requests over the same slot.
-/

namespace Wafer

namespace Pc

def applying? : Pc → Option Nat
  | applying id => some id
  | _ => none

def claiming? : Pc → Option Nat
  | claiming id => some id
  | _ => none

end Pc

theorem World.Handled.applying {n : Nat} {w w' : World} (h : w.Handled n w') :
    w'.pc.applying? = none ∧ w'.pc.claiming? = none := by
  rcases h.pc with hp | ⟨e, hp⟩ <;> rw [hp] <;> exact ⟨rfl, rfl⟩

namespace Obs

def claims (id : Nat) : Obs → Bool
  | claimed j => j == id
  | _ => false

def withdraws (id : Nat) : Obs → Bool
  | withdrawn j => j == id
  | _ => false

/-- The payload of `id` was applied to the node, successfully or not. -/
def applies (id : Nat) : Obs → Bool
  | adopted adoption => adoption.id == id
  | initFailed j => j == id
  | _ => false

def adoptedAt (id : Nat) : Obs → Option Nat
  | adopted adoption => if adoption.id = id then some adoption.at_ else none
  | _ => none

end Obs

/-- Successful claims of `id`. -/
def claims (id : Nat) (trace : List Obs) : Nat := (trace.filter (Obs.claims id)).length

/-- Successful withdrawals of `id`. -/
def withdrawals (id : Nat) (trace : List Obs) : Nat := (trace.filter (Obs.withdraws id)).length

def applications (id : Nat) (trace : List Obs) : Nat := (trace.filter (Obs.applies id)).length

/-- What ties a request to the trace, the program counter and the watch slot. -/
structure ClaimsAt (id : Nat) (r : Request) (trace : List Obs) (pc : Pc) (slot : Option Nat)
    (unseen : Bool) : Prop where
  claims : claims id trace = if r.progress.claim = .runner then 1 else 0
  withdrawals : withdrawals id trace = if r.progress.claim = .withdrawn then 1 else 0
  applications :
    applications id trace + (if pc.applying? = some id then 1 else 0) = Wafer.claims id trace
  oneShot : r.progress.OneShot
  success : r.progress.SuccessAdopted
  adopted : ∀ at_, r.progress.replacementAdopted = some at_ →
    ∃ o ∈ trace, o.adoptedAt id = some at_
  unprepared : r.status = .unprepared → r.progress.claim = .pending
  published : slot = some id ∨ pc.claiming? = some id →
    r.status = .published ∧ .published id ∈ trace
  runner : r.progress.claim = .runner → r.status = .published ∧ pc.claiming? ≠ some id ∧
    (slot = some id → unseen = false)
  picked : pc.claiming? = some id → slot = some id → unseen = false
  seen : slot = some id → r.progress.claim = .pending → unseen = true ∨ pc.claiming? = some id

def World.Claims (w : World) : Prop :=
  ∀ id, ClaimsAt id (w.requests id) w.trace w.pc w.slot w.unseen

namespace ClaimsAt

variable {id : Nat} {r r' : Request} {trace trace' : List Obs} {pc pc' : Pc}
  {slot slot' : Option Nat} {unseen : Bool}

/-- An application of `id` is in the trace if the request is marked adopted. -/
theorem applied (h : ClaimsAt id r trace pc slot unseen) {at_ : Nat}
    (ha : r.progress.replacementAdopted = some at_) : 0 < Wafer.applications id trace := by
  obtain ⟨o, ho, hoa⟩ := h.adopted at_ ha
  refine List.length_pos_of_mem (List.mem_filter.mpr ⟨ho, ?_⟩)
  cases o <;> simp_all [Obs.adoptedAt, Obs.applies]

/-- A withdrawn request has no application in the trace and is not marked adopted. -/
theorem withdrawn_unapplied (h : ClaimsAt id r trace pc slot unseen)
    (hw : 0 < Wafer.withdrawals id trace) :
    Wafer.applications id trace = 0 ∧ r.progress.replacementAdopted = none := by
  have hcl := h.claims
  have hwi := h.withdrawals
  have hap : Wafer.applications id trace ≤ Wafer.claims id trace :=
    h.applications ▸ Nat.le_add_right ..
  have hz : Wafer.applications id trace = 0 := by
    cases hc : r.progress.claim <;> simp [hc] at hcl hwi <;> omega
  exact ⟨hz, Option.eq_none_iff_forall_ne_some.mpr fun at_ ha => absurd (h.applied ha) (by omega)⟩

/-- Steps that leave the claim of `id`, its place and the protocol part of its trace alone. -/
theorem of_quiet (h : ClaimsAt id r trace pc slot unseen) (status : r'.status = r.status)
    (progress : r.progress.Follows r'.progress)
    (same : Wafer.claims id trace' = Wafer.claims id trace ∧
      Wafer.withdrawals id trace' = Wafer.withdrawals id trace ∧
      Wafer.applications id trace' = Wafer.applications id trace ∧ trace ⊆ trace')
    (applying : pc'.applying? = some id ↔ pc.applying? = some id)
    (claiming : pc'.claiming? = some id ↔ pc.claiming? = some id)
    (slot_eq : slot' = some id → slot = some id) : ClaimsAt id r' trace' pc' slot' unseen where
  claims := by rw [same.1, progress.claim]; exact h.claims
  withdrawals := by rw [same.2.1, progress.claim]; exact h.withdrawals
  applications := by rw [same.2.2.1, same.1]; simpa only [applying] using h.applications
  oneShot := progress.oneShot h.oneShot
  success := progress.success h.success
  adopted at_ ha := by
    obtain ⟨o, ho, hoa⟩ := h.adopted at_ (progress.adopted ▸ ha)
    exact ⟨o, same.2.2.2 ho, hoa⟩
  unprepared hs := by rw [progress.claim]; exact h.unprepared (status ▸ hs)
  published hp := by
    obtain ⟨hs, ht⟩ := h.published (hp.imp slot_eq claiming.mp)
    exact ⟨status.trans hs, same.2.2.2 ht⟩
  runner hc := by
    obtain ⟨hs, hn, hu⟩ := h.runner (progress.claim ▸ hc)
    exact ⟨status.trans hs, fun hp => hn (claiming.mp hp), fun hs => hu (slot_eq hs)⟩
  picked hp hs := h.picked (claiming.mp hp) (slot_eq hs)
  seen hs hc := (h.seen (slot_eq hs) (progress.claim ▸ hc)).imp_right claiming.mpr

/-- A request that was not prepared yet is nowhere in the protocol. -/
theorem absent (h : ClaimsAt id r trace pc slot unseen) (status : r.status ≠ .published) :
    slot ≠ some id ∧ pc.claiming? ≠ some id :=
  ⟨fun hs => status (h.published (.inl hs)).1, fun hp => status (h.published (.inr hp)).1⟩

theorem prepared {kind : PayloadKind} {replacement : Option PreparedSwap}
    {update : Option PluginHashUpdate} (h : ClaimsAt id r trace pc slot unseen)
    (status : r.status = .unprepared) :
    ClaimsAt id ⟨.prepared, kind, replacement, { pluginHash := update }⟩ trace pc slot unseen := by
  have hp := h.unprepared status
  have hc := h.claims
  have hw := h.withdrawals
  rw [hp] at hc hw
  obtain ⟨hs, hpc⟩ := h.absent (by rw [status]; nofun)
  exact ⟨hc, hw, h.applications, rfl, nofun, nofun, fun _ => rfl,
    fun hor => hor.elim (absurd · hs) (absurd · hpc), nofun, fun hp => absurd hp hpc,
    fun hsl => absurd hsl hs⟩

theorem publish (h : ClaimsAt id r trace pc slot unseen) (status : r.status = .prepared) :
    ClaimsAt id { r with status := .published } (.published id :: trace) pc (some id) true := by
  obtain ⟨hs, hpc⟩ := h.absent (by rw [status]; nofun)
  exact ⟨h.claims, h.withdrawals, h.applications, h.oneShot, h.success,
    fun at_ ha => (h.adopted at_ ha).imp fun _ ho => ⟨.tail _ ho.1, ho.2⟩, nofun,
    fun _ => ⟨rfl, .head _⟩,
    fun hc => absurd (h.runner hc).1 (by rw [status]; nofun), fun hp => absurd hp hpc,
    fun _ _ => .inl rfl⟩

/-- Another request was published over the slot. -/
theorem publish_other {j : Nat} (h : ClaimsAt id r trace pc slot unseen) (hj : id ≠ j) :
    ClaimsAt id r (.published j :: trace) pc (some j) true := by
  have hn : some j ≠ some id := fun hs => hj (Option.some.inj hs).symm
  exact ⟨h.claims, h.withdrawals, h.applications, h.oneShot, h.success,
    fun at_ ha => (h.adopted at_ ha).imp fun _ ho => ⟨.tail _ ho.1, ho.2⟩, h.unprepared,
    fun hor => (h.published (hor.imp_left (absurd · hn))).imp_right (.tail _),
    fun hc => ⟨(h.runner hc).1, (h.runner hc).2.1, (absurd · hn)⟩, fun _ hs => absurd hs hn,
    fun hs => absurd hs hn⟩

/-- The runner saw the payload and took it out to claim it. -/
theorem pickup {j : Nat} (h : ClaimsAt id r trace .swapCheck (some j) true) :
    ClaimsAt id r trace (.claiming j) (some j) false := by
  refine ⟨h.claims, h.withdrawals, h.applications, h.oneShot, h.success, h.adopted, h.unprepared,
    fun hor => ?_, fun hc => ⟨(h.runner hc).1, fun hp => ?_, fun _ => rfl⟩, fun _ _ => rfl,
    fun hs _ => .inr hs⟩
  · exact h.published (.inl (hor.elim (fun h => h) fun hp => hp))
  · exact absurd ((h.runner hc).2.2 hp) nofun

/-- The slot was empty: its version is seen now. -/
theorem slotEmpty (h : ClaimsAt id r trace .swapCheck none unseen) :
    ClaimsAt id r trace .waiting none false :=
  ⟨h.claims, h.withdrawals, h.applications, h.oneShot, h.success, h.adopted, h.unprepared,
    nofun, fun hc => ⟨(h.runner hc).1, nofun, nofun⟩, nofun, nofun⟩

/-- The runner ignored a payload that is not pending. -/
theorem ignored {j : Nat} (h : ClaimsAt id r trace (.claiming j) slot unseen)
    (hc : id = j → r.progress.claim ≠ .pending) :
    ClaimsAt id r trace .waiting slot unseen := by
  refine ⟨h.claims, h.withdrawals, h.applications, h.oneShot, h.success, h.adopted, h.unprepared,
    fun hor => h.published (.inl (hor.resolve_right nofun)),
    fun hr => ⟨(h.runner hr).1, nofun, (h.runner hr).2.2⟩, nofun, fun hs hp => ?_⟩
  exact .inl ((h.seen hs hp).resolve_right fun hj => hc (Option.some.inj hj).symm hp)

/-- The runner's `try_claim` succeeded. -/
theorem claimed (h : ClaimsAt id r trace (.claiming id) slot unseen)
    (hc : r.progress.claim = .pending) :
    ClaimsAt id { r with progress := { r.progress with claim := .runner } }
      (.claimed id :: trace) (.applying id) slot unseen := by
  have hcl := h.claims
  have hwi := h.withdrawals
  rw [hc] at hcl hwi
  have hap : Wafer.applications id trace = 0 := by
    have := h.applications
    rw [hcl] at this
    exact this
  have hone : Wafer.claims id (.claimed id :: trace) = 1 := by
    simpa [Wafer.claims, Obs.claims] using hcl
  obtain ⟨hst, htr⟩ := h.published (.inr rfl)
  refine ⟨hone, hwi, ?_, h.oneShot, h.success, ?_, fun hs => ?_, fun _ => ⟨hst, .tail _ htr⟩,
    fun _ => ⟨hst, nofun, h.picked rfl⟩, nofun, nofun⟩
  · rw [hone, show Wafer.applications id (.claimed id :: trace) = 0 from hap]
    simp [Pc.applying?]
  · exact fun at_ ha => (h.adopted at_ ha).imp fun _ ho => ⟨.tail _ ho.1, ho.2⟩
  · exact absurd (hst.symm.trans hs) nofun

/-- The API's `try_withdraw` succeeded. -/
theorem withdraw (h : ClaimsAt id r trace pc slot unseen) (status : r.status ≠ .unprepared)
    (hc : r.progress.claim = .pending) :
    ClaimsAt id { r with progress := { r.progress with claim := .withdrawn } }
      (.withdrawn id :: trace) pc slot unseen := by
  have hcl := h.claims
  have hwi := h.withdrawals
  rw [hc] at hcl hwi
  have hone : Wafer.withdrawals id (.withdrawn id :: trace) = 1 := by
    simpa [Wafer.withdrawals, Obs.withdraws] using hwi
  exact ⟨hcl, hone, h.applications, h.oneShot, h.success,
    fun at_ ha => (h.adopted at_ ha).imp fun _ ho => ⟨.tail _ ho.1, ho.2⟩,
    fun hs => absurd hs status, fun hor => (h.published hor).imp_right (.tail _), nofun, h.picked,
    nofun⟩

/-- Before its payload is applied a claimed request has no application in the trace. -/
theorem unapplied (h : ClaimsAt id r trace (.applying id) slot unseen) :
    r.progress.claim = .runner ∧ Wafer.claims id trace = 1 ∧ Wafer.applications id trace = 0 := by
  have hap := h.applications
  have hcl := h.claims
  simp only [Pc.applying?, if_true] at hap
  split at hcl
  · next hr => exact ⟨hr, hcl, by omega⟩
  · omega

theorem adopt {left : Option PreparedSwap} {now generation : Nat} {hashes : PluginHashes}
    {before : Option (Pre × String)} (h : ClaimsAt id r trace (.applying id) slot unseen) :
    ClaimsAt id
      { r with replacement := left, progress := (r.progress.markReplacementAdopted now hashes).1 }
      (.adopted ⟨id, r.kind, now, before, generation⟩ :: trace) .top slot unseen := by
  obtain ⟨hr, hcl, hap⟩ := h.unapplied
  have hn : r.progress.replacementAdopted = none :=
    Option.eq_none_iff_forall_ne_some.mpr fun at_ ha => absurd (h.applied ha) (by omega)
  have hone : Wafer.applications id (.adopted ⟨id, r.kind, now, before, generation⟩ :: trace) = 1 := by
    simpa [Wafer.applications, Obs.applies] using hap
  obtain ⟨hst, -, hsl⟩ := h.runner hr
  refine ⟨?_, ?_, ?_, HotSwapProgress.markReplacementAdopted_oneShot h.oneShot _ _,
    HotSwapProgress.markReplacementAdopted_success h.success hn _ _, ?_, ?_,
    fun hor => (h.published (.inl (hor.resolve_right nofun))).imp_right (.tail _),
    fun _ => ⟨hst, nofun, hsl⟩, nofun, fun hs hc => ?_⟩
  · rw [HotSwapProgress.markReplacementAdopted_claim]; exact h.claims
  · rw [HotSwapProgress.markReplacementAdopted_claim]; exact h.withdrawals
  · rw [hone]; exact hcl.symm
  · intro at_ ha
    simp only [HotSwapProgress.markReplacementAdopted_adopted, hn, Option.none_or] at ha
    exact ⟨_, .head _, by simpa [Obs.adoptedAt] using ha⟩
  · intro hs
    exact absurd (hst.symm.trans hs) nofun
  · rw [HotSwapProgress.markReplacementAdopted_claim] at hc
    exact absurd (hr.symm.trans hc) nofun

theorem failInit {left : Option PreparedSwap} {message : String}
    (h : ClaimsAt id r trace (.applying id) slot unseen) :
    ClaimsAt id { r with replacement := left, progress := r.progress.reportInitFailed message }
      (.initFailed id :: trace) .top slot unseen := by
  obtain ⟨hr, hcl, hap⟩ := h.unapplied
  have hf := r.progress.reportInitFailed_follows message
  have hone : Wafer.applications id (.initFailed id :: trace) = 1 := by
    simpa [Wafer.applications, Obs.applies] using hap
  obtain ⟨hst, -, hsl⟩ := h.runner hr
  refine ⟨?_, ?_, ?_, hf.oneShot h.oneShot, hf.success h.success, ?_, ?_,
    fun hor => (h.published (.inl (hor.resolve_right nofun))).imp_right (.tail _),
    fun _ => ⟨hst, nofun, hsl⟩, nofun, fun hs hc => ?_⟩
  · rw [hf.claim]; exact h.claims
  · rw [hf.claim]; exact h.withdrawals
  · rw [hone]; exact hcl.symm
  · intro at_ ha
    exact (h.adopted at_ (hf.adopted ▸ ha)).imp fun _ ho => ⟨.tail _ ho.1, ho.2⟩
  · intro hs
    exact absurd (hst.symm.trans hs) nofun
  · rw [hf.claim] at hc
    exact absurd (hr.symm.trans hc) nofun

end ClaimsAt

namespace World

section Steps

variable {cfg : LoopConfig} {w w' : World} {e : Event} {id : Nat}

theorem reportTo_follows {f : HotSwapProgress → HotSwapProgress}
    (hf : ∀ p : HotSwapProgress, p.Follows (f p)) (w : World) (target : Option Nat) (id : Nat) :
    ((w.reportTo target f).requests id).status = (w.requests id).status ∧
      (w.requests id).progress.Follows ((w.reportTo target f).requests id).progress := by
  cases target with
  | none => exact ⟨rfl, .refl _⟩
  | some k =>
    by_cases hk : id = k
    · subst hk
      simpa [reportTo] using hf _
    · simpa [reportTo, Function.update_of_ne hk] using HotSwapProgress.Follows.refl _

theorem restoreReplaced_follows (w : World) (canary : TransformCanaryState)
    (error : WasmProcessError) (id : Nat) :
    ((w.restoreReplaced canary error).requests id).status = (w.requests id).status ∧
      (w.requests id).progress.Follows
        ((w.restoreReplaced canary error).requests id).progress := by
  by_cases hk : id = canary.swap
  · subst hk
    simpa [restoreReplaced, setProgress] using
      (w.requests canary.swap).progress.restoreReplacedPluginHash_follows w.hashes
  · simpa [restoreReplaced, setProgress, Function.update_of_ne hk] using
      HotSwapProgress.Follows.refl _

/-- What a rollback reports, seen from request `id`. -/
theorem rollBack_follows (w : World) (node : LoadedNode) (generation : Nat)
    (canary : TransformCanaryState) (error : WasmProcessError) (target : Option Nat)
    (rollbackNs : Nat) (reason : String) (id : Nat) :
    (({ w.restoreReplaced canary error with node, generation }.reportTo target
        (·.reportRolledBack rollbackNs reason)).requests id).status = (w.requests id).status ∧
      (w.requests id).progress.Follows
        (({ w.restoreReplaced canary error with node, generation }.reportTo target
          (·.reportRolledBack rollbackNs reason)).requests id).progress := by
  obtain ⟨hs, hf⟩ := w.restoreReplaced_follows canary error id
  obtain ⟨hs', hf'⟩ := reportTo_follows (fun p => p.reportRolledBack_follows rollbackNs reason)
    { w.restoreReplaced canary error with node, generation } target id
  exact ⟨hs'.trans hs, hf.trans hf'⟩

theorem Claims.step (hc : w.Claims) (h : Transition cfg w e w') : w'.Claims := by
  intro id
  have hi := hc id
  cases h with
  | arrive | close | refuse | cancel | tick | recordHash | tooLate =>
    exact hi.of_quiet rfl (.refl _) ⟨rfl, rfl, rfl, fun _ h => h⟩ .rfl .rfl fun h => h
  | @prepare j kind _ hash status =>
    by_cases hj : id = j
    · subst hj
      simp only [World.prepare, Function.update_self]
      cases kind <;> cases hash <;> exact hi.prepared status
    · simpa only [World.prepare, Function.update_of_ne hj] using hi
  -- the request goes into the slot and takes the place of one that waits there
  | @publish j status =>
    by_cases hj : id = j
    · subst hj
      simpa only [World.publish, observe, Function.update_self] using hi.publish status
    · simpa only [World.publish, observe, Function.update_of_ne hj] using hi.publish_other hj
  | @withdrawn j status claim =>
    by_cases hj : id = j
    · subst hj
      simpa only [setProgress, observe, Function.update_self] using hi.withdraw status claim
    · simp only [setProgress, observe, Function.update_of_ne hj]
      refine hi.of_quiet rfl (.refl _) ⟨rfl, ?_, rfl, fun _ h => .tail _ h⟩ .rfl .rfl fun h => h
      simp [withdrawals, Obs.withdraws, Ne.symm hj]
  | @claimed j at_ claim =>
    by_cases hj : id = j
    · subst hj
      rw [at_] at hi
      simpa only [setProgress, observe, Function.update_self] using hi.claimed claim
    · simp only [setProgress, observe, Function.update_of_ne hj]
      refine hi.of_quiet rfl (.refl _) ⟨?_, rfl, rfl, fun _ h => .tail _ h⟩ ?_ ?_ fun h => h
      · simp [claims, Obs.claims, Ne.symm hj]
      · simp [at_, Pc.applying?, Ne.symm hj]
      · simp [at_, Pc.claiming?, Ne.symm hj]
  | @adopted j _ attempts node left at_ =>
    by_cases hj : id = j
    · subst hj
      rw [at_] at hi
      simpa only [adopt, setReplacement, setProgress, observe, Function.update_self] using hi.adopt
    · simp only [adopt, setReplacement, setProgress, observe, Function.update_of_ne hj]
      refine hi.of_quiet rfl (.refl _) ⟨rfl, rfl, ?_, fun _ h => .tail _ h⟩ ?_ ?_ fun h => h
      · simp [applications, Obs.applies, Ne.symm hj]
      · simp [at_, Pc.applying?, Ne.symm hj]
      · simp [at_, Pc.claiming?]
  | @initFailed j _ _ error left at_ =>
    by_cases hj : id = j
    · subst hj
      rw [at_] at hi
      simpa only [failInit, setReplacement, reportTo, observe, Function.update_self] using
        hi.failInit
    · simp only [failInit, setReplacement, reportTo, observe, Function.update_of_ne hj]
      refine hi.of_quiet rfl (.refl _) ⟨rfl, rfl, ?_, fun _ h => .tail _ h⟩ ?_ ?_ fun h => h
      · simp [applications, Obs.applies, Ne.symm hj]
      · simp [at_, Pc.applying?, Ne.symm hj]
      · simp [at_, Pc.claiming?]
  | retract =>
    refine hi.of_quiet rfl (.refl _) ⟨rfl, rfl, rfl, fun _ h => h⟩ .rfl .rfl fun h => ?_
    simp only [World.retract] at h
    split at h
    · cases h
    · exact h
  | move m =>
    cases m with
    | ignored at_ claim =>
      rw [at_] at hi
      exact hi.ignored (by rintro rfl; exact claim)
    | noSwap at_ | wait at_ | swapFirst at_ | retryNext at_ | drained at_ | idle at_ | cancelled at_
    | swap at_ | timer at_ =>
      exact hi.of_quiet rfl (.refl _) ⟨rfl, rfl, rfl, fun _ h => h⟩ (by rw [at_]; exact .rfl)
        (by rw [at_]; exact .rfl) fun h => h
  | window at_ | eof at_ | hold at_ | shutdown at_ =>
    exact hi.of_quiet rfl (.refl _) ⟨rfl, rfl, rfl, fun _ h => h⟩ (by rw [at_]; exact .rfl)
      (by rw [at_]; exact .rfl) fun h => h
  | slotEmpty at_ _ _ slot =>
    rw [at_, slot] at hi
    rw [show World.slot _ = none from slot]
    exact hi.slotEmpty
  | pickup at_ _ seen slot =>
    rw [at_, slot, seen] at hi
    rw [show World.slot _ = some _ from slot]
    exact hi.pickup
  | rerun at_ | retry at_ | dequeue at_ | forwarded at_ =>
    exact hi.of_quiet rfl (.refl _) ⟨rfl, rfl, rfl, fun _ h => .tail _ h⟩ (by rw [at_]; exact .rfl)
      (by rw [at_]; exact .rfl) fun h => h
  | unhold at_ | hand at_ =>
    exact hi.of_quiet rfl (.refl _) ⟨rfl, rfl, rfl, fun _ h => .tail _ (.tail _ h)⟩
      (by rw [at_]; exact .rfl) (by rw [at_]; exact .rfl) fun h => h
  | filtered at_ | unrouted at_ | sent at_ =>
    obtain ⟨hs, hf⟩ := reportTo_follows (fun p => p.markFirstOutcome_follows w.now _) w
      w.pendingSwapProgress id
    exact hi.of_quiet hs hf ⟨rfl, rfl, rfl, fun _ h => h⟩ (by rw [at_]; exact .rfl)
      (by rw [at_]; exact .rfl) fun h => h
  -- whatever the policy makes of an error, no request is claimed or applied by it
  | failed at_ loaded rebuilt handled =>
    obtain ⟨hap, hcl⟩ := handled.applying
    obtain ⟨pc, node, policy, metrics, state, generation, rfl⟩ := handled.frame
    refine hi.of_quiet rfl (.refl _) ⟨rfl, rfl, rfl, fun _ h => h⟩ ?_ ?_ fun h => h
    · rw [at_, hap]; exact .rfl
    · rw [at_, hcl]; exact .rfl
  | @rolledBack _ canary node node' error _ answers at_ =>
    obtain ⟨hs, hf⟩ := rollBack_follows { w with node } node' (w.generation+1) canary error
      w.pendingSwapProgress answers.rollbackNs error.toString id
    exact hi.of_quiet hs hf ⟨rfl, rfl, rfl, fun _ h => .tail _ h⟩ (by rw [at_]; exact .rfl)
      (by rw [at_]; exact .rfl) fun h => h
  | @escalated _ canary node node' error failure _ _ _ at_ _ _ _ _ _ handled =>
    obtain ⟨hs, hf⟩ := rollBack_follows { w with node } node' (w.generation+1) canary error
      w.pendingSwapProgress 0 ("rollback failed: " ++ failure.toString) id
    obtain ⟨hap, hcl⟩ := handled.applying
    obtain ⟨pc, node, policy, metrics, state, generation, rfl⟩ := handled.frame
    refine hi.of_quiet hs hf ⟨rfl, rfl, rfl, fun _ h => .tail _ h⟩ ?_ ?_ fun h => h
    · rw [at_]; exact iff_of_eq (congrArg (· = some id) hap)
    · rw [at_]; exact iff_of_eq (congrArg (· = some id) hcl)
  | @lost _ canary node node' error failure _ _ _ _ at_ _ _ handled =>
    obtain ⟨hs, hf⟩ := rollBack_follows { w with node } node' (w.generation+1) canary error
      w.pendingSwapProgress 0 ("rollback failed: " ++ failure.toString) id
    obtain ⟨hap, hcl⟩ := handled.applying
    obtain ⟨pc, node, policy, metrics, state, generation, rfl⟩ := handled.frame
    refine hi.of_quiet hs hf ⟨rfl, rfl, rfl, fun _ h => h⟩ ?_ ?_ fun h => h
    · rw [at_]; exact iff_of_eq (congrArg (· = some id) hap)
    · rw [at_]; exact iff_of_eq (congrArg (· = some id) hcl)

end Steps

end World

section Runs

variable {cfg : LoopConfig} {setup : LoopSetup} {events : List Event} {w : World}

theorem World.Claims.start (cfg : LoopConfig) (setup : LoopSetup) : (World.start cfg setup).Claims :=
  fun _ => ⟨rfl, rfl, rfl, rfl, nofun, nofun, fun _ => rfl, nofun, nofun, nofun, nofun⟩

theorem runLoop_claims (h : runLoop cfg setup events = some w) : w.Claims :=
  runLoop_invariant World.Claims.step (.start cfg setup) h

theorem claims_of_reaches {w' : World} (h : runLoop cfg setup events = some w)
    (hr : Lib.Reaches (step cfg) w w') : w'.Claims :=
  hr.invariant (fun _ _ _ hc hs => hc.step (step_transition hs)) (runLoop_claims h)

/-- One side wins each request, once. A payload is applied at most once, and once it is withdrawn
never, however the run goes on. The requester gets at most one value, and success only for a
payload that was adopted. -/
theorem claim_protocol (h : runLoop cfg setup events = some w) (id : Nat) :
    claims id w.trace + withdrawals id w.trace ≤ 1 ∧
      applications id w.trace ≤ claims id w.trace ∧
      (0 < withdrawals id w.trace → ∀ w', Lib.Reaches (step cfg) w w' →
        applications id w'.trace = 0 ∧ (w'.requests id).progress.replacementAdopted = none) ∧
      (w.requests id).progress.sent.length ≤ 1 ∧
      (∀ report, .ok report ∈ (w.requests id).progress.sent →
        ∃ o ∈ w.trace, o.adoptedAt id = some report.replacementAdoptedAt) := by
  have hi := runLoop_claims h id
  have hcl := hi.claims
  have hwi := hi.withdrawals
  refine ⟨?_, hi.applications ▸ Nat.le_add_right .., fun hw w' hr => ?_, hi.oneShot.length_le,
    fun report hr => hi.adopted _ (hi.success report hr)⟩
  · cases hc : (w.requests id).progress.claim <;> simp [hc] at hcl hwi <;> omega
  · have hs := ((trace_suffix_of_reaches hr).sublist.filter (Obs.withdraws id)).length_le
    exact (claims_of_reaches h hr id).withdrawn_unapplied (lt_of_lt_of_le hw hs)

end Runs

/-- Request 0 is withdrawn while it waits in the slot, request 1 is claimed and fails to apply. -/
def withdrawnRun : List Event :=
  [.prepare 0 .transform none none, .publish 0, .withdraw 0, .retract 0, .withdraw 0,
    .prepare 1 .transform none none, .publish 1, .advance, .advance, .advance, .withdraw 1,
    .applied {} fun _ => ⟨0, .ok⟩]

theorem claim_protocol_withdrawn :
    ∃ w, runTransformLoopWithConfig "parse" {} poisonSetup withdrawnRun = some w ∧
      withdrawals 0 w.trace = 1 ∧ claims 1 w.trace = 1 ∧
      claims 0 w.trace + withdrawals 0 w.trace ≤ 1 := by
  have hr : ∃ w, runTransformLoopWithConfig "parse" {} poisonSetup withdrawnRun = some w ∧
      withdrawals 0 w.trace = 1 ∧ claims 1 w.trace = 1 := ⟨_, rfl, rfl, rfl⟩
  obtain ⟨w, h, hw, hc⟩ := hr
  exact ⟨w, h, hw, hc, (claim_protocol h 0).1⟩

end Wafer
