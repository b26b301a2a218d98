import Wafer.Runner.Transition

/-!
# The canary and its rollback

What a held canary record remembers about the run, and what a rollback
restores. The invariant ties the record to the last adoption in the trace: it
is a transform swap, and the snapshot together with the node's configuration
is what ran before it.

## Main definitions

- `lastAdoption`, `successesSince` — read off the trace
- `World.Snapshotted`, `World.Windowed`, `World.Timely` — the invariants
- `RollbacksInWindow`, `World.LateTrapsOrdinary` — the canary window is kept
- `WaitInWindow` — an idle wait does not outlast the window
-/

namespace Wafer

namespace Obs

def adoption? : Obs → Option Adoption
  | adopted adoption => some adoption
  | _ => none

def isForwarded : Obs → Bool
  | forwarded _ _ => true
  | _ => false

end Obs

/-- The last successful replacement. -/
def lastAdoption (trace : List Obs) : Option Adoption := trace.findSome? Obs.adoption?

/-- Messages that succeeded since the last adoption. -/
def successesSince (trace : List Obs) : Nat :=
  ((trace.takeWhile fun o => o.adoption?.isNone).filter Obs.isForwarded).length

namespace Pc

/-- The loop is still going, or about to. -/
def live : Pc → Bool
  | closing _ | exited _ => false
  | _ => true

/-- A success that the canary has not counted yet. -/
def uncounted : Pc → Nat
  | sending _ _ => 1
  | _ => 0

/-- Between the window check at the loop top and the next call, with no replacement being applied. -/
def awaiting : Pc → Bool
  | swapCheck | claiming _ | waiting | recvTop | recvRetry | recvSelect | received _ => true
  | _ => false

/-- The call the loop is in. -/
def call? : Pc → Option Call
  | calling call => some call
  | _ => none

end Pc

namespace CanaryCounters

/-- When `canary_window_ms` have passed. -/
def windowEnd (c : CanaryCounters) : Nat :=
  c.windowStart + c.config.canaryWindowMs * nsPerMs

/-- Both bounds were open at the check. -/
theorem windowExpired_eq_false {c : CanaryCounters} {now : Nat} (h : c.windowExpired now = false) :
    c.successCount < c.config.canarySuccessCount ∧ now < c.windowEnd := by
  have hmax := c.config.windowMs_le
  simp only [windowExpired, Bool.or_eq_false_iff, decide_eq_false_iff_not, not_le] at h
  obtain ⟨hcount, hms⟩ := h
  refine ⟨hcount, ?_⟩
  have hlt : (now - c.windowStart) / nsPerMs < c.config.canaryWindowMs := by
    simp only [elapsedMsSaturating] at hms
    omega
  have hns := (Nat.div_lt_iff_lt_mul (by decide)).mp hlt
  simp only [windowEnd]
  omega

end CanaryCounters

theorem World.Handled.uncounted {n : Nat} {w w' : World} (h : w.Handled n w') :
    w'.pc.uncounted = 0 := by
  rcases h.pc with hp | ⟨e, hp⟩ <;> rw [hp] <;> rfl

theorem Moves.live {w : World} {e : Event} {pc : Pc} (h : Moves w e pc) : w.pc.live = true := by
  cases h <;> simp_all [Pc.live]

namespace World

/-- The node runs what its cached pre would give, and a held canary remembers what ran before the
last adoption, which was a transform swap. -/
structure Snapshotted (cfg : LoopConfig) (w : World) : Prop where
  coherent : w.pc.live = true → w.node.Coherent
  only_transform : cfg.role ≠ .transform → w.canary = none
  snapshot : ∀ c, w.canary = some c → ∃ a config, lastAdoption w.trace = some a ∧
    a.kind = .transform ∧ a.id = c.swap ∧ a.before = some (c.snapshot, config) ∧
    w.node.rebuilt.map Prod.snd = some config

/-- The canary's counters follow the trace, and away from the loop top its success bound is not
reached. -/
structure Windowed (cfg : LoopConfig) (w : World) : Prop where
  config : ∀ c, w.canary = some c → c.counters.config = cfg.hotSwap
  opened : ∀ c, w.canary = some c → ∃ a, lastAdoption w.trace = some a ∧
    c.counters.windowStart = a.at_
  counted : ∀ c, w.canary = some c → ∃ n, successesSince w.trace = n + w.pc.uncounted ∧
    c.counters.successCount = min n u32Max
  checked : ∀ c, w.canary = some c → w.pc ≠ .top →
    c.counters.successCount < cfg.hotSwap.canarySuccessCount

/-- A held canary's window is still open while the loop waits, and was when its call began. -/
structure Timely (w : World) : Prop where
  waiting : ∀ c, w.canary = some c → w.pc.awaiting = true → w.now < c.counters.windowEnd
  began : ∀ c, w.canary = some c → ∀ call, w.pc.call? = some call →
    call.began < c.counters.windowEnd

section Steps

variable {cfg : LoopConfig} {w w' : World} {e : Event}

/-- Steps that keep node and canary, and record no adoption. -/
theorem Snapshotted.of_quiet (h : w.Snapshotted cfg) (live : w'.pc.live = true → w.pc.live = true)
    (loaded : w'.node.loaded = w.node.loaded) (rebuilt : w'.node.rebuilt = w.node.rebuilt)
    (canary : w'.canary.map (fun c => (c.snapshot, c.swap)) =
      w.canary.map fun c => (c.snapshot, c.swap))
    (trace : lastAdoption w'.trace = lastAdoption w.trace) : w'.Snapshotted cfg where
  coherent hl := loaded.trans ((h.coherent (live hl)).trans rebuilt.symm)
  only_transform hr := by
    rw [h.only_transform hr] at canary
    exact Option.map_eq_none_iff.mp canary
  snapshot c hc := by
    rw [hc] at canary
    obtain ⟨c', hc', hs⟩ := Option.map_eq_some_iff.mp canary.symm
    obtain ⟨a, config, ha, hk, hi, hb, hn⟩ := h.snapshot c' hc'
    obtain ⟨hp, hw⟩ := Prod.mk.inj hs
    exact ⟨a, config, trace.trans ha, hk, hi.trans hw, hp ▸ hb, by rw [rebuilt]; exact hn⟩

theorem Snapshotted.of_dropped (hc : w.canary = none) (hn : w.pc.live = true → w.node.Coherent) :
    w.Snapshotted cfg :=
  ⟨hn, fun _ => hc, fun _ h => absurd (hc.symm.trans h) nofun⟩

/-- After an adoption there is no canary, or a fresh one over what a transform swap replaced. -/
theorem adopt_canary_cases {id : Nat} {node : LoadedNode} (left : Option PreparedSwap)
    (attempts : Nat → DlqAttempt) (h : cfg.role ≠ .transform → w.canary = none)
    (replaced : Replaced cfg.role (w.requests id) w.node (.ok ()) node) :
    ((w.setReplacement id left).adopt cfg id node attempts).canary = none ∨
      ∃ pre config, cfg.role = .transform ∧ (w.requests id).kind = .transform ∧
        w.node.rebuilt = some (pre, config) ∧ node.rebuilt.map Prod.snd = some config ∧
        ((w.setReplacement id left).adopt cfg id node attempts).canary =
          some (.new pre cfg.hotSwap w.now id) := by
  rw [adopt_canary]
  cases hr : cfg.role with
  | filter => exact .inl (by simp [armCanary, hr, h (by rw [hr]; rintro ⟨⟩)])
  | router => exact .inl (by simp [armCanary, hr, h (by rw [hr]; rintro ⟨⟩)])
  | transform =>
    cases replaced with
    | reconfigured kind => exact .inl (by simp [armCanary, hr, kind])
    | @swapped _ pre config _ kind taken before after coherent =>
      have hk : (w.requests id).kind = .transform := by rw [kind, hr]; rfl
      have hp : w.node.cachedPre = some pre := by rw [LoadedNode.cachedPre_eq, before]; rfl
      refine .inr ⟨pre, config, rfl, hk, before, ?_, by rw [armCanary, hr, hk, hp]⟩
      exact congrArg (Option.map Prod.snd) (coherent.symm.trans after)

/-- The canary armed by an adopted swap holds what the node ran until then. -/
theorem Snapshotted.adopt {id : Nat} {node : LoadedNode} {left : Option PreparedSwap}
    {attempts : Nat → DlqAttempt} (h : w.Snapshotted cfg) (at_ : w.pc = .applying id)
    (replaced : Replaced cfg.role (w.requests id) w.node (.ok ()) node) :
    ((w.setReplacement id left).adopt cfg id node attempts).Snapshotted cfg := by
  have hco : w.node.loaded = w.node.rebuilt := h.coherent (by rw [at_]; rfl)
  have hn : node.Coherent := by cases replaced <;> assumption
  rcases adopt_canary_cases left attempts h.only_transform replaced with
    hc | ⟨pre, config, hr, hk, hb, hj, hc⟩
  · exact .of_dropped hc fun _ => hn
  · refine ⟨fun _ => hn, fun hne => absurd hr hne, fun c h => ?_⟩
    obtain rfl := Option.some.inj (hc.symm.trans h)
    rw [adopt_trace]
    exact ⟨_, config, rfl, hk, rfl, hco.trans hb, hj⟩

theorem Snapshotted.step (hs : w.Snapshotted cfg) (h : Transition cfg w e w') :
    w'.Snapshotted cfg := by
  cases h with
  | arrive | close | refuse | cancel | tick | recordHash | tooLate | prepare | publish | withdrawn
  | retract => exact hs.of_quiet (fun h => h) rfl rfl rfl rfl
  | move m => exact hs.of_quiet (fun _ => m.live) rfl rfl rfl rfl
  | pickup at_ | slotEmpty at_ | eof at_ | hold at_ | rerun at_ | retry at_ | dequeue at_
  | unhold at_ | hand at_ | claimed at_ | initFailed at_ =>
    exact hs.of_quiet (fun _ => by rw [at_]; rfl) rfl rfl rfl rfl
  | shutdown => exact hs.of_quiet nofun rfl rfl rfl rfl
  | forwarded at_ loaded rebuilt | filtered at_ loaded rebuilt | unrouted at_ loaded rebuilt =>
    exact hs.of_quiet (fun _ => by rw [at_]; rfl) loaded rebuilt rfl rfl
  | sent at_ =>
    refine hs.of_quiet (fun _ => by rw [at_]; rfl) rfl rfl ?_ rfl
    simp only [World.sent, Option.map_map]
    rfl
  | window at_ =>
    refine ⟨fun _ => hs.coherent (by rw [at_]; rfl), fun hr => ?_, fun c hc => ?_⟩
    · simp [checkWindow, hs.only_transform hr]
    · exact hs.snapshot c (Option.filter_eq_some_iff.mp hc).1
  | adopted at_ replaced => exact hs.adopt at_ replaced
  | @failed call node _ _ _ _ at_ loaded rebuilt handled =>
    have hco : node.Coherent := loaded.trans ((hs.coherent (by rw [at_]; rfl)).trans rebuilt.symm)
    have hb := handled.rebuilt.trans rebuilt
    have hp := handled.pc
    have hc := handled.coherent hco
    obtain ⟨pc, node', policy, metrics, state, generation, rfl⟩ := handled.frame
    refine ⟨fun hl => hc (hp.resolve_right ?_), hs.only_transform, fun c hcan => ?_⟩
    · rintro ⟨e, he⟩
      exact absurd hl (by rw [he]; nofun)
    · obtain ⟨a, config, ha, hk, hi, hbe, hn⟩ := hs.snapshot c hcan
      exact ⟨a, config, ha, hk, hi, hbe, hb ▸ hn⟩
  | rolledBack at_ role canary answered condemns loaded rebuilt =>
    exact .of_dropped rfl fun _ => loaded
  | escalated at_ role canary answered condemns rebuilt handled running coherent =>
    obtain ⟨pc, node, policy, metrics, state, generation, rfl⟩ := handled.frame
    exact .of_dropped rfl fun _ => coherent
  | lost at_ role canary handled stopped =>
    obtain ⟨pc, node, policy, metrics, state, generation, rfl⟩ := handled.frame
    exact .of_dropped rfl fun hl => absurd hl (by rw [stopped]; nofun)

/-- Steps that keep the canary and count no success. -/
theorem Windowed.of_quiet (h : w.Windowed cfg) (canary : w'.canary = w.canary)
    (top : w'.pc = .top ∨ w.pc ≠ .top) (uncounted : w'.pc.uncounted = w.pc.uncounted)
    (adoption : lastAdoption w'.trace = lastAdoption w.trace)
    (successes : successesSince w'.trace = successesSince w.trace) : w'.Windowed cfg where
  config c hc := h.config c (canary ▸ hc)
  opened c hc := by rw [adoption]; exact h.opened c (canary ▸ hc)
  counted c hc := by rw [successes, uncounted]; exact h.counted c (canary ▸ hc)
  checked c hc hp := h.checked c (canary ▸ hc) (top.resolve_left hp)

theorem Windowed.of_dropped (hc : w.canary = none) : w.Windowed cfg := by
  refine ⟨?_, ?_, ?_, ?_⟩ <;> exact fun _ h => absurd (hc.symm.trans h) nofun

/-- An armed canary opens its window at the adoption, with no success yet. -/
theorem Windowed.adopt {id : Nat} {node : LoadedNode} {left : Option PreparedSwap}
    {attempts : Nat → DlqAttempt} (hs : w.Snapshotted cfg)
    (replaced : Replaced cfg.role (w.requests id) w.node (.ok ()) node) :
    ((w.setReplacement id left).adopt cfg id node attempts).Windowed cfg := by
  rcases adopt_canary_cases left attempts hs.only_transform replaced with
    hc | ⟨pre, config, -, -, -, -, hc⟩
  · exact .of_dropped hc
  · refine ⟨fun c h => ?_, fun c h => ?_, fun c h => ?_, fun _ _ hne => absurd rfl hne⟩ <;>
      obtain rfl := Option.some.inj (hc.symm.trans h)
    · rfl
    · rw [adopt_trace]
      exact ⟨_, rfl, rfl⟩
    · rw [adopt_trace]
      exact ⟨0, rfl, rfl⟩

theorem Windowed.step (hs : w.Snapshotted cfg) (hw : w.Windowed cfg) (h : Transition cfg w e w') :
    w'.Windowed cfg := by
  cases h with
  | arrive | close | refuse | cancel | tick | recordHash | tooLate | prepare | publish | withdrawn
  | retract =>
    exact hw.of_quiet rfl (Classical.em _) rfl rfl rfl
  | move m => cases m <;> exact hw.of_quiet rfl (.inr (by simp [*])) (by simp [*, Pc.uncounted]) rfl rfl
  | pickup at_ | slotEmpty at_ | eof at_ | hold at_ | rerun at_ | retry at_ | dequeue at_
  | unhold at_ | hand at_ | claimed at_ | initFailed at_ | shutdown at_ | filtered at_
  | unrouted at_ =>
    exact hw.of_quiet rfl (.inr (by rw [at_]; nofun)) (by rw [at_]; rfl) rfl rfl
  | adopted at_ replaced => exact .adopt hs replaced
  | forwarded at_ =>
    refine ⟨hw.config, hw.opened, fun c hc => ?_, fun c hc _ => hw.checked c hc (by rw [at_]; nofun)⟩
    obtain ⟨n, hn, hk⟩ := hw.counted c hc
    rw [at_] at hn
    exact ⟨n, congrArg Nat.succ hn, hk⟩
  | sent at_ =>
    refine ⟨fun _ hm => ?_, fun _ hm => ?_, fun _ hm => ?_, fun _ _ hne => absurd rfl hne⟩ <;>
      obtain ⟨c, hc, rfl⟩ := Option.map_eq_some_iff.mp hm
    · exact hw.config c hc
    · exact hw.opened c hc
    · obtain ⟨n, hn, hk⟩ := hw.counted c hc
      rw [at_] at hn
      refine ⟨n+1, hn, ?_⟩
      simp only [TransformCanaryState.recordSuccess, CanaryCounters.recordSuccess, hk]
      omega
  | window at_ =>
    refine ⟨fun c hm => ?_, fun c hm => ?_, fun c hm => ?_, fun c hm _ => ?_⟩ <;>
      obtain ⟨hc, ho⟩ := Option.filter_eq_some_iff.mp hm
    · exact hw.config c hc
    · exact hw.opened c hc
    · obtain ⟨n, hn, hk⟩ := hw.counted c hc
      rw [at_] at hn
      exact ⟨n, hn, hk⟩
    · rw [← hw.config c hc]
      exact (CanaryCounters.windowExpired_eq_false ((Bool.not_eq_true' _).mp ho)).1
  | failed at_ loaded rebuilt handled =>
    have hu := handled.uncounted
    obtain ⟨pc, node, policy, metrics, state, generation, rfl⟩ := handled.frame
    exact hw.of_quiet rfl (.inr (by rw [at_]; nofun)) (hu.trans (by rw [at_]; rfl)) rfl rfl
  | rolledBack => exact .of_dropped rfl
  | escalated at_ role canary answered condemns rebuilt handled
  | lost at_ role canary handled =>
    obtain ⟨pc, node, policy, metrics, state, generation, rfl⟩ := handled.frame
    exact .of_dropped rfl

end Steps

end World

section Runs

variable {nodeId : String} {hotSwap : HotSwapConfig} {setup : LoopSetup} {events : List Event}
  {w : World}

theorem World.Snapshotted.start (cfg : LoopConfig) (setup : LoopSetup) :
    (World.start cfg setup).Snapshotted cfg :=
  ⟨fun _ => setup.coherent, fun _ => rfl, fun _ hc => absurd hc nofun⟩

theorem runLoop_snapshotted {cfg : LoopConfig} (h : runLoop cfg setup events = some w) :
    w.Snapshotted cfg :=
  runLoop_invariant World.Snapshotted.step (.start cfg setup) h

/-- A held canary means that the last successful replacement was a transform swap. A rollback
brings back the plugin and configuration that ran just before that swap was adopted, and a failed
replacement changes neither node nor canary. -/
theorem rollback_restores (h : runTransformLoopWithConfig nodeId hotSwap setup events = some w) :
    (∀ canary, w.canary = some canary → ∃ a, lastAdoption w.trace = some a ∧
        a.kind = .transform ∧ a.id = canary.swap) ∧
      (∀ e w' call after, step ⟨.transform, nodeId, hotSwap⟩ w e = some w' →
        w'.trace = .rolledBack call after :: w.trace →
          ∃ a, lastAdoption w.trace = some a ∧ a.kind = .transform ∧
            w'.node.loaded = a.before ∧ a.before.isSome = true) ∧
      (∀ e w' id, step ⟨.transform, nodeId, hotSwap⟩ w e = some w' →
        w'.trace = .initFailed id :: w.trace → w'.node = w.node ∧ w'.canary = w.canary) := by
  have hs := runLoop_snapshotted h
  refine ⟨fun canary hc => ?_, fun e w' call after hw ht => ?_, fun e w' id hw ht =>
    (step_transition hw).of_initFailed ht⟩
  · obtain ⟨a, -, ha, hk, hi, -⟩ := hs.snapshot canary hc
    exact ⟨a, ha, hk, hi⟩
  · obtain ⟨-, -, hl, -, canary, _, _, _, _, hc, -, -, -, hafter⟩ :=
      (step_transition hw).of_rolledBack ht
    obtain ⟨a, config, ha, hk, -, hb, hn⟩ := hs.snapshot canary hc
    obtain ⟨r, hr, rfl⟩ := Option.map_eq_some_iff.mp hn
    rw [hr] at hafter
    exact ⟨a, ha, hk, by rw [hl, hafter, hb]; rfl, by rw [hb]; rfl⟩

end Runs

/-- The call that began at `began` was inside the canary window of the last adoption. -/
def InWindow (hotSwap : HotSwapConfig) (trace : List Obs) (began : Nat) : Prop :=
  ∃ a, lastAdoption trace = some a ∧ successesSince trace < hotSwap.canarySuccessCount ∧
    began < a.at_ + hotSwap.canaryWindowMs * nsPerMs

/-- Every rollback in the history undid a call inside its canary window. -/
def RollbacksInWindow (hotSwap : HotSwapConfig) : List Obs → Prop :=
  Lib.Justified fun o before =>
    match o with
    | .rolledBack call _ => InWindow hotSwap before call.began
    | _ => True

/-- A call outside the canary window that fails is an ordinary failure of the plugin that runs: the
step is the one of a loop with no canary. -/
def World.LateTrapsOrdinary (cfg : LoopConfig) (w : World) : Prop :=
  ∀ call answer answers error node, w.pc = .calling call →
    ¬ InWindow cfg.hotSwap w.trace call.began →
    w.node.process call.taken.envelope answer = some (.error error, node) →
    step cfg w (.returned answer answers) =
      some ({ w with node }.failCall cfg error call.taken.envelope answers)

/-- The clock does not carry a held canary past its window while the loop waits for a message. -/
def WaitInWindow (w : World) (e : Event) : Prop :=
  ∀ ns c, e = .tick ns → w.canary = some c → w.pc.awaiting = true →
    w.now + ns < c.counters.windowEnd

section Window

variable {cfg : LoopConfig} {w w' : World} {e : Event}

/-- Steps of the waiting loop that take no time. -/
theorem World.Timely.of_awaiting (h : w.Timely) (at_ : w.pc.awaiting = true)
    (canary : w'.canary = w.canary) (now : w'.now = w.now) (calls : w'.pc.call? = none) :
    w'.Timely where
  waiting c hc _ := by
    rw [now]
    exact h.waiting c (canary ▸ hc) at_
  began _ _ call hp := by rw [calls] at hp; cases hp

/-- A call begins when the wait is over, with no time between. -/
theorem World.Timely.of_start (h : w.Timely) {call : Call} (at_ : w.pc.awaiting = true)
    (canary : w'.canary = w.canary) (calls : w'.pc = .calling call) (began : call.began = w.now) :
    w'.Timely where
  waiting _ _ hp := by rw [calls] at hp; cases hp
  began c hc call' hp := by
    rw [calls] at hp
    obtain rfl := Option.some.inj hp
    rw [began]
    exact h.waiting c (canary ▸ hc) at_

/-- Steps of other tasks. -/
theorem World.Timely.of_quiet (h : w.Timely) (pc : w'.pc = w.pc) (canary : w'.canary = w.canary)
    (now : w'.now = w.now) : w'.Timely where
  waiting c hc hp := by
    rw [now]
    exact h.waiting c (canary ▸ hc) (pc ▸ hp)
  began c hc call hp := h.began c (canary ▸ hc) call (pc ▸ hp)

/-- Where the loop neither waits nor calls, nothing is left to check. -/
theorem World.Timely.of_away (waits : w.pc.awaiting = false) (calls : w.pc.call? = none) :
    w.Timely where
  waiting _ _ hp := by rw [waits] at hp; cases hp
  began _ _ call hp := by rw [calls] at hp; cases hp

theorem World.Handled.timely {n : Nat} (h : w.Handled n w') : w'.Timely := by
  rcases h.pc with hp | ⟨e, hp⟩ <;> exact .of_away (by rw [hp]; rfl) (by rw [hp]; rfl)

/-- The window check drops a canary whose window is over. -/
theorem World.Timely.checkWindow : w.checkWindow.Timely where
  waiting c hm _ := by
    have ho := (Option.filter_eq_some_iff.mp hm).2
    exact (CanaryCounters.windowExpired_eq_false ((Bool.not_eq_true' _).mp ho)).2
  began _ _ call hp := by
    change (none : Option Call) = some call at hp
    cases hp

/-- A move of the program counter starts from a waiting loop and starts no call. -/
theorem Moves.awaiting {pc : Pc} (h : Moves w e pc) : w.pc.awaiting = true ∧ pc.call? = none := by
  cases h <;> simp_all [Pc.awaiting, Pc.call?]

theorem World.Timely.step (ht : w.Timely) (hwait : WaitInWindow w e) (h : Transition cfg w e w') :
    w'.Timely := by
  cases h with
  | arrive | close | refuse | cancel | recordHash | tooLate | prepare | publish | withdrawn
  | retract => exact ht.of_quiet rfl rfl rfl
  | tick => exact ⟨fun c hc hp => hwait _ c rfl hc hp, ht.began⟩
  | move m => exact ht.of_awaiting m.awaiting.1 rfl rfl m.awaiting.2
  | window => exact .checkWindow
  | pickup at_ | slotEmpty at_ | claimed at_ | retry at_ | dequeue at_ | eof at_ | hold at_ =>
    exact ht.of_awaiting (by rw [at_]; rfl) rfl rfl rfl
  | rerun at_ | unhold at_ | hand at_ => exact ht.of_start (by rw [at_]; rfl) rfl rfl rfl
  | adopted | initFailed | forwarded | filtered | unrouted | sent | shutdown =>
    exact .of_away rfl rfl
  | failed at_ loaded rebuilt handled => exact handled.timely
  | rolledBack => exact .of_away rfl rfl
  | escalated at_ role canary answered condemns rebuilt handled running =>
    refine .of_away ?_ ?_ <;> rw [World.observe, running] <;> rfl
  | lost at_ role canary handled => exact handled.timely

/-- The success bound was checked at the loop top; the time bound held through the wait. -/
theorem World.Windowed.inWindow {call : Call} {canary : TransformCanaryState}
    (hw : w.Windowed cfg) (ht : w.Timely) (at_ : w.pc = .calling call)
    (hc : w.canary = some canary) : InWindow cfg.hotSwap w.trace call.began := by
  have hb := ht.began canary hc call (by rw [at_]; rfl)
  obtain ⟨a, ha, hstart⟩ := hw.opened canary hc
  obtain ⟨n, hn, hcount⟩ := hw.counted canary hc
  have hlt := hw.checked canary hc (by rw [at_]; nofun)
  have hmax := cfg.hotSwap.successCount_le
  rw [CanaryCounters.windowEnd, hstart, hw.config canary hc] at hb
  rw [at_] at hn
  rw [hcount] at hlt
  refine ⟨a, ha, ?_, hb⟩
  change successesSince w.trace = n at hn
  omega

theorem RollbacksInWindow.step (hr : RollbacksInWindow cfg.hotSwap w.trace)
    (hw : w.Windowed cfg) (ht : w.Timely) (h : Transition cfg w e w') :
    RollbacksInWindow cfg.hotSwap w'.trace := by
  cases h with
  | arrive | close | refuse | cancel | tick | recordHash | prepare | tooLate | retract | move | window
  | slotEmpty | eof | hold | shutdown | pickup | filtered | unrouted | sent => exact hr
  | publish | withdrawn | claimed | adopted | initFailed | rerun | retry | dequeue | forwarded =>
    exact ⟨trivial, hr⟩
  | unhold | hand => exact ⟨trivial, trivial, hr⟩
  | failed at_ loaded rebuilt handled | lost at_ role canary handled =>
    obtain ⟨pc, node, policy, metrics, state, generation, rfl⟩ := handled.frame
    exact hr
  | rolledBack at_ role canary => exact ⟨hw.inWindow ht at_ canary, hr⟩
  | escalated at_ role canary answered condemns rebuilt handled =>
    obtain ⟨pc, node, policy, metrics, state, generation, rfl⟩ := handled.frame
    exact ⟨hw.inWindow ht at_ canary, hr⟩

/-- A call outside the window finds no canary. -/
theorem World.Windowed.lateTrapsOrdinary (role : cfg.role = .transform) (hw : w.Windowed cfg)
    (ht : w.Timely) : w.LateTrapsOrdinary cfg := by
  intro call answer answers error node at_ late answered
  have hc : w.canary = none := by
    cases hcan : w.canary with
    | none => rfl
    | some canary => exact absurd (hw.inWindow ht at_ hcan) late
  simp only [Wafer.step, at_, returned, role, answered, Option.map_some, dispatchTransform, hc]

end Window

section Window

variable {nodeId : String} {hotSwap : HotSwapConfig} {setup : LoopSetup} {events : List Event}
  {w : World}

/-- If no wait between the window check and a call carries a held canary past its window, every
rollback of the run undid a call inside the window, and a call outside it fails like any other. -/
theorem rollbacks_in_window
    (h : runTransformLoopWithConfig nodeId hotSwap setup events = some w)
    (hm : Lib.StepsMeet (step ⟨.transform, nodeId, hotSwap⟩) WaitInWindow
      (World.start ⟨.transform, nodeId, hotSwap⟩ setup) events) :
    RollbacksInWindow hotSwap w.trace ∧ w.LateTrapsOrdinary ⟨.transform, nodeId, hotSwap⟩ := by
  have hinv : w.Snapshotted ⟨.transform, nodeId, hotSwap⟩ ∧
      w.Windowed ⟨.transform, nodeId, hotSwap⟩ ∧ w.Timely ∧ RollbacksInWindow hotSwap w.trace := by
    refine Lib.exec_invariant_where (P := fun w => w.Snapshotted ⟨.transform, nodeId, hotSwap⟩ ∧
      w.Windowed ⟨.transform, nodeId, hotSwap⟩ ∧ w.Timely ∧ RollbacksInWindow hotSwap w.trace)
      (fun s e t hp hc hs => ?_) h hm ⟨.start _ setup, .of_dropped rfl, .of_away rfl rfl, ?_⟩
    · obtain ⟨hsnap, hw, ht, hr⟩ := hp
      have htrans := step_transition hs
      exact ⟨hsnap.step htrans, hw.step hsnap htrans, ht.step hc htrans, hr.step hw ht htrans⟩
    · exact trivial
  obtain ⟨-, hw, ht, hr⟩ := hinv
  exact ⟨hr, hw.lateTrapsOrdinary rfl ht⟩

end Window

/-! A transform swapped from `aa` to `bb` while it idles. -/

def preA : Pre := ⟨⟨[1], "aa"⟩, false⟩
def preB : Pre := ⟨⟨[2], "bb"⟩, false⟩

def sampleStore : Store := { nodeId := "scale", capabilities := {}, memoryLimit := 1 }

def sampleSetup : LoopSetup where
  node := .wasm
    { store := sampleStore, bindings := preA.instantiate, cachedPre := preA, fuelLimit := none,
      capabilities := {}, memoryLimit := 1, epochDeadline := none, configJson := "{}",
      pluginVersion := "1" }
  coherent := rfl
  capacity := 4
  policy := ⟨.skip, ⟨0, 0, .skip⟩, ⟨1, 1, .skip⟩, .skip, 1⟩
  dlqSender := none
  hashes := fun id => if id = "scale" then some "aa" else none

def swapToB : PreparedSwap := ⟨sampleStore, preB, preB.instantiate, rfl⟩

def noAttempts : Nat → DlqAttempt := fun _ => ⟨0, .closed⟩

def noFailure : FailureAnswers := ⟨⟨0, .closed⟩, noAttempts, {}, 0, {}⟩

def trapAnswer : Event :=
  .returned (.process { result := .error (some .unreachableCodeReached, "unreachable") }) noFailure

/-- Publish the swap to `bb` and have it adopted. -/
def adoptB : List Event :=
  [.prepare 0 .transform (some swapToB) (some "bb"), .publish 0, .advance, .advance, .advance,
    .applied {} noAttempts]

/-- A message handed to the new plugin after the loop has been idle for `idleNs`. -/
def callAfter (idleNs : Nat) : List Event :=
  adoptB ++ idleRound ++ [.tick idleNs, .arrive (.new "m" 0 "source" []), .select .recv, .advance]

theorem rollback_restores_first_message :
    ∃ w, runTransformLoopWithConfig "scale" {} sampleSetup (callAfter 0) = some w ∧
      ∃ w', step ⟨.transform, "scale", {}⟩ w trapAnswer = some w' ∧
        w'.node.loaded = some (preA, "{}") ∧
        ∃ a, lastAdoption w.trace = some a ∧ a.kind = .transform ∧
          w'.node.loaded = a.before ∧ a.before.isSome = true := by
  have hr : ∃ w, runTransformLoopWithConfig "scale" {} sampleSetup (callAfter 0) = some w ∧
      ∃ w', step ⟨.transform, "scale", {}⟩ w trapAnswer = some w' ∧
        w'.node.loaded = some (preA, "{}") ∧
        ∃ call after, w'.trace = .rolledBack call after :: w.trace :=
    ⟨_, rfl, _, rfl, rfl, _, _, rfl⟩
  obtain ⟨w, h, w', hs, hl, call, after, ht⟩ := hr
  exact ⟨w, h, w', hs, hl, (rollback_restores h).2.1 _ _ _ _ hs ht⟩

/-- The message arrives half a window after the adoption. -/
theorem rollbacks_in_window_first_message :
    ∃ w, runTransformLoopWithConfig "scale" {} sampleSetup
        (callAfter (5000 * nsPerMs) ++ [trapAnswer]) = some w ∧
      w.metrics.rollbacks = 1 ∧ RollbacksInWindow {} w.trace ∧
      w.LateTrapsOrdinary ⟨.transform, "scale", {}⟩ := by
  have hr : ∃ w, runTransformLoopWithConfig "scale" {} sampleSetup
      (callAfter (5000 * nsPerMs) ++ [trapAnswer]) = some w ∧ w.metrics.rollbacks = 1 :=
    ⟨_, rfl, rfl⟩
  obtain ⟨w, h, hm⟩ := hr
  refine ⟨w, h, hm, rollbacks_in_window h ?_⟩
  rw [callAfter, List.append_assoc]
  refine .append (.of_forall fun s e he => ?_) fun t ht => ⟨?_, fun u _ => .of_forall fun s e he => ?_⟩
  · rintro ns c rfl
    simp [adoptB, idleRound] at he
  · obtain rfl := Option.some.inj ht
    intro ns c he hc _
    obtain rfl := Event.tick.inj he
    obtain rfl := Option.some.inj hc
    decide
  · rintro ns c rfl
    simp [trapAnswer] at he

/-- The window is only checked at the loop top, before the wait: the first message after an idle
time longer than the window still rolls back. -/
theorem late_trap_rolls_back :
    ¬ ∀ setup events w, runTransformLoopWithConfig "scale" {} setup events = some w →
      RollbacksInWindow {} w.trace ∧ w.LateTrapsOrdinary ⟨.transform, "scale", {}⟩ := by
  intro h
  have hj := (h sampleSetup (callAfter (20000 * nsPerMs) ++ [trapAnswer]) _ rfl).1
  obtain ⟨a, ha, -, hb⟩ := hj.1
  obtain rfl := Option.some.inj ha
  exact absurd hb (by decide)

end Wafer
