import Wafer.Api.Handlers
import Wafer.Runner.SwapBarrier

/-!
# The hash check of `reconfigure`

The handler compares the expected hash with the registry and publishes; the
runner applies later and does not look again. The check therefore holds at the
adoption only if no other plugin came in between.

## Main definitions

- `PluginStep` — what one step does to the loaded plugin
- `NodeApi.Outstanding` — a request that can still be adopted
- `NodeApi.PluginKept` — no other plugin comes in while a checked request is outstanding
- `NodeApi.Checked` — the invariant
-/

namespace Wafer

/-- What one step does to the loaded plugin. -/
inductive PluginStep (cfg : LoopConfig) (w : World) (e : Event) (w' : World) : Prop
  | kept (live : w'.pc.live = true → w.pc.live = true)
      (plugin : w'.pc.live = true → w'.node.loaded.map Prod.fst = w.node.loaded.map Prod.fst)
  | swapped {id : Nat} {lc : Lifecycle} {attempts : Nat → DlqAttempt} {replacement : PreparedSwap}
      (event : e = .applied lc attempts) (at_ : w.pc = .applying id)
      (kind : (w.requests id).kind = cfg.role.payloadKind)
      (taken : (w.requests id).replacement = some replacement)
      (succeeded : (World.tryReplace cfg.role w.node (w.requests id) lc).1 = .ok ())
      (plugin : w'.node.loaded.map Prod.fst = some replacement.pre)
  | rolledBack {call : Call} {canary : TransformCanaryState} {answer : GuestAnswer}
      {answers : FailureAnswers} {error : WasmProcessError} {node : LoadedNode}
      (event : e = .returned answer answers) (at_ : w.pc = .calling call)
      (canary_eq : w.canary = some canary)
      (answered : w.node.process call.taken.envelope answer = some (.error error, node))
      (condemns : error.condemns = true)
      (plugin : w'.node.loaded.map Prod.fst = (node.rebuilt.map fun _ => canary.snapshot))

section Steps

variable {cfg : LoopConfig} {w w' : World} {e : Event}

theorem pluginStep (hs : w.Snapshotted cfg) (h : Transition cfg w e w') :
    PluginStep cfg w e w' := by
  cases h with
  | arrive | close | refuse | cancel | tick | recordHash | tooLate | prepare | publish | withdrawn
  | retract => exact .kept (fun h => h) fun _ => rfl
  | move m => exact .kept (fun _ => m.live) fun _ => rfl
  | window at_ | pickup at_ | slotEmpty at_ | eof at_ | hold at_ | rerun at_ | retry at_
  | dequeue at_ | unhold at_ | hand at_ | claimed at_ | initFailed at_ | sent at_ =>
    exact .kept (fun _ => by rw [at_]; rfl) fun _ => rfl
  | shutdown => exact .kept (fun h => nomatch h) fun h => nomatch h
  | forwarded at_ loaded | filtered at_ loaded | unrouted at_ loaded =>
    exact .kept (fun _ => by rw [at_]; rfl) fun _ => congrArg _ loaded
  | @adopted id lc attempts node left at_ replaced kept succeeded =>
    have hco : w.node.loaded = w.node.rebuilt := hs.coherent (by rw [at_]; rfl)
    cases replaced with
    | reconfigured kind before after =>
      refine .kept (fun _ => by rw [at_]; rfl) fun _ => ?_
      change node.loaded.map Prod.fst = _
      rw [after, hco, before]
      rfl
    | swapped kind taken before after =>
      refine .swapped rfl at_ kind taken succeeded ?_
      change node.loaded.map Prod.fst = _
      rw [after]
      rfl
  | failed at_ loaded rebuilt handled =>
    have hco : w.node.loaded = w.node.rebuilt := hs.coherent (by rw [at_]; rfl)
    have hnode := handled.coherent (loaded.trans (hco.trans rebuilt.symm))
    have hreb := handled.rebuilt
    have hpc := handled.pc
    obtain ⟨pc, node', policy, metrics, state, generation, rfl⟩ := handled.frame
    refine .kept (fun _ => by rw [at_]; rfl) fun hl => ?_
    have hp : pc = .top := hpc.resolve_right (by rintro ⟨e, rfl⟩; exact absurd hl nofun)
    exact congrArg _ ((hnode hp).trans (hreb.trans (rebuilt.trans hco.symm)))
  | @rolledBack call canary node node' error answer answers at_ role canary_eq answered condemns
    loaded rebuilt =>
    refine .rolledBack rfl at_ canary_eq answered condemns ?_
    change node'.loaded.map Prod.fst = _
    rw [loaded, rebuilt, LoadedNode.rebuilt_setCachedPre, Option.map_map]
    rfl
  | @escalated call canary node node' error _ answer answers _ at_ role canary_eq answered condemns
    rebuilt handled running coherent =>
    have hreb := handled.rebuilt
    refine .rolledBack rfl at_ canary_eq answered condemns ?_
    obtain ⟨pc, node'', policy, metrics, state, generation, rfl⟩ := handled.frame
    change node''.loaded.map Prod.fst = _
    rw [coherent.trans (hreb.trans rebuilt), LoadedNode.rebuilt_setCachedPre, Option.map_map]
    rfl
  | lost at_ role canary handled stopped =>
    obtain ⟨pc, node'', policy, metrics, state, generation, rfl⟩ := handled.frame
    exact .kept (fun hl => absurd hl (by rw [stopped]; nofun)) fun hl =>
      absurd hl (by rw [stopped]; nofun)

end Steps

namespace HandlerPhase

/-- Before the hash check of a reconfigure. -/
def early : HandlerPhase → Bool
  | absent | guarded => true
  | _ => false

end HandlerPhase

namespace NodeApi

/-- A handler goes on: it keeps its hash and only prepares from the guarded phase. -/
structure Continues (h h' : Handler) : Prop where
  expected : h'.expected = h.expected
  early : h'.phase.early = true → h.phase.early = true
  sending : h'.phase = .sending → h.phase = .sending ∨ h.phase.early = true

/-- What one event does: nothing to the runner, one step of it, or a passed hash check. -/
inductive Fired (cfg : LoopConfig) (s : NodeApi) (e : ApiEvent) (s' : NodeApi) : Prop
  | idle (world : s'.world = s.world) (handlers : ∀ id, Continues (s.handlers id) (s'.handlers id))
  | moved {we : Event} (world : step cfg s.world we = some s'.world) (tracks : we.Tracks)
      (handlers : ∀ id, Continues (s.handlers id) (s'.handlers id))
      (sent : ∀ id, we = .publish id → (s.handlers id).phase = .sending)
      (event : we.ofRunner = true → e = .runner we)
  | checked {id : Nat} {config : String} {expected : Option String}
      (phase : (s.handlers id).phase = .guarded)
      (world : step cfg s.world (.prepare id (.reconfigure config) none none) = some s'.world)
      (passed : ∀ hash, expected = some hash →
        verifyPluginHash cfg.nodeId s.world.hashes hash = .ok ())
      (handlers : s'.handlers = Function.update s.handlers id ⟨.sending, expected⟩)

section Fire

variable {cfg : LoopConfig} {s s' : NodeApi} {e : ApiEvent}

theorem Continues.refl (h : Handler) : Continues h h := ⟨rfl, fun h => h, .inl⟩

/-- The handler of `id` moves to `phase`, the others stay. -/
theorem setPhase_continues {id : Nat} {phase : HandlerPhase}
    (early : phase.early = true → (s.handlers id).phase.early = true)
    (sending : phase = .sending → (s.handlers id).phase.early = true) (j : Nat) :
    Continues (s.handlers j) ((s.setPhase id phase).handlers j) := by
  by_cases hj : j = id
  · subst hj
    simp only [setPhase, Function.update_self]
    exact ⟨rfl, early, fun h => .inr (sending h)⟩
  · simp only [setPhase, Function.update_of_ne hj]
    exact .refl _

theorem release_continues (s : NodeApi) (id : Nat) (response : Option Response) (j : Nat) :
    Continues (s.handlers j) ((s.release id response).handlers j) :=
  @setPhase_continues s id (.gone response) nofun nofun j

theorem fire_runner {we : Event} (h : fire cfg s (.runner we) = some s') :
    Fired cfg s (.runner we) s' := by
  simp only [fire] at h
  split at h
  · next hr =>
    obtain ⟨world, hw, rfl⟩ := Option.map_eq_some_iff.mp h
    refine .moved hw ?_ (fun _ => .refl _) ?_ fun _ => rfl
    · cases we <;> trivial
    · rintro id rfl
      exact absurd hr nofun
  · exact absurd h nofun

theorem reconfigure_fired {id : Nat} {config : String} {expected : Option String}
    (hp : (s.handlers id).phase = .guarded)
    (h : s.reconfigure cfg id config expected = some s') :
    Fired cfg s (.reconfigure id config expected) s' := by
  unfold reconfigure at h
  dsimp only at h
  split at h
  · obtain rfl := Option.some.inj h
    exact .idle rfl (s.release_continues id _)
  · next hc =>
    obtain ⟨world, hw, rfl⟩ := Option.map_eq_some_iff.mp h
    refine .checked hp hw (fun hash hh => ?_) rfl
    rw [hh] at hc
    exact hc

theorem sendSwap_fired {id : Nat} (hp : (s.handlers id).phase = .sending)
    (h : s.sendSwap cfg id = some s') : Fired cfg s (.sendSwap id) s' := by
  simp only [sendSwap] at h
  split at h
  · obtain ⟨world, hw, rfl⟩ := Option.map_eq_some_iff.mp h
    refine .moved hw trivial (setPhase_continues nofun nofun) (fun j hj => ?_) nofun
    obtain rfl := Event.publish.inj hj
    exact hp
  · obtain rfl := Option.some.inj h
    exact .idle rfl (s.release_continues id _)

theorem fire_fired (h : fire cfg s e = some s') : Fired cfg s e s' := by
  cases e with
  | runner we => exact fire_runner h
  | begin_ id =>
    simp only [fire, Option.ite_none_right_eq_some] at h
    obtain ⟨hp, h⟩ := h
    obtain rfl := Option.some.inj h
    have he : (s.handlers id).phase.early = true := by rw [hp]; rfl
    simp only [begin_]
    split
    · exact .idle rfl (setPhase_continues (fun _ => he) nofun)
    · exact .idle rfl (setPhase_continues nofun nofun)
  | prepared id replacement =>
    simp only [fire, Option.ite_none_right_eq_some] at h
    obtain ⟨hp, h⟩ := h
    obtain ⟨world, hw, rfl⟩ := Option.map_eq_some_iff.mp h
    have he : (s.handlers id).phase.early = true := by rw [hp]; rfl
    refine .moved hw (fun r _ hr => ?_) (setPhase_continues nofun fun _ => he) nofun nofun
    rw [Option.some.inj hr]
  | failPreparation id response =>
    simp only [fire, Option.ite_none_right_eq_some] at h
    obtain rfl := Option.some.inj h.2
    exact .idle rfl (s.release_continues id _)
  | reconfigure id config expected =>
    simp only [fire, Option.ite_none_right_eq_some] at h
    exact reconfigure_fired h.1 h.2
  | sendSwap id =>
    simp only [fire, Option.ite_none_right_eq_some] at h
    exact sendSwap_fired h.1 h.2
  | outcome id =>
    simp only [fire, Option.ite_none_right_eq_some] at h
    obtain ⟨o, -, rfl⟩ := Option.map_eq_some_iff.mp h.2
    exact .idle rfl (s.release_continues id _)
  | timeout id =>
    simp only [fire, Option.ite_none_right_eq_some] at h
    obtain ⟨world, hw, rfl⟩ := Option.map_eq_some_iff.mp h.2
    refine .moved hw trivial (setPhase_continues ?_ ?_) nofun nofun <;> split <;> exact nofun
  | retractSwap id =>
    simp only [fire, Option.ite_none_right_eq_some] at h
    obtain ⟨world, hw, rfl⟩ := Option.map_eq_some_iff.mp h.2
    exact .moved hw trivial (s.release_continues id _) nofun nofun
  | settle id =>
    simp only [fire, Option.ite_none_right_eq_some] at h
    obtain rfl := Option.some.inj h.2
    exact .idle rfl (s.release_continues id _)
  | disconnect id =>
    simp only [fire, Option.ite_none_right_eq_some] at h
    obtain rfl := Option.some.inj h.2
    exact .idle rfl (s.release_continues id _)

/-- The request can still be adopted: it is about to be published, or it is open. -/
def Outstanding (s : NodeApi) (id : Nat) : Prop :=
  (s.handlers id).phase = .sending ∨ s.world.Open id

/-- While a reconfigure whose hash check passed is outstanding, every swap that is adopted and
every snapshot that a trap rolls back to has the expected hash as well. -/
structure PluginKept (cfg : LoopConfig) (s : NodeApi) (e : ApiEvent) : Prop where
  swap : ∀ id hash, (s.handlers id).expected = some hash → s.Outstanding id →
    ∀ j lc attempts replacement, e = .runner (.applied lc attempts) → s.world.pc = .applying j →
      (s.world.requests j).kind = cfg.role.payloadKind →
      (s.world.requests j).replacement = some replacement →
      (World.tryReplace cfg.role s.world.node (s.world.requests j) lc).1 = .ok () →
      eqIgnoreAsciiCase replacement.pre.plugin.hash hash = true
  rollback : ∀ id hash, (s.handlers id).expected = some hash → s.Outstanding id →
    ∀ call canary answer answers error node, e = .runner (.returned answer answers) →
      s.world.pc = .calling call → s.world.canary = some canary →
      s.world.node.process call.taken.envelope answer = some (.error error, node) →
      error.condemns = true → eqIgnoreAsciiCase canary.snapshot.plugin.hash hash = true

end Fire

end NodeApi

/-- The loaded plugin, if there is one, has the expected hash. -/
def World.RunsPlugin (w : World) (hash : String) : Prop :=
  ∀ pre, w.node.loaded.map Prod.fst = some pre → eqIgnoreAsciiCase pre.plugin.hash hash = true

/-- `a` replaced nothing but the configuration of a plugin with the expected hash. -/
def Adoption.OnPlugin (a : Adoption) (hash : String) : Prop :=
  ∃ pre config, a.before = some (pre, config) ∧ eqIgnoreAsciiCase pre.plugin.hash hash = true

namespace NodeApi

/-- A checked request that is outstanding matches the loaded plugin, and so did every adopted
one. -/
structure Checked (cfg : LoopConfig) (s : NodeApi) : Prop where
  snapshotted : s.world.Snapshotted cfg
  claims : s.world.Claims
  placed : s.world.Placed
  registered : s.world.Registered cfg
  early : ∀ id, (s.handlers id).phase.early = true → (s.handlers id).expected = none
  pending : ∀ id hash, (s.handlers id).expected = some hash → s.world.pc.live = true →
    s.Outstanding id → s.world.RunsPlugin hash
  adopted : ∀ a, .adopted a ∈ s.world.trace → ∀ hash,
    (s.handlers a.id).expected = some hash → a.OnPlugin hash

section Checked

variable {cfg : LoopConfig} {s s' : NodeApi} {e : ApiEvent} {we : Event} {id : Nat} {hash : String}

/-- A handler that goes on was outstanding before, unless its request was just published. -/
theorem Checked.outstanding (hc : s.Checked cfg) (hh : Continues (s.handlers id) (s'.handlers id))
    (he : (s'.handlers id).expected = some hash) (ho : s'.Outstanding id)
    (hopen : s'.world.Open id → s.world.Open id ∨ (s.handlers id).phase = .sending) :
    s.Outstanding id := by
  rcases ho with ho | ho
  · refine .inl ((hh.sending ho).resolve_right fun h => ?_)
    rw [hh.expected, hc.early id h] at he
    exact absurd he nofun
  · exact (hopen ho).symm

/-- A step of the runner keeps the plugin under a checked request, or the condition says so. -/
theorem Checked.runsPlugin (hc : s.Checked cfg) (hk : PluginKept cfg s e)
    (ht : Transition cfg s.world we s'.world) (event : we.ofRunner = true → e = .runner we)
    (he : (s.handlers id).expected = some hash) (ho : s.Outstanding id)
    (hl : s'.world.pc.live = true) : s'.world.RunsPlugin hash := by
  intro pre hpre
  cases pluginStep hc.snapshotted ht with
  | kept live plugin =>
    exact hc.pending id hash he (live hl) ho pre ((plugin hl).symm.trans hpre)
  | swapped hev at_ kind taken succeeded plugin =>
    obtain rfl := Option.some.inj (plugin.symm.trans hpre)
    exact hk.swap id hash he ho _ _ _ _ (by rw [event (by rw [hev]; rfl), hev]) at_ kind taken
      succeeded
  | rolledBack hev at_ canary_eq answered condemns plugin =>
    obtain ⟨-, -, rfl⟩ := Option.map_eq_some_iff.mp (plugin.symm.trans hpre)
    exact hk.rollback id hash he ho _ _ _ _ _ _ (by rw [event (by rw [hev]; rfl), hev]) at_
      canary_eq answered condemns

/-- An adoption was there before the step, or it replaces what the node runs now. -/
theorem adopted_step {w w' : World} {a : Adoption} (hs : w.Snapshotted cfg) (hp : w.Placed)
    (ht : Transition cfg w we w') (ha : .adopted a ∈ w'.trace) :
    .adopted a ∈ w.trace ∨ w.pc = .applying a.id ∧ a.before = w.node.loaded ∧
      w.node.loaded.isSome = true := by
  cases World.callStep hp ht with
  | quiet trace => exact .inl (World.mem_of_quiet trace (.inr nofun) ha)
  | adopted at_ trace _ _ before node =>
    rw [trace] at ha
    refine (List.mem_cons.mp ha).symm.imp_right fun heq => ?_
    obtain rfl := Obs.adopted.inj heq
    have hco : w.node.loaded = w.node.rebuilt := hs.coherent (by rw [at_]; rfl)
    exact ⟨at_, before, by rw [hco]; exact node⟩
  | called ready pc trace handed =>
    rw [trace] at ha
    have hb := (List.mem_cons.mp ha).resolve_left nofun
    rcases handed with rfl | rfl
    · exact .inl hb
    · exact .inl ((List.mem_cons.mp hb).resolve_left nofun)

theorem Checked.adopted_step (hc : s.Checked cfg) {w' : World} {a : Adoption}
    (ht : Transition cfg s.world we w') (ha : .adopted a ∈ w'.trace)
    (he : (s.handlers a.id).expected = some hash) : a.OnPlugin hash := by
  rcases NodeApi.adopted_step hc.snapshotted hc.placed ht ha with ha | ⟨at_, before, loaded⟩
  · exact hc.adopted a ha hash he
  · obtain ⟨⟨pre, config⟩, hl⟩ := Option.isSome_iff_exists.mp loaded
    refine ⟨pre, config, before.trans hl, hc.pending a.id hash he (by rw [at_]; rfl) ?_ pre ?_⟩
    · exact .inr (.inl (by rw [at_]; rfl))
    · rw [hl]
      rfl

/-- A request that was just prepared has no adoption in the trace. -/
theorem Checked.unadopted (hc : s.Checked cfg) (hs : (s.world.requests id).status = .unprepared)
    {a : Adoption} (ha : .adopted a ∈ s.world.trace) : a.id ≠ id := by
  rintro rfl
  have hi := hc.claims a.id
  have hcl := hi.claims
  rw [hi.unprepared hs] at hcl
  have hap : 0 < applications a.id s.world.trace :=
    List.length_pos_of_mem (List.mem_filter.mpr ⟨ha, by simp [Obs.applies]⟩)
  have hle : applications a.id s.world.trace ≤ Wafer.claims a.id s.world.trace :=
    hi.applications ▸ Nat.le_add_right ..
  simp at hcl
  omega

theorem verifyPluginHash_ok {nodeId cached expected : String} {hashes : PluginHashes}
    (h : verifyPluginHash nodeId hashes expected = .ok ()) (hh : hashes nodeId = some cached) :
    eqIgnoreAsciiCase cached expected = true := by
  simp only [verifyPluginHash] at h
  rw [hh] at h
  dsimp only at h
  split at h
  · assumption
  · exact absurd h nofun

theorem step_prepare {w w' : World} {kind : PayloadKind} {replacement : Option PreparedSwap}
    {tracked : Option String} (h : step cfg w (.prepare id kind replacement tracked) = some w') :
    (w.requests id).status = .unprepared ∧
      w' = w.prepare cfg.nodeId id kind replacement tracked := by
  simp only [Wafer.step, Option.ite_none_right_eq_some] at h
  exact ⟨h.1, (Option.some.inj h.2).symm⟩

/-- The registry entry the check compared with is the hash of the plugin that runs. -/
theorem Checked.passed (hc : s.Checked cfg)
    (hv : verifyPluginHash cfg.nodeId s.world.hashes hash = .ok ())
    (hl : s.world.pc.live = true) : s.world.RunsPlugin hash := by
  intro pre hpre
  obtain ⟨⟨pre, config⟩, hloaded, rfl⟩ := Option.map_eq_some_iff.mp hpre
  exact verifyPluginHash_ok hv (hc.registered.hash hl pre config hloaded)

theorem Checked.step (hc : s.Checked cfg) (hk : PluginKept cfg s e)
    (h : fire cfg s e = some s') : s'.Checked cfg := by
  cases fire_fired h with
  | idle world handlers =>
    have early : ∀ id, (s'.handlers id).phase.early = true → (s'.handlers id).expected = none :=
      fun id hp => (handlers id).expected.trans (hc.early id ((handlers id).early hp))
    refine ⟨world ▸ hc.snapshotted, world ▸ hc.claims, world ▸ hc.placed, world ▸ hc.registered,
      early, fun id hash he hl ho => ?_, fun a ha hash he => ?_⟩
    · have ho := hc.outstanding (handlers id) he ho fun h => .inl (world ▸ h)
      rw [world] at hl ⊢
      exact hc.pending id hash ((handlers id).expected ▸ he) hl ho
    · exact hc.adopted a (world ▸ ha) hash ((handlers a.id).expected ▸ he)
  | @moved we world tracks handlers sent event =>
    have ht := step_transition world
    refine ⟨hc.snapshotted.step ht, hc.claims.step ht, hc.placed.step ht,
      hc.registered.step hc.snapshotted hc.claims tracks ht, fun id hp => ?_,
      fun id hash he hl ho => ?_, fun a ha hash he => ?_⟩
    · exact (handlers id).expected.trans (hc.early id ((handlers id).early hp))
    · have ho := hc.outstanding (handlers id) he ho fun h =>
        (World.open_step hc.claims ht h).imp_right (sent id)
      exact hc.runsPlugin hk ht event ((handlers id).expected ▸ he) ho hl
    · exact hc.adopted_step ht ha ((handlers a.id).expected ▸ he)
  | @checked j config expected phase world passed handlers =>
    have ht := step_transition world
    have others : ∀ id, id ≠ j → s'.handlers id = s.handlers id := fun id hj => by
      rw [handlers, Function.update_of_ne hj]
    have tracks : (Event.prepare j (.reconfigure config) none none).Tracks :=
      fun _ hk => absurd rfl (hk config)
    obtain ⟨status, prepared⟩ := step_prepare world
    have self : s'.handlers j = ⟨.sending, expected⟩ := by rw [handlers, Function.update_self]
    refine ⟨hc.snapshotted.step ht, hc.claims.step ht, hc.placed.step ht,
      hc.registered.step hc.snapshotted hc.claims tracks ht, fun id hp => ?_,
      fun id hash he hl ho => ?_, fun a ha hash he => ?_⟩
    · by_cases hj : id = j
      · rw [hj, self] at hp
        exact absurd hp nofun
      · rw [others id hj] at hp ⊢
        exact hc.early id hp
    · by_cases hj : id = j
      · rw [hj, self] at he
        rw [prepared] at hl ⊢
        exact hc.passed (passed hash he) hl
      · rw [others id hj] at he
        refine hc.runsPlugin hk ht nofun he ?_ hl
        have hh : Continues (s.handlers id) (s'.handlers id) := by
          rw [others id hj]
          exact .refl _
        exact hc.outstanding hh (by rw [others id hj]; exact he) ho
          fun h => (World.open_step hc.claims ht h).imp_right nofun
    · have hold : .adopted a ∈ s.world.trace := by rwa [prepared] at ha
      rw [others a.id (hc.unadopted status hold)] at he
      exact hc.adopted a hold hash he

end Checked

section Runs

variable {cfg : LoopConfig} {setup : LoopSetup} {events : List ApiEvent} {s s' : NodeApi}

theorem Checked.start (cfg : LoopConfig) (setup : LoopSetup) : (start cfg setup).Checked cfg where
  snapshotted := .start cfg _
  claims := .start cfg _
  placed := .of_empty rfl rfl
  registered := by
    refine ⟨fun _ pre config hl => ?_, fun _ hc => (nomatch hc),
      fun _ => ⟨fun _ _ => rfl, fun _ _ hr => nomatch hr⟩⟩
    have hn : setup.node.loaded = some (pre, config) := hl
    simp [NodeApi.start, World.start, recordPluginHash, hn]
  early _ _ := rfl
  pending _ _ he := nomatch he
  adopted _ ha := nomatch ha

/-- The hash check refuses a request and leaves node and registry alone, or the handler goes on to
publish with the hash it checked. -/
theorem reconfigure_refused {id : Nat} {config expected : String} (hne : expected ≠ "")
    (h : fire cfg s (.reconfigure id config (some expected)) = some s') :
    (s'.handlers id).expected = some expected ∨ s'.world = s.world ∧
      ∃ message, (s'.handlers id).phase = .gone (some ⟨.conflict, message⟩) := by
  simp only [fire, Option.ite_none_right_eq_some, reconfigure, Option.filter_some, hne, ne_eq,
    not_false_eq_true, decide_true, if_true] at h
  obtain ⟨-, h⟩ := h
  split at h
  · next e hv =>
    obtain rfl := Option.some.inj h
    refine .inr ⟨rfl, ?_⟩
    simp only [verifyPluginHash] at hv
    split at hv
    · split at hv
      · exact absurd hv nofun
      · obtain rfl := Except.error.inj hv
        exact ⟨_, by simp only [release, setPhase, Function.update_self]; rfl⟩
    · exact absurd hv nofun
  · obtain ⟨world, -, rfl⟩ := Option.map_eq_some_iff.mp h
    exact .inl (by simp)

/-- If no other plugin came in while a checked request was outstanding, every configuration was
adopted on the plugin it was checked against. A request whose check fails changes nothing. -/
theorem reconfigure_on_expected_plugin (h : run cfg setup events = some s)
    (hk : Lib.StepsMeet (fire cfg) (PluginKept cfg) (start cfg setup) events) :
    (∀ a, .adopted a ∈ s.world.trace → ∀ hash, (s.handlers a.id).expected = some hash →
        a.OnPlugin hash) ∧
      ∀ id config expected s', expected ≠ "" →
        fire cfg s (.reconfigure id config (some expected)) = some s' →
          (s'.handlers id).expected = some expected ∨ s'.world = s.world ∧
            ∃ message, (s'.handlers id).phase = .gone (some ⟨.conflict, message⟩) := by
  have hc : s.Checked cfg := Lib.exec_invariant_where (P := fun s : NodeApi => s.Checked cfg)
    (fun _ _ _ hc hk hs => hc.step hk hs) h hk (.start cfg setup)
  exact ⟨hc.adopted, fun _ _ _ _ hne hf => reconfigure_refused hne hf⟩

end Runs

def echoAnswer : Event :=
  .returned (.process { result := .ok (.ok ⟨"m", 0, "scale", "text/plain", [], []⟩) }) noFailure

def ofLoop (events : List Event) : List ApiEvent := events.map .runner

/-- A reconfigure checked against the plugin the node was launched with. -/
def reconfigureIdle : List ApiEvent :=
  [.begin_ 0, .reconfigure 0 "new" (some "AA"), .sendSwap 0] ++
    ofLoop [.advance, .advance, .advance]

/-- The plugin `bb` is swapped in and keeps its canary. A reconfigure is checked against it and
published while a message is in the guest. -/
def reconfigureInCall : List ApiEvent :=
  [.begin_ 0, .prepared 0 swapToB, .sendSwap 0] ++
    ofLoop ([.advance, .advance, .advance, .applied {} noAttempts] ++ idleRound ++
      [.arrive (.new "m" 0 "source" []), .select .recv, .advance, echoAnswer, .sent]) ++
    [.outcome 0] ++
    ofLoop (idleRound ++ [.arrive (.new "n" 0 "source" []), .select .recv, .advance]) ++
    [.begin_ 1, .reconfigure 1 "new" (some "bb"), .sendSwap 1]

/-- That message traps, so `aa` is back before the runner looks at the slot. -/
def reconfigureAfterRollback : List ApiEvent :=
  reconfigureInCall ++
    ofLoop [trapAnswer, .advance, .advance, echoAnswer, .sent, .advance, .advance, .advance,
      .applied {} noAttempts]

theorem reconfigure_on_expected_plugin_idle :
    ∃ s, run ⟨.transform, "scale", {}⟩ sampleSetup
        (reconfigureIdle ++ [.runner (.applied {} noAttempts)]) = some s ∧
      (s.handlers 0).expected = some "AA" ∧
      ∃ a, .adopted a ∈ s.world.trace ∧ a.id = 0 ∧ a.OnPlugin "AA" := by
  have hr : ∃ s, run ⟨.transform, "scale", {}⟩ sampleSetup
        (reconfigureIdle ++ [.runner (.applied {} noAttempts)]) = some s ∧
      (s.handlers 0).expected = some "AA" ∧ ∃ a before, s.world.trace = .adopted a :: before ∧
        a.id = 0 := ⟨_, rfl, rfl, _, _, rfl, rfl⟩
  obtain ⟨s, h, he, a, before, ht, hi⟩ := hr
  have hm : .adopted a ∈ s.world.trace := by rw [ht]; exact .head _
  have hk : Lib.StepsMeet (fire ⟨.transform, "scale", {}⟩) (PluginKept ⟨.transform, "scale", {}⟩)
      (start ⟨.transform, "scale", {}⟩ sampleSetup)
      (reconfigureIdle ++ [.runner (.applied {} noAttempts)]) := by
    refine .append (.of_forall fun t e he => ?_) fun t ht => ?_
    · constructor
      · rintro _ _ - - _ _ _ _ rfl
        simp [reconfigureIdle, ofLoop] at he
      · rintro _ _ - - _ _ _ _ _ _ rfl
        simp [reconfigureIdle, ofLoop] at he
    · obtain rfl := Option.some.inj ht
      refine ⟨⟨?_, fun _ _ _ _ _ _ _ _ _ _ hev => nomatch hev⟩, fun _ _ => trivial⟩
      rintro _ _ - - j _ _ _ - hp hkind
      obtain rfl := Pc.applying.inj hp
      exact absurd hkind nofun
  exact ⟨s, h, he, a, hm, hi, (reconfigure_on_expected_plugin h hk).1 a hm "AA" (hi ▸ he)⟩

/-- The runner does not look at the hash again: a rollback between check and adoption puts the
configuration on a plugin that was never checked. -/
theorem reconfigure_after_rollback :
    ¬ ∀ setup events s, run ⟨.transform, "scale", {}⟩ setup events = some s →
      ∀ a, .adopted a ∈ s.world.trace → ∀ hash, (s.handlers a.id).expected = some hash →
        a.OnPlugin hash := by
  intro h
  have hr : ∃ s, run ⟨.transform, "scale", {}⟩ sampleSetup reconfigureAfterRollback = some s ∧
      ∃ a before, s.world.trace = .adopted a :: before ∧ a.before = some (preA, "{}") ∧
        (s.handlers a.id).expected = some "bb" := ⟨_, rfl, _, _, rfl, rfl, rfl⟩
  obtain ⟨s, hs, a, before, ht, hb, he⟩ := hr
  obtain ⟨pre, config, hp, hh⟩ := h sampleSetup _ s hs a (by rw [ht]; exact .head _) "bb" he
  obtain ⟨rfl, rfl⟩ := Prod.mk.inj (Option.some.inj (hb.symm.trans hp))
  exact absurd hh (by decide)

end NodeApi

end Wafer
