import Wafer.Runner.Canary
import Wafer.Runner.ClaimProtocol

/-!
# The plugin-hash registry

The registry is written when a replacement is adopted and again when a canary
rolls it back. As long as every hot-swap payload tracks the hash of its plugin,
the entry of the node is the hash of the plugin it runs.
-/

namespace Wafer

/-- What the API tracks for a request: the hash of the prepared plugin, nothing for a
reconfigure. -/
structure Request.Tracked (nodeId : String) (r : Request) : Prop where
  reconfigure : ∀ config, r.kind = .reconfigure config → r.progress.tracks = none
  swap : ∀ s, (∀ config, r.kind ≠ .reconfigure config) → r.replacement = some s →
    r.progress.tracks = some (nodeId, s.pre.plugin.hash)

/-- The request goes on with the same payload and the same tracking. -/
structure Request.Continues (r r' : Request) : Prop where
  kind : r'.kind = r.kind
  replacement : ∀ s, r'.replacement = some s → r.replacement = some s
  pluginHash : r'.progress.pluginHash = r.progress.pluginHash

theorem Request.Continues.refl (r : Request) : r.Continues r := ⟨rfl, fun _ h => h, rfl⟩

theorem Request.Tracked.of_eq {nodeId : String} {r r' : Request} (h : r.Tracked nodeId)
    (kind : r'.kind = r.kind) (kept : ∀ s, r'.replacement = some s → r.replacement = some s)
    (tracks : r'.progress.tracks = r.progress.tracks) : r'.Tracked nodeId where
  reconfigure config hk := tracks.trans (h.reconfigure config (kind ▸ hk))
  swap s hk hs := tracks.trans (h.swap s (kind ▸ hk) (kept s hs))

theorem Request.Tracked.of_continues {nodeId : String} {r r' : Request} (h : r.Tracked nodeId)
    (hr : r.Continues r') : r'.Tracked nodeId :=
  h.of_eq hr.kind hr.replacement (by simp only [HotSwapProgress.tracks, hr.pluginHash])

theorem Request.Continues.update {requests : Nat → Request} {j : Nat} {r : Request}
    (h : (requests j).Continues r) (id : Nat) :
    (requests id).Continues (Function.update requests j r id) := by
  by_cases hj : id = j
  · subst hj
    simpa using h
  · rw [Function.update_of_ne hj]
    exact .refl _

/-- Hot-swap payloads come with the hash of their plugin. -/
def Event.Tracks : Event → Prop
  | .prepare _ kind replacement hash => ∀ s, (∀ config, kind ≠ .reconfigure config) →
    replacement = some s → hash = some s.pre.plugin.hash
  | _ => True

namespace World

/-- The registry follows the node, and a held canary can put back the hash of its snapshot. -/
structure Registered (cfg : LoopConfig) (w : World) : Prop where
  hash : w.pc.live = true → ∀ pre config, w.node.loaded = some (pre, config) →
    w.hashes cfg.nodeId = some pre.plugin.hash
  saved : ∀ c, w.canary = some c → ∃ update,
    (w.requests c.swap).progress.pluginHash = some update ∧ update.nodeId = cfg.nodeId ∧
      update.replaced = some c.snapshot.plugin.hash
  tracked : ∀ id, (w.requests id).Tracked cfg.nodeId

section Steps

variable {cfg : LoopConfig} {w w' : World} {e : Event}

/-- The request behind a held canary is claimed and applied. -/
theorem Snapshotted.swap_applied (h : w.Snapshotted cfg) (hc : w.Claims)
    {c : TransformCanaryState} (hcan : w.canary = some c) :
    (w.requests c.swap).status ≠ .unprepared ∧ 0 < applications c.swap w.trace := by
  obtain ⟨a, -, ha, -, hi, -⟩ := h.snapshot c hcan
  obtain ⟨o, ho, hoa⟩ := List.exists_of_findSome?_eq_some ha
  have hap : 0 < applications c.swap w.trace := by
    refine List.length_pos_of_mem (List.mem_filter.mpr ⟨ho, ?_⟩)
    cases o <;> simp_all [Obs.adoption?, Obs.applies]
  have hcl := (hc c.swap).claims
  have hle : applications c.swap w.trace ≤ claims c.swap w.trace :=
    (hc c.swap).applications ▸ Nat.le_add_right ..
  refine ⟨fun hu => ?_, hap⟩
  rw [(hc c.swap).unprepared hu] at hcl
  simp at hcl
  omega

/-- Steps that keep plugin, registry and canary, and let the requests only report. -/
theorem Registered.of_quiet (h : w.Registered cfg) (live : w'.pc.live = true → w.pc.live = true)
    (loaded : w'.node.loaded = w.node.loaded)
    (hashes : w'.hashes cfg.nodeId = w.hashes cfg.nodeId)
    (canary : w'.canary.map (fun c => (c.snapshot, c.swap)) =
      w.canary.map fun c => (c.snapshot, c.swap))
    (requests : ∀ id, (w.requests id).Continues (w'.requests id)) : w'.Registered cfg where
  hash hl pre config hn := hashes.trans (h.hash (live hl) pre config (loaded ▸ hn))
  saved c hc := by
    rw [hc] at canary
    obtain ⟨c', hc', hs⟩ := Option.map_eq_some_iff.mp canary.symm
    obtain ⟨update, hu, hn, hr⟩ := h.saved c' hc'
    obtain ⟨hp, hw⟩ := Prod.mk.inj hs
    exact ⟨update, by rw [(requests c.swap).pluginHash, ← hw]; exact hu, hn, hp ▸ hr⟩
  tracked id := (h.tracked id).of_continues (requests id)

theorem reportTo_continues {f : HotSwapProgress → HotSwapProgress}
    (hf : ∀ p : HotSwapProgress, (f p).pluginHash = p.pluginHash) (w : World) (target : Option Nat)
    (id : Nat) : (w.requests id).Continues ((w.reportTo target f).requests id) := by
  cases target with
  | none => exact .refl _
  | some k =>
    have hk : (w.requests k).Continues { w.requests k with
        progress := f (w.requests k).progress } := ⟨rfl, fun _ h => h, hf _⟩
    exact hk.update id

theorem restoreReplaced_tracked {nodeId : String} (h : ∀ id, (w.requests id).Tracked nodeId)
    (canary : TransformCanaryState) (error : WasmProcessError) (id : Nat) :
    ((w.restoreReplaced canary error).requests id).Tracked nodeId := by
  by_cases hk : id = canary.swap
  · subst hk
    refine (h canary.swap).of_eq ?_ (fun s hs => ?_) ?_
    · simp [restoreReplaced, setProgress]
    · simpa [restoreReplaced, setProgress] using hs
    · simp [restoreReplaced, setProgress]
  · simpa [restoreReplaced, setProgress, Function.update_of_ne hk] using h id

/-- A rollback puts the hash of the snapshot back. -/
theorem Registered.restored (h : w.Registered cfg) {canary : TransformCanaryState}
    (hc : w.canary = some canary) (error : WasmProcessError) :
    (w.restoreReplaced canary error).hashes cfg.nodeId = some canary.snapshot.plugin.hash := by
  obtain ⟨update, hu, hn, hr⟩ := h.saved canary hc
  simp only [restoreReplaced, HotSwapProgress.restoreReplacedPluginHash_some hu hr, hn,
    Function.update_self]

/-- What runs after a rollback is the snapshot, whose hash the registry shows again. -/
theorem Registered.rolledBack (h : w.Registered cfg) {canary : TransformCanaryState}
    (hc : w.canary = some canary) (error : WasmProcessError) {node : LoadedNode}
    (hl : w'.node.loaded = (node.setCachedPre canary.snapshot).rebuilt) (hcan : w'.canary = none)
    (hh : w'.hashes = (w.restoreReplaced canary error).hashes)
    (requests : ∀ id, (w'.requests id).Tracked cfg.nodeId) : w'.Registered cfg where
  hash _ pre config hn := by
    rw [hh, h.restored hc error]
    rw [hl, LoadedNode.rebuilt_setCachedPre] at hn
    obtain ⟨r, -, hr⟩ := Option.map_eq_some_iff.mp hn
    rw [(Prod.mk.inj hr).1]
  saved c hs := absurd (hcan.symm.trans hs) nofun
  tracked := requests

theorem Registered.adopt {id : Nat} {node : LoadedNode} {left : Option PreparedSwap}
    {attempts : Nat → DlqAttempt} (h : w.Registered cfg) (hs : w.Snapshotted cfg)
    (at_ : w.pc = .applying id)
    (replaced : Replaced cfg.role (w.requests id) w.node (.ok ()) node)
    (kept : ∀ s, left = some s → (w.requests id).replacement = some s) :
    ((w.setReplacement id left).adopt cfg id node attempts).Registered cfg := by
  have hco : w.node.loaded = w.node.rebuilt := hs.coherent (by rw [at_]; rfl)
  have htr : ∀ j, (((w.setReplacement id left).adopt cfg id node attempts).requests j).Tracked
      cfg.nodeId := fun j => by
    rw [adopt_requests]
    by_cases hj : j = id
    · subst hj
      rw [Function.update_self]
      exact (h.tracked j).of_eq rfl kept (by simp)
    · rw [Function.update_of_ne hj]
      exact h.tracked j
  cases replaced with
  | @reconfigured config pre old _ kind before after coherent =>
    have hn : (w.requests id).progress.pluginHash = none :=
      Option.map_eq_none_iff.mp ((h.tracked id).reconfigure config kind)
    refine ⟨fun _ pre' config' hl => ?_, fun c hc => ?_, htr⟩
    · rw [adopt_hashes, (HotSwapProgress.markReplacementAdopted_none hn _ _).2,
        h.hash (by rw [at_]; rfl) pre old (hco.trans before)]
      rw [(Prod.mk.inj (Option.some.inj (after.symm.trans hl))).1]
    · rcases adopt_canary_cases left attempts hs.only_transform
        (.reconfigured kind before after coherent) with hnone | ⟨_, _, -, hk, -⟩
      · exact absurd (hnone.symm.trans hc) nofun
      · exact absurd (hk.symm.trans kind) nofun
  | @swapped replacement pre config _ kind taken before after coherent =>
    have hk : ∀ config, (w.requests id).kind ≠ .reconfigure config := fun config => by
      rw [kind]
      exact cfg.role.payloadKind_ne_reconfigure config
    obtain ⟨update, hu, hup⟩ := Option.map_eq_some_iff.mp ((h.tracked id).swap replacement hk taken)
    obtain ⟨hnode, hhash⟩ := Prod.mk.inj hup
    obtain ⟨hp', hh'⟩ := HotSwapProgress.markReplacementAdopted_some hu w.now w.hashes
    refine ⟨fun _ pre' config' hl => ?_, fun c hc => ?_, htr⟩
    · rw [adopt_hashes, hh', hnode, Function.update_self, hhash]
      rw [(Prod.mk.inj (Option.some.inj (after.symm.trans hl))).1]
    · rcases adopt_canary_cases left attempts hs.only_transform
        (.swapped kind taken before after coherent) with hnone | ⟨_, _, -, -, hb, -, hnew⟩
      · exact absurd (hnone.symm.trans hc) nofun
      · obtain rfl := Option.some.inj (hnew.symm.trans hc)
        refine ⟨{ update with replaced := w.hashes update.nodeId }, ?_, hnode, ?_⟩
        · rw [adopt_requests]
          simpa [TransformCanaryState.new] using hp'
        · change w.hashes update.nodeId = _
          rw [hnode]
          exact h.hash (by rw [at_]; rfl) _ _ (hco.trans hb)

theorem Registered.step (hs : w.Snapshotted cfg) (hc : w.Claims) (hr : w.Registered cfg)
    (ht : e.Tracks) (h : Transition cfg w e w') : w'.Registered cfg := by
  cases h with
  | arrive | close | refuse | cancel | tick | tooLate | retract =>
    exact hr.of_quiet (fun h => h) rfl rfl rfl fun _ => .refl _
  | recordHash other =>
    exact hr.of_quiet (fun h => h) rfl (Function.update_of_ne (Ne.symm other) _ _) rfl
      fun _ => .refl _
  | move m => exact hr.of_quiet (fun _ => m.live) rfl rfl rfl fun _ => .refl _
  | pickup at_ | slotEmpty at_ | eof at_ | hold at_ | rerun at_ | retry at_ | dequeue at_
  | unhold at_ | hand at_ =>
    exact hr.of_quiet (fun _ => by rw [at_]; rfl) rfl rfl rfl fun _ => .refl _
  | shutdown => exact hr.of_quiet (by rintro ⟨⟩) rfl rfl rfl fun _ => .refl _
  | forwarded at_ loaded =>
    exact hr.of_quiet (fun _ => by rw [at_]; rfl) loaded rfl rfl fun _ => .refl _
  | filtered at_ loaded | unrouted at_ loaded =>
    exact hr.of_quiet (fun _ => by rw [at_]; rfl) loaded rfl rfl
      (reportTo_continues (fun p => p.markFirstOutcome_pluginHash w.now _) w w.pendingSwapProgress)
  | sent at_ =>
    refine hr.of_quiet (fun _ => by rw [at_]; rfl) rfl rfl ?_
      (reportTo_continues (fun p => p.markFirstOutcome_pluginHash w.now _) w w.pendingSwapProgress)
    simp only [World.sent, Option.map_map]
    rfl
  | @prepare j kind replacement hash status =>
    have hsw : ∀ c, w.canary = some c → c.swap ≠ j := fun c hcan hj =>
      (hs.swap_applied hc hcan).1 (hj ▸ status)
    refine ⟨hr.hash, fun c hcan => ?_, fun id => ?_⟩
    · obtain ⟨update, hu, hn⟩ := hr.saved c hcan
      exact ⟨update, by simpa only [World.prepare, Function.update_of_ne (hsw c hcan)] using hu, hn⟩
    · by_cases hj : id = j
      · subst hj
        simp only [World.prepare, Function.update_self]
        refine ⟨fun config hk => ?_, fun s hk hsome => ?_⟩
        · obtain rfl : kind = .reconfigure config := hk
          rfl
        · obtain rfl := ht s hk hsome
          cases kind with
          | reconfigure config => exact absurd rfl (hk config)
          | transform => rfl
          | filter => rfl
          | router => rfl
      · simpa only [World.prepare, Function.update_of_ne hj] using hr.tracked id
  | publish | withdrawn =>
    exact hr.of_quiet (fun h => h) rfl rfl rfl
      (Request.Continues.update ⟨rfl, fun _ h => h, rfl⟩)
  | claimed at_ =>
    exact hr.of_quiet (fun _ => by rw [at_]; rfl) rfl rfl rfl
      (Request.Continues.update ⟨rfl, fun _ h => h, rfl⟩)
  | @initFailed j _ _ error left at_ kept =>
    refine hr.of_quiet (fun _ => by rw [at_]; rfl) rfl rfl rfl fun id => ?_
    have hreq : ((w.setReplacement j left).failInit j error).requests =
        Function.update w.requests j { w.requests j with
          replacement := left
          progress := (w.requests j).progress.reportInitFailed error.toString } := by
      simp [failInit, setReplacement, reportTo, observe]
    have hcont : (w.requests j).Continues { w.requests j with
        replacement := left
        progress := (w.requests j).progress.reportInitFailed error.toString } :=
      ⟨rfl, kept, by simp⟩
    rw [hreq]
    exact hcont.update id
  -- an expired window drops the canary and with it the saved hash
  | window at_ =>
    exact ⟨fun _ => hr.hash (by rw [at_]; rfl),
      fun c hm => hr.saved c (Option.filter_eq_some_iff.mp hm).1, hr.tracked⟩
  | adopted at_ replaced kept => exact hr.adopt hs at_ replaced kept
  | @failed call node _ _ _ _ at_ loaded rebuilt handled =>
    have hco := hs.coherent (by rw [at_]; rfl)
    have hnode := handled.coherent (loaded.trans (hco.trans rebuilt.symm))
    have hreb := handled.rebuilt
    have hpc := handled.pc
    obtain ⟨pc, node', policy, metrics, state, generation, rfl⟩ := handled.frame
    refine ⟨fun hl pre config hn => ?_, hr.saved, hr.tracked⟩
    have hp : pc = .top := hpc.resolve_right (by rintro ⟨e, rfl⟩; exact absurd hl (by rintro ⟨⟩))
    have hsame : node'.loaded = w.node.loaded :=
      (hnode hp).trans (hreb.trans (rebuilt.trans hco.symm))
    exact hr.hash (by rw [at_]; rfl) pre config (hsame.symm.trans hn)
  | @rolledBack _ canary node node' error _ answers at_ role canary_eq answered condemns loaded
    rebuilt =>
    refine hr.rolledBack canary_eq error (loaded.trans rebuilt) rfl rfl fun id => ?_
    exact (restoreReplaced_tracked hr.tracked canary error id).of_continues
      (reportTo_continues (fun p => p.reportRolledBack_pluginHash _ _) _ w.pendingSwapProgress id)
  | @escalated _ canary node node' error _ _ _ _ at_ role canary_eq answered condemns rebuilt handled
    running coherent =>
    have hreb := handled.rebuilt
    obtain ⟨pc, node'', policy, metrics, state, generation, rfl⟩ := handled.frame
    refine hr.rolledBack canary_eq error (coherent.trans (hreb.trans rebuilt)) rfl rfl
      fun id => ?_
    exact (restoreReplaced_tracked hr.tracked canary error id).of_continues
      (reportTo_continues (fun p => p.reportRolledBack_pluginHash _ _) _ w.pendingSwapProgress id)
  -- the loop ends, so the entry need not name what runs
  | @lost _ canary _ _ error _ _ _ _ _ at_ role canary_eq handled stopped =>
    obtain ⟨pc, node'', policy, metrics, state, generation, rfl⟩ := handled.frame
    refine ⟨fun hl => absurd hl (by rw [stopped]; rintro ⟨⟩), fun _ hcan => absurd hcan (by rintro ⟨⟩),
      fun id => ?_⟩
    exact (restoreReplaced_tracked hr.tracked canary error id).of_continues
      (reportTo_continues (fun p => p.reportRolledBack_pluginHash _ _) _ w.pendingSwapProgress id)

end Steps

end World

section Runs

variable {cfg : LoopConfig} {setup : LoopSetup} {events : List Event} {w : World}

/-- With the entry seeded and every swap tracked, the registry shows the hash of the plugin that
runs, whenever the loop is about to wait for input and at any other point before it ends. -/
theorem registry_tracks_loaded (h : runLoop cfg setup events = some w)
    (seeded : ∀ pre config, setup.node.loaded = some (pre, config) →
      setup.hashes cfg.nodeId = some pre.plugin.hash)
    (tracked : ∀ e ∈ events, e.Tracks) (live : w.pc.live = true) :
    ∀ pre config, w.node.loaded = some (pre, config) →
      w.hashes cfg.nodeId = some pre.plugin.hash := by
  refine (Lib.exec_invariant_where
    (P := fun w : World => w.Snapshotted cfg ∧ w.Claims ∧ w.Registered cfg)
    (C := fun _ (e : Event) => e.Tracks)
    (fun s e t hp hc hs => ?_) h (.of_forall fun _ e he => tracked e he)
    ⟨.start cfg setup, .start cfg setup, ?_⟩).2.2.hash live
  · have ht := step_transition hs
    exact ⟨hp.1.step ht, hp.2.1.step ht, hp.2.2.step hp.1 hp.2.1 hc ht⟩
  · exact ⟨fun _ => seeded, fun _ hc => (nomatch hc),
      fun _ => ⟨fun _ _ => rfl, fun _ _ hr => nomatch hr⟩⟩

end Runs

theorem registry_tracks_loaded_after_swap :
    ∃ w, runTransformLoopWithConfig "scale" {} sampleSetup (adoptB ++ [.advance, .advance]) =
        some w ∧ w.hashes "scale" = some "bb" ∧
      ∀ pre config, w.node.loaded = some (pre, config) →
        w.hashes "scale" = some pre.plugin.hash := by
  have hr : ∃ w, runTransformLoopWithConfig "scale" {} sampleSetup (adoptB ++ [.advance, .advance]) =
      some w ∧ w.hashes "scale" = some "bb" ∧ w.pc = .waiting := ⟨_, rfl, rfl, rfl⟩
  obtain ⟨w, h, hb, hp⟩ := hr
  refine ⟨w, h, hb, registry_tracks_loaded h ?_ ?_ (by rw [hp]; rfl)⟩
  · rintro pre config hl
    obtain ⟨rfl, rfl⟩ := Prod.mk.inj (Option.some.inj hl)
    rfl
  · simp [adoptB, Event.Tracks, swapToB, preB]

end Wafer
