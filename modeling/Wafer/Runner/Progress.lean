import Mathlib.Logic.Function.Basic
import Wafer.Node.Wasm
import Wafer.Runner.ErrorPolicy

/-!
# Replacement progress and canary state

`HotSwapProgress` is the handle the API shares with the runner for one
replacement request: the claim flag, the adoption marks, the outcome channel
and the plugin-hash bookkeeping. Instants are nanoseconds of a monotonic clock.

## Main definitions

- `HotSwapProgress.tryClaim`, `tryWithdraw` — the two sides of the claim flag
- `HotSwapProgress.markReplacementAdopted`, `restoreReplacedPluginHash`
- `CanaryCounters.windowExpired`, `TransformCanaryState`
-/

namespace Wafer

inductive FirstPostReplacementLocalOutcome
  | forwardedEnqueued
  | filterDropped
  | routerDropped
  deriving DecidableEq, Repr

inductive HotSwapError
  | initFailed (message : String)
  | rolledBack (rollbackTimeNs : Nat) (reason : String)
  deriving DecidableEq, Repr

def HotSwapError.toString : HotSwapError → String
  | initFailed message => "hot-swap init failed: " ++ message
  | rolledBack ns reason =>
    "hot-swap rolled back after process-time trap in " ++ ns.repr ++ " ns: " ++ reason

structure HotSwapReport where
  replacementAdoptedAt : Nat
  firstPostReplacementLocalOutcomeAt : Nat
  firstPostReplacementLocalOutcome : FirstPostReplacementLocalOutcome
  deriving DecidableEq, Repr

/-- What the runner reports back to the API: `ok` is the first local outcome on the replacement. -/
inductive HotSwapOutcome
  | ok (report : HotSwapReport)
  | error (error : HotSwapError)
  deriving DecidableEq, Repr

/-- Hex hash of the loaded plugin, per node id. -/
abbrev PluginHashes := String → Option String

structure PluginHashUpdate where
  nodeId : String
  replacement : String
  replaced : Option String := none
  deriving DecidableEq, Repr

inductive Claim
  | pending
  | runner
  | withdrawn
  deriving DecidableEq, Repr

structure HotSwapProgress where
  replacementAdopted : Option Nat := none
  firstPostReplacementLocalOutcome : Option (Nat × FirstPostReplacementLocalOutcome) := none
  /-- The outcome sender has not been taken yet. -/
  tx : Bool := true
  /-- Every value put into the outcome channel so far. -/
  sent : List HotSwapOutcome := []
  claim : Claim := .pending
  pluginHash : Option PluginHashUpdate := none
  deriving DecidableEq, Repr

namespace HotSwapProgress

def channel : HotSwapProgress := {}

/-- Set once; later calls are ignored. -/
def trackPluginHash (p : HotSwapProgress) (nodeId replacement : String) : HotSwapProgress :=
  match p.pluginHash with
  | some _ => p
  | none => { p with pluginHash := some { nodeId, replacement } }

def tryClaim (p : HotSwapProgress) : Bool × HotSwapProgress :=
  match p.claim with
  | .pending => (true, { p with claim := .runner })
  | _ => (false, p)

def tryWithdraw (p : HotSwapProgress) : Bool × HotSwapProgress :=
  match p.claim with
  | .pending => (true, { p with claim := .withdrawn })
  | _ => (false, p)

/-- Take the sender, if it is still there, and send `outcome` through it. -/
def takeSenderAndSend (p : HotSwapProgress) (outcome : HotSwapOutcome) : HotSwapProgress :=
  if p.tx then { p with tx := false, sent := p.sent ++ [outcome] } else p

def tryComplete (p : HotSwapProgress) : HotSwapProgress :=
  match p.replacementAdopted, p.firstPostReplacementLocalOutcome with
  | some adoptedAt, some (outcomeAt, outcome) =>
    p.takeSenderAndSend (.ok ⟨adoptedAt, outcomeAt, outcome⟩)
  | _, _ => p

/-- Called after the replacement validated and initialised: publish its hash, mark the adoption. -/
def markReplacementAdopted (p : HotSwapProgress) (now : Nat) (hashes : PluginHashes) :
    HotSwapProgress × PluginHashes :=
  let (p, hashes) := match p.pluginHash with
    | some update =>
      ({ p with pluginHash := some { update with replaced := hashes update.nodeId } },
        Function.update hashes update.nodeId (some update.replacement))
    | none => (p, hashes)
  ({ p with replacementAdopted := p.replacementAdopted.or (some now) }.tryComplete, hashes)

def markFirstPostReplacementLocalOutcome (p : HotSwapProgress) (now : Nat)
    (outcome : FirstPostReplacementLocalOutcome) : HotSwapProgress :=
  { p with firstPostReplacementLocalOutcome :=
      p.firstPostReplacementLocalOutcome.or (some (now, outcome)) }.tryComplete

def reportInitFailed (p : HotSwapProgress) (message : String) : HotSwapProgress :=
  p.takeSenderAndSend (.error (.initFailed message))

def reportRolledBack (p : HotSwapProgress) (rollbackTimeNs : Nat) (reason : String) :
    HotSwapProgress :=
  p.takeSenderAndSend (.error (.rolledBack rollbackTimeNs reason))

/-- Put the replaced hash back, once. -/
def restoreReplacedPluginHash (p : HotSwapProgress) (hashes : PluginHashes) :
    HotSwapProgress × PluginHashes :=
  match p.pluginHash with
  | some update =>
    match update.replaced with
    | some replaced =>
      ({ p with pluginHash := some { update with replaced := none } },
        Function.update hashes update.nodeId (some replaced))
    | none => (p, hashes)
  | none => (p, hashes)

section Specs

variable (p : HotSwapProgress) (now : Nat) (hashes : PluginHashes)
  (outcome : FirstPostReplacementLocalOutcome) (value : HotSwapOutcome)

@[simp] theorem takeSenderAndSend_claim : (p.takeSenderAndSend value).claim = p.claim := by
  unfold takeSenderAndSend; split <;> rfl

@[simp] theorem takeSenderAndSend_pluginHash :
    (p.takeSenderAndSend value).pluginHash = p.pluginHash := by
  unfold takeSenderAndSend; split <;> rfl

@[simp] theorem takeSenderAndSend_adopted :
    (p.takeSenderAndSend value).replacementAdopted = p.replacementAdopted := by
  unfold takeSenderAndSend; split <;> rfl

@[simp] theorem tryComplete_claim : p.tryComplete.claim = p.claim := by
  unfold tryComplete; split <;> simp

@[simp] theorem tryComplete_pluginHash : p.tryComplete.pluginHash = p.pluginHash := by
  unfold tryComplete; split <;> simp

@[simp] theorem tryComplete_adopted :
    p.tryComplete.replacementAdopted = p.replacementAdopted := by
  unfold tryComplete; split <;> simp

@[simp] theorem markReplacementAdopted_claim :
    (p.markReplacementAdopted now hashes).1.claim = p.claim := by
  unfold markReplacementAdopted; cases p.pluginHash <;> simp

@[simp] theorem markReplacementAdopted_adopted :
    (p.markReplacementAdopted now hashes).1.replacementAdopted =
      p.replacementAdopted.or (some now) := by
  unfold markReplacementAdopted; cases p.pluginHash <;> simp

@[simp] theorem markFirstOutcome_claim :
    (p.markFirstPostReplacementLocalOutcome now outcome).claim = p.claim := by
  simp [markFirstPostReplacementLocalOutcome]

@[simp] theorem markFirstOutcome_pluginHash :
    (p.markFirstPostReplacementLocalOutcome now outcome).pluginHash = p.pluginHash := by
  simp [markFirstPostReplacementLocalOutcome]

@[simp] theorem markFirstOutcome_adopted :
    (p.markFirstPostReplacementLocalOutcome now outcome).replacementAdopted =
      p.replacementAdopted := by
  simp [markFirstPostReplacementLocalOutcome]

/-- Taking the sender leaves room for no second value. -/
def OneShot (p : HotSwapProgress) : Prop := if p.tx then p.sent = [] else p.sent.length ≤ 1

/-- Only an adopted replacement has reported success. -/
def SuccessAdopted (p : HotSwapProgress) : Prop :=
  ∀ report, HotSwapOutcome.ok report ∈ p.sent →
    p.replacementAdopted = some report.replacementAdoptedAt

variable {p}

theorem OneShot.length_le (h : p.OneShot) : p.sent.length ≤ 1 := by
  simp only [OneShot] at h
  split at h
  · simp [h]
  · exact h

theorem OneShot.takeSenderAndSend (h : p.OneShot) : (p.takeSenderAndSend value).OneShot := by
  simp only [HotSwapProgress.takeSenderAndSend]
  split
  · next htx =>
    simp only [OneShot, htx, if_true] at h
    simp [OneShot, h]
  · exact h

theorem OneShot.tryComplete (h : p.OneShot) : p.tryComplete.OneShot := by
  simp only [HotSwapProgress.tryComplete]
  split
  · exact h.takeSenderAndSend _
  · exact h

theorem SuccessAdopted.takeSenderAndSend (h : p.SuccessAdopted)
    (hv : ∀ report, value = .ok report →
      p.replacementAdopted = some report.replacementAdoptedAt) :
    (p.takeSenderAndSend value).SuccessAdopted := by
  simp only [HotSwapProgress.takeSenderAndSend]
  split
  · intro report hr
    rcases List.mem_append.mp hr with hr | hr
    · exact h report hr
    · exact hv report (List.mem_singleton.mp hr).symm
  · exact h

theorem SuccessAdopted.tryComplete (h : p.SuccessAdopted) : p.tryComplete.SuccessAdopted := by
  simp only [HotSwapProgress.tryComplete]
  split
  · next adoptedAt outcomeAt outcome ha _ =>
    refine h.takeSenderAndSend _ fun report hr => ?_
    rw [ha, ← HotSwapOutcome.ok.inj hr]
  · exact h

/-- Node and hash the handle keeps in the registry. -/
def tracks (p : HotSwapProgress) : Option (String × String) :=
  p.pluginHash.map fun update => (update.nodeId, update.replacement)

@[simp] theorem reportInitFailed_pluginHash (p : HotSwapProgress) (message : String) :
    (p.reportInitFailed message).pluginHash = p.pluginHash :=
  takeSenderAndSend_pluginHash ..

@[simp] theorem reportRolledBack_pluginHash (p : HotSwapProgress) (rollbackTimeNs : Nat)
    (reason : String) : (p.reportRolledBack rollbackTimeNs reason).pluginHash = p.pluginHash :=
  takeSenderAndSend_pluginHash ..

/-- An adoption publishes the tracked hash and keeps the one it replaced. -/
theorem markReplacementAdopted_some {p : HotSwapProgress} {update : PluginHashUpdate}
    (h : p.pluginHash = some update) (now : Nat) (hashes : PluginHashes) :
    (p.markReplacementAdopted now hashes).1.pluginHash =
        some { update with replaced := hashes update.nodeId } ∧
      (p.markReplacementAdopted now hashes).2 =
        Function.update hashes update.nodeId (some update.replacement) := by
  simp [markReplacementAdopted, h]

theorem markReplacementAdopted_none {p : HotSwapProgress} (h : p.pluginHash = none) (now : Nat)
    (hashes : PluginHashes) :
    (p.markReplacementAdopted now hashes).1.pluginHash = none ∧
      (p.markReplacementAdopted now hashes).2 = hashes := by
  simp [markReplacementAdopted, h]

@[simp] theorem markReplacementAdopted_tracks (p : HotSwapProgress) (now : Nat)
    (hashes : PluginHashes) : (p.markReplacementAdopted now hashes).1.tracks = p.tracks := by
  cases h : p.pluginHash with
  | none => simp [tracks, (markReplacementAdopted_none h now hashes).1, h]
  | some update => simp [tracks, (markReplacementAdopted_some h now hashes).1, h]

theorem restoreReplacedPluginHash_some {p : HotSwapProgress} {update : PluginHashUpdate}
    {replaced : String} (h : p.pluginHash = some update) (hr : update.replaced = some replaced)
    (hashes : PluginHashes) : (p.restoreReplacedPluginHash hashes).2 =
      Function.update hashes update.nodeId (some replaced) := by
  simp [restoreReplacedPluginHash, h, hr]

@[simp] theorem restoreReplacedPluginHash_tracks (p : HotSwapProgress) (hashes : PluginHashes) :
    (p.restoreReplacedPluginHash hashes).1.tracks = p.tracks := by
  simp only [restoreReplacedPluginHash]
  split
  · next h =>
    split
    · simp [tracks, h]
    · rfl
  · rfl

/-- Reports of the runner: claim, adoption and replacement hash stay, at most one value is sent, and
success is only sent after the adoption. -/
structure Follows (p p' : HotSwapProgress) : Prop where
  claim : p'.claim = p.claim
  adopted : p'.replacementAdopted = p.replacementAdopted
  oneShot : p.OneShot → p'.OneShot
  success : p.SuccessAdopted → p'.SuccessAdopted

theorem Follows.refl (p : HotSwapProgress) : p.Follows p := ⟨rfl, rfl, id, id⟩

theorem Follows.trans {p p' p'' : HotSwapProgress} (h : p.Follows p') (h' : p'.Follows p'') :
    p.Follows p'' :=
  ⟨h'.claim.trans h.claim, h'.adopted.trans h.adopted, h'.oneShot ∘ h.oneShot,
    h'.success ∘ h.success⟩

theorem takeSenderAndSend_error_follows (p : HotSwapProgress) (error : HotSwapError) :
    p.Follows (p.takeSenderAndSend (.error error)) :=
  ⟨by simp, by simp, fun h => h.takeSenderAndSend _, fun h => h.takeSenderAndSend _ nofun⟩

theorem reportInitFailed_follows (p : HotSwapProgress) (message : String) :
    p.Follows (p.reportInitFailed message) :=
  p.takeSenderAndSend_error_follows _

theorem reportRolledBack_follows (p : HotSwapProgress) (rollbackTimeNs : Nat) (reason : String) :
    p.Follows (p.reportRolledBack rollbackTimeNs reason) :=
  p.takeSenderAndSend_error_follows _

theorem markFirstOutcome_follows (p : HotSwapProgress) (now : Nat)
    (outcome : FirstPostReplacementLocalOutcome) :
    p.Follows (p.markFirstPostReplacementLocalOutcome now outcome) :=
  ⟨by simp, by simp, fun h => OneShot.tryComplete h, fun h => SuccessAdopted.tryComplete h⟩

theorem restoreReplacedPluginHash_follows (p : HotSwapProgress) (hashes : PluginHashes) :
    p.Follows (p.restoreReplacedPluginHash hashes).1 := by
  simp only [restoreReplacedPluginHash]
  split
  · split <;> exact ⟨rfl, rfl, id, id⟩
  · exact .refl p

theorem markReplacementAdopted_oneShot {p : HotSwapProgress} (h : p.OneShot) (now : Nat)
    (hashes : PluginHashes) : (p.markReplacementAdopted now hashes).1.OneShot := by
  simp only [markReplacementAdopted]
  cases p.pluginHash <;> exact OneShot.tryComplete h

/-- Before the adoption no success was sent, so the adoption cannot contradict one. -/
theorem markReplacementAdopted_success {p : HotSwapProgress} (h : p.SuccessAdopted)
    (hn : p.replacementAdopted = none) (now : Nat) (hashes : PluginHashes) :
    (p.markReplacementAdopted now hashes).1.SuccessAdopted := by
  have hs : ∀ report, HotSwapOutcome.ok report ∉ p.sent := fun report hr => by
    simpa [hn] using h report hr
  simp only [markReplacementAdopted]
  cases p.pluginHash <;> exact SuccessAdopted.tryComplete fun report hr => absurd hr (hs report)

end Specs

end HotSwapProgress

/-- The canary bounds, a `u32` and a `u64`. -/
structure HotSwapConfig where
  canarySuccessCount : Nat := 32
  canaryWindowMs : Nat := 10000
  successCount_le : canarySuccessCount ≤ u32Max := by decide
  windowMs_le : canaryWindowMs ≤ u64Max := by decide
  deriving DecidableEq, Repr

namespace HotSwapConfig

theorem standard_successCount_le : 32 ≤ u32Max := by decide

theorem standard_windowMs_le : 10000 ≤ u64Max := by decide

/-- The bounds where none are configured. -/
def standard : HotSwapConfig where
  successCount_le := standard_successCount_le
  windowMs_le := standard_windowMs_le

end HotSwapConfig

structure CanaryCounters where
  successCount : Nat
  windowStart : Nat
  config : HotSwapConfig
  deriving DecidableEq, Repr

/-- Whole milliseconds since `start`, capped at `u64`. -/
def elapsedMsSaturating (start now : Nat) : Nat := min ((now - start) / nsPerMs) u64Max

namespace CanaryCounters

def new (config : HotSwapConfig) (now : Nat) : CanaryCounters := ⟨0, now, config⟩

def windowExpired (c : CanaryCounters) (now : Nat) : Bool :=
  decide (c.config.canarySuccessCount ≤ c.successCount) ||
    decide (c.config.canaryWindowMs ≤ elapsedMsSaturating c.windowStart now)

def recordSuccess (c : CanaryCounters) : CanaryCounters :=
  { c with successCount := min (c.successCount+1) u32Max }

end CanaryCounters

/-- Rollback state kept between a hot swap and the end of its canary window; `swap` names the
request whose progress handle it holds. -/
structure TransformCanaryState where
  snapshot : Pre
  counters : CanaryCounters
  swap : Nat
  deriving DecidableEq, Repr

def TransformCanaryState.new (pre : Pre) (config : HotSwapConfig) (now swap : Nat) :
    TransformCanaryState := ⟨pre, .new config now, swap⟩

def TransformCanaryState.windowExpired (c : TransformCanaryState) (now : Nat) : Bool :=
  c.counters.windowExpired now

def TransformCanaryState.recordSuccess (c : TransformCanaryState) : TransformCanaryState :=
  { c with counters := c.counters.recordSuccess }

end Wafer
