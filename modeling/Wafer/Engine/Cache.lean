import Mathlib.Logic.Function.Basic
import Wafer.Lib.Execution
import Wafer.Lib.HashMap

/-!
# The component cache

`ComponentCache::get_or_compile` called from any number of threads. A call holds
the memory lock for one transition at a time, and other calls come in between; so
they do while it reads and writes the artifact of its hash. A write is not atomic:
until it is done, and after one that failed or was mixed with another, the file
has any content. Each hash has its own artifact path.

## Main definitions

- `Wasmtime` — what the cache asks of `wasmtime` and `blake3`
- `ArtifactDir` — the files of the disk tier
- `ComponentCache.step` — the calls

## Main results

- `ComponentCache.one_component` — all calls for one hash answer one component
- `ComponentCache.answers_compiled` — which is compiled from bytes of that hash
-/

namespace Wafer

open Lib

structure Wasmtime (Component Digest : Type) where
  hash : List UInt8 → Digest
  /-- `Component::new` -/
  compile : List UInt8 → Option Component
  serialize : Component → Option (List UInt8)
  deserialize : List UInt8 → Option Component

inductive CacheOutcome
  | memoryHit
  | diskHit
  | compiled
  deriving DecidableEq, Repr

/-- An `Arc`, told from others by where it was allocated. -/
structure Arc (α : Type) where
  address : ℕ
  value : α
  deriving DecidableEq, Repr

structure ArtifactFile where
  /-- `none` while it has any content -/
  content : Option (List UInt8)
  writers : ℕ := 0
  /-- two writes have met in it -/
  mixed : Bool := false
  deriving DecidableEq, Repr

namespace ArtifactFile

/-- A writer has opened and truncated the file. -/
def opened (file : ArtifactFile) : ArtifactFile where
  content := none
  writers := file.writers + 1
  mixed := 0 < file.writers

/-- A writer is done, or has given up. -/
def closed (file : ArtifactFile) (bytes : List UInt8) (complete : Bool) : ArtifactFile where
  content := if complete ∧ file.writers = 1 ∧ file.mixed = false then some bytes else none
  writers := file.writers - 1
  mixed := file.mixed

end ArtifactFile

/-- The files of the disk tier, and which of them is the artifact of a hash. -/
structure ArtifactDir (Digest : Type) where
  path : Digest → Option ℕ
  files : ℕ → ArtifactFile
  next : ℕ
  path_lt : ∀ h n, path h = some n → n < next
  apart : ∀ h h' n, path h = some n → path h' = some n → h = h'

inductive CachePc (Component : Type)
  | lookup
  | reading
  | loading (bytes : List UInt8)
  | evicting
  | compiling
  | saving (component : Component)
  | writing (component : Component) (bytes : List UInt8) (file : ℕ)
  | inserting (component : Component) (outcome : CacheOutcome)
  /-- `none`: `WaferError::ComponentLoad` -/
  | returned (result : Option (Arc Component × CacheOutcome))

structure CacheCall (Component : Type) where
  wasmBytes : List UInt8
  pc : CachePc Component := .lookup

structure ComponentCache (Component Digest : Type) where
  memory : HashMap Digest (Arc Component)
  nextArc : ℕ := 0
  /-- there is a `disk_dir` -/
  disk : Bool
  dir : ArtifactDir Digest
  calls : ℕ → Option (CacheCall Component)

inductive CacheEvent
  | call (i : ℕ) (wasmBytes : List UInt8)
  | lookup (i : ℕ)
  /-- `fs::read`, with what it answers -/
  | read (i : ℕ) (found : Option (List UInt8))
  | load (i : ℕ)
  /-- `fs::remove_file` -/
  | evict (i : ℕ) (removed : Bool)
  | compile (i : ℕ)
  /-- `create_dir_all`, and `fs::write` up to the first byte -/
  | openFile (i : ℕ) (opened : Bool)
  /-- `fs::write` to its end -/
  | write (i : ℕ) (complete : Bool)
  | insert (i : ℕ)
  deriving DecidableEq, Repr

namespace ArtifactDir

variable {Digest : Type} [DecidableEq Digest]

def remove (dir : ArtifactDir Digest) (h : Digest) : ArtifactDir Digest where
  path := Function.update dir.path h none
  files := dir.files
  next := dir.next
  path_lt := by
    intro x n hx
    by_cases hxh : x = h
    · subst hxh
      rw [Function.update_self] at hx
      cases hx
    · rw [Function.update_of_ne hxh] at hx
      exact dir.path_lt x n hx
  apart := by
    intro x y n hx hy
    by_cases hxh : x = h
    · subst hxh
      rw [Function.update_self] at hx
      cases hx
    · by_cases hyh : y = h
      · subst hyh
        rw [Function.update_self] at hy
        cases hy
      · rw [Function.update_of_ne hxh] at hx
        rw [Function.update_of_ne hyh] at hy
        exact dir.apart x y n hx hy

/-- A file that opening for writing creates. -/
def create (dir : ArtifactDir Digest) (h : Digest) : ArtifactDir Digest where
  path := Function.update dir.path h (some dir.next)
  files := Function.update dir.files dir.next (ArtifactFile.opened ⟨none, 0, false⟩)
  next := dir.next + 1
  path_lt := by
    intro x n hx
    by_cases hxh : x = h
    · subst hxh
      rw [Function.update_self] at hx
      obtain rfl := Option.some.inj hx
      exact Nat.lt_succ_self _
    · rw [Function.update_of_ne hxh] at hx
      exact Nat.lt_succ_of_lt (dir.path_lt x n hx)
  apart := by
    have hold : ∀ x, x ≠ h → Function.update dir.path h (some dir.next) x ≠ some dir.next := by
      intro x hxh hx
      rw [Function.update_of_ne hxh] at hx
      exact Nat.lt_irrefl _ (dir.path_lt x _ hx)
    intro x y n hx hy
    by_cases hxh : x = h
    · by_cases hyh : y = h
      · exact hxh.trans hyh.symm
      · rw [hxh, Function.update_self] at hx
        exact absurd (hy.trans hx.symm) (hold y hyh)
    · by_cases hyh : y = h
      · rw [hyh, Function.update_self] at hy
        exact absurd (hx.trans hy.symm) (hold x hxh)
      · rw [Function.update_of_ne hxh] at hx
        rw [Function.update_of_ne hyh] at hy
        exact dir.apart x y n hx hy

/-- The file changes, and no path. -/
def setFile (dir : ArtifactDir Digest) (n : ℕ) (file : ArtifactFile) : ArtifactDir Digest :=
  { dir with files := Function.update dir.files n file }

/-- `OpenOptions` of `fs::write`: the file that is opened, and the files behind it. -/
def openFile (dir : ArtifactDir Digest) (h : Digest) : ℕ × ArtifactDir Digest :=
  match dir.path h with
  | some n => (n, dir.setFile n (dir.files n).opened)
  | none => (dir.next, dir.create h)

/-- What `fs::read` may answer: it may fail, and a file that is not whole has any content. -/
def Reads (dir : ArtifactDir Digest) (h : Digest) : Option (List UInt8) → Bool
  | none => true
  | some bytes =>
    match dir.path h with
    | none => false
    | some n => (dir.files n).content.all (· == bytes)

end ArtifactDir

namespace ComponentCache

variable {Component Digest : Type}

def setCall (s : ComponentCache Component Digest) (i : ℕ) (wasmBytes : List UInt8)
    (pc : CachePc Component) : ComponentCache Component Digest :=
  { s with calls := Function.update s.calls i (some ⟨wasmBytes, pc⟩) }

theorem setCall_calls (s : ComponentCache Component Digest) (i j : ℕ) (wasmBytes : List UInt8)
    (pc : CachePc Component) : (s.setCall i wasmBytes pc).calls j =
      if j = i then some ⟨wasmBytes, pc⟩ else s.calls j := by
  unfold setCall
  by_cases hj : j = i
  · rw [if_pos hj, hj]
    exact Function.update_self ..
  · rw [if_neg hj]
    exact Function.update_of_ne hj ..

variable [DecidableEq Digest]

/-- `ComponentCache::new` over the files that are there. -/
def new (disk : Bool) (dir : ArtifactDir Digest) : ComponentCache Component Digest where
  memory := .empty
  disk := disk
  dir := dir
  calls := fun _ => none

/-- The first lookup in the memory tier. -/
def lookup (w : Wasmtime Component Digest) (s : ComponentCache Component Digest)
    (wasmBytes : List UInt8) : CachePc Component :=
  match s.memory.get? (w.hash wasmBytes) with
  | some arc => .returned (some (arc, .memoryHit))
  | none => if s.disk then .reading else .compiling

/-- `entry(hash).or_insert_with(Arc::new)`: the component that is in the memory tier from now on,
and the cache behind it. -/
def entry (w : Wasmtime Component Digest) (s : ComponentCache Component Digest)
    (wasmBytes : List UInt8) (component : Component) :
    Arc Component × ComponentCache Component Digest :=
  match s.memory.get? (w.hash wasmBytes) with
  | some arc => (arc, s)
  | none =>
    let arc : Arc Component := ⟨s.nextArc, component⟩
    (arc, { s with memory := s.memory.insert (w.hash wasmBytes) arc, nextArc := s.nextArc + 1 })

/-- A step of the call, from where it is. -/
def stepCall (w : Wasmtime Component Digest) (s : ComponentCache Component Digest) (i : ℕ)
    (wasmBytes : List UInt8) (pc : CachePc Component) (e : CacheEvent) :
    Option (ComponentCache Component Digest) :=
  let h := w.hash wasmBytes
  match pc, e with
  | .lookup, .lookup _ => some (s.setCall i wasmBytes (s.lookup w wasmBytes))
  | .reading, .read _ found =>
    if s.dir.Reads h found then
      match found with
      | some bytes => some (s.setCall i wasmBytes (.loading bytes))
      | none => some (s.setCall i wasmBytes .compiling)
    else none
  | .loading bytes, .load _ =>
    match w.deserialize bytes with
    | some component => some (s.setCall i wasmBytes (.inserting component .diskHit))
    | none => some (s.setCall i wasmBytes .evicting)
  | .evicting, .evict _ removed =>
    let dir := if removed then s.dir.remove h else s.dir
    some ({ s with dir := dir }.setCall i wasmBytes .compiling)
  | .compiling, .compile _ =>
    match w.compile wasmBytes with
    | none => some (s.setCall i wasmBytes (.returned none))
    | some component =>
      if s.disk then some (s.setCall i wasmBytes (.saving component))
      else some (s.setCall i wasmBytes (.inserting component .compiled))
  | .saving component, .openFile _ opened =>
    match w.serialize component, opened with
    | some bytes, true =>
      let (n, dir) := s.dir.openFile h
      some ({ s with dir := dir }.setCall i wasmBytes (.writing component bytes n))
    | _, _ => some (s.setCall i wasmBytes (.inserting component .compiled))
  | .writing component bytes n, .write _ complete =>
    let dir := s.dir.setFile n ((s.dir.files n).closed bytes complete)
    some ({ s with dir := dir }.setCall i wasmBytes (.inserting component .compiled))
  | .inserting component outcome, .insert _ =>
    let (arc, s) := s.entry w wasmBytes component
    some (s.setCall i wasmBytes (.returned (some (arc, outcome))))
  | _, _ => none

end ComponentCache

def CacheEvent.caller : CacheEvent → ℕ
  | call i _ | lookup i | read i _ | load i | evict i _ | compile i | openFile i _ | write i _
  | insert i => i

namespace ComponentCache

variable {Component Digest : Type} [DecidableEq Digest]

def step (w : Wasmtime Component Digest) (s : ComponentCache Component Digest) (e : CacheEvent) :
    Option (ComponentCache Component Digest) :=
  match s.calls e.caller, e with
  | none, .call i wasmBytes => some (s.setCall i wasmBytes .lookup)
  | some ⟨wasmBytes, pc⟩, e => s.stepCall w e.caller wasmBytes pc e
  | none, _ => none

def run (w : Wasmtime Component Digest) (disk : Bool) (dir : ArtifactDir Digest)
    (events : List CacheEvent) : Option (ComponentCache Component Digest) :=
  Lib.exec (step w) (new disk dir) events

variable {w : Wasmtime Component Digest} {s s' t : ComponentCache Component Digest} {i : ℕ}
  {wasmBytes : List UInt8} {pc pc' : CachePc Component} {e : CacheEvent}

/-- The steps of a call for these bytes, with the cache behind the step. -/
inductive Moves (w : Wasmtime Component Digest) (s : ComponentCache Component Digest)
    (wasmBytes : List UInt8) (e : CacheEvent) :
    CachePc Component → CachePc Component → ComponentCache Component Digest → Prop
  | hit (arc : Arc Component) (h : s.memory.get? (w.hash wasmBytes) = some arc) :
    Moves w s wasmBytes e .lookup (.returned (some (arc, .memoryHit))) s
  | missOnDisk : Moves w s wasmBytes e .lookup .reading s
  | miss : Moves w s wasmBytes e .lookup .compiling s
  | read (bytes : List UInt8) (he : e = .read e.caller (some bytes))
    (h : s.dir.Reads (w.hash wasmBytes) (some bytes) = true) :
    Moves w s wasmBytes e .reading (.loading bytes) s
  | notRead : Moves w s wasmBytes e .reading .compiling s
  | load (bytes : List UInt8) (component : Component) (h : w.deserialize bytes = some component) :
    Moves w s wasmBytes e (.loading bytes) (.inserting component .diskHit) s
  | stale (bytes : List UInt8) : Moves w s wasmBytes e (.loading bytes) .evicting s
  | evict : Moves w s wasmBytes e .evicting .compiling
      { s with dir := s.dir.remove (w.hash wasmBytes) }
  | notEvicted : Moves w s wasmBytes e .evicting .compiling s
  | fail (h : w.compile wasmBytes = none) : Moves w s wasmBytes e .compiling (.returned none) s
  | compileForDisk (component : Component) (h : w.compile wasmBytes = some component) :
    Moves w s wasmBytes e .compiling (.saving component) s
  | compile (component : Component) (h : w.compile wasmBytes = some component) :
    Moves w s wasmBytes e .compiling (.inserting component .compiled) s
  | openFile (component : Component) (bytes : List UInt8) (h : w.serialize component = some bytes) :
    Moves w s wasmBytes e (.saving component)
      (.writing component bytes (s.dir.openFile (w.hash wasmBytes)).1)
      { s with dir := (s.dir.openFile (w.hash wasmBytes)).2 }
  | notSaved (component : Component) :
    Moves w s wasmBytes e (.saving component) (.inserting component .compiled) s
  | write (component : Component) (bytes : List UInt8) (n : ℕ) (complete : Bool) :
    Moves w s wasmBytes e (.writing component bytes n) (.inserting component .compiled)
      { s with dir := s.dir.setFile n ((s.dir.files n).closed bytes complete) }
  | insert (component : Component) (outcome : CacheOutcome) :
    Moves w s wasmBytes e (.inserting component outcome)
      (.returned (some ((s.entry w wasmBytes component).1, outcome)))
      (s.entry w wasmBytes component).2

theorem stepCall_moves (h : s.stepCall w e.caller wasmBytes pc e = some s') :
    ∃ pc' t, Moves w s wasmBytes e pc pc' t ∧ s' = t.setCall e.caller wasmBytes pc' := by
  unfold stepCall at h
  cases pc with
  | lookup =>
    cases e <;> try cases h
    refine ⟨_, s, ?_, rfl⟩
    unfold ComponentCache.lookup
    split
    · next arc harc => exact .hit arc harc
    · split_ifs
      · exact .missOnDisk
      · exact .miss
  | reading =>
    cases e with
    | read i found =>
      simp only at h
      split_ifs at h with hr
      cases found with
      | some bytes => exact ⟨_, s, .read bytes rfl hr, (Option.some.inj h).symm⟩
      | none => exact ⟨_, s, .notRead, (Option.some.inj h).symm⟩
    | _ => cases h
  | loading bytes =>
    cases e with
    | load i =>
      simp only at h
      split at h
      · next component hd => exact ⟨_, s, .load bytes component hd, (Option.some.inj h).symm⟩
      · exact ⟨_, s, .stale bytes, (Option.some.inj h).symm⟩
    | _ => cases h
  | evicting =>
    cases e with
    | evict i removed =>
      cases removed with
      | true => exact ⟨_, _, .evict, (Option.some.inj h).symm⟩
      | false => exact ⟨_, _, .notEvicted, (Option.some.inj h).symm⟩
    | _ => cases h
  | compiling =>
    cases e with
    | compile i =>
      simp only at h
      split at h
      · next hc => exact ⟨_, s, .fail hc, (Option.some.inj h).symm⟩
      · next component hc =>
        split_ifs at h
        · exact ⟨_, s, .compileForDisk component hc, (Option.some.inj h).symm⟩
        · exact ⟨_, s, .compile component hc, (Option.some.inj h).symm⟩
    | _ => cases h
  | saving component =>
    cases e with
    | openFile i opened =>
      simp only at h
      split at h
      · next bytes hs => exact ⟨_, _, .openFile component bytes hs, (Option.some.inj h).symm⟩
      · exact ⟨_, s, .notSaved component, (Option.some.inj h).symm⟩
    | _ => cases h
  | writing component bytes n =>
    cases e with
    | write i complete => exact ⟨_, _, .write component bytes n complete, (Option.some.inj h).symm⟩
    | _ => cases h
  | inserting component outcome =>
    cases e with
    | insert i => exact ⟨_, _, .insert component outcome, (Option.some.inj h).symm⟩
    | _ => cases h
  | returned result => cases e <;> cases h

/-- A step is the beginning of a call or moves one. -/
theorem step_cases (h : step w s e = some s') :
    (s.calls e.caller = none ∧ ∃ wasmBytes, s' = s.setCall e.caller wasmBytes .lookup) ∨
      ∃ wasmBytes pc pc' t, s.calls e.caller = some ⟨wasmBytes, pc⟩ ∧
        Moves w s wasmBytes e pc pc' t ∧ s' = t.setCall e.caller wasmBytes pc' := by
  unfold step at h
  split at h
  · next hcall => exact .inl ⟨hcall, _, (Option.some.inj h).symm⟩
  · next _ _ wasmBytes pc hcall =>
    obtain ⟨pc', t, hm, rfl⟩ := stepCall_moves h
    exact .inr ⟨wasmBytes, pc, pc', t, hcall, hm, rfl⟩
  · cases h

/-- Only the files and the memory tier change under a call. -/
theorem Moves.calls (hm : Moves w s wasmBytes e pc pc' t) : t.calls = s.calls := by
  cases hm with
  | insert component outcome =>
    unfold entry
    split <;> rfl
  | _ => rfl

/-! ## One component for each hash -/

/-- What `entry` answers is in the memory tier from now on, and nothing in it is replaced. -/
theorem entry_spec (w : Wasmtime Component Digest) (s : ComponentCache Component Digest)
    (wasmBytes : List UInt8) (component : Component) :
    (s.entry w wasmBytes component).2.memory.get? (w.hash wasmBytes) =
        some (s.entry w wasmBytes component).1 ∧
      (∀ h arc, s.memory.get? h = some arc →
        (s.entry w wasmBytes component).2.memory.get? h = some arc) ∧
      (∀ h arc, (s.entry w wasmBytes component).2.memory.get? h = some arc →
        s.memory.get? h = some arc ∨ h = w.hash wasmBytes ∧ arc = ⟨s.nextArc, component⟩ ∧
          (s.entry w wasmBytes component).2.nextArc = s.nextArc + 1) ∧
      s.nextArc ≤ (s.entry w wasmBytes component).2.nextArc := by
  unfold entry
  split
  · next arc harc => exact ⟨harc, fun _ _ => id, fun _ _ => .inl, Nat.le_refl _⟩
  · next hnone =>
    refine ⟨by simp, fun h arc ha => ?_, fun h arc ha => ?_, Nat.le_succ _⟩
    · have hne : h ≠ w.hash wasmBytes := by
        rintro rfl
        cases hnone.symm.trans ha
      simpa only [HashMap.get?_insert, if_neg hne] using ha
    · rw [HashMap.get?_insert] at ha
      split_ifs at ha with hh
      · exact .inr ⟨hh, (Option.some.inj ha).symm, rfl⟩
      · exact .inl ha

/-- What a call has answered is in the memory tier, and no two hashes share a component there. -/
structure Coherent (w : Wasmtime Component Digest) (s : ComponentCache Component Digest) :
    Prop where
  answered : ∀ i wasmBytes arc outcome,
    s.calls i = some ⟨wasmBytes, .returned (some (arc, outcome))⟩ →
      s.memory.get? (w.hash wasmBytes) = some arc
  fresh : ∀ h arc, s.memory.get? h = some arc → arc.address < s.nextArc
  apart : ∀ h h' arc arc', s.memory.get? h = some arc → s.memory.get? h' = some arc' →
    arc.address = arc'.address → h = h'

theorem Coherent.new (w : Wasmtime Component Digest) (disk : Bool) (dir : ArtifactDir Digest) :
    Coherent w (new disk dir) where
  answered := by rintro i wasmBytes arc outcome ⟨⟩
  fresh := by rintro h arc ⟨⟩
  apart := by rintro h h' arc arc' ⟨⟩

/-- A step that leaves the memory tier alone, and whose answer is in it. -/
theorem Coherent.move (hc : Coherent w s) (hmem : t.memory = s.memory)
    (hnext : t.nextArc = s.nextArc) (hcalls : t.calls = s.calls) (ha : ∀ arc outcome, pc' = .returned (some (arc, outcome)) →
      s.memory.get? (w.hash wasmBytes) = some arc) : Coherent w (t.setCall i wasmBytes pc') where
  answered j bytes arc outcome hj := by
    show t.memory.get? _ = _
    rw [hmem]
    rw [setCall_calls] at hj
    split_ifs at hj
    · obtain ⟨rfl, rfl⟩ := CacheCall.mk.inj (Option.some.inj hj)
      exact ha arc outcome rfl
    · exact hc.answered j bytes arc outcome (by rw [← hcalls]; exact hj)
  fresh h arc ha := by
    show _ < t.nextArc
    rw [hnext]
    exact hc.fresh h arc (hmem ▸ ha)
  apart h h' arc arc' ha ha' := hc.apart h h' arc arc' (hmem ▸ ha) (hmem ▸ ha')

theorem Coherent.insert (hc : Coherent w s) (component : Component) (outcome : CacheOutcome) :
    Coherent w ((s.entry w wasmBytes component).2.setCall i wasmBytes
      (.returned (some ((s.entry w wasmBytes component).1, outcome)))) := by
  obtain ⟨hself, hkeep, hnew, hle⟩ := entry_spec w s wasmBytes component
  have hcalls : (s.entry w wasmBytes component).2.calls = s.calls :=
    Moves.calls (e := .insert i) (.insert component outcome)
  refine ⟨?_, ?_, ?_⟩
  · intro j bytes arc o hj
    rw [setCall_calls] at hj
    split_ifs at hj
    · obtain ⟨rfl, hr⟩ := CacheCall.mk.inj (Option.some.inj hj)
      obtain ⟨rfl, -⟩ := Prod.mk.inj (Option.some.inj (CachePc.returned.inj hr))
      exact hself
    · rw [hcalls] at hj
      exact hkeep _ _ (hc.answered j bytes arc o hj)
  · intro h arc ha
    obtain ha | ⟨rfl, rfl, hn⟩ := hnew h arc ha
    · exact Nat.lt_of_lt_of_le (hc.fresh h arc ha) hle
    · exact Nat.lt_of_lt_of_eq (Nat.lt_succ_self _) hn.symm
  · intro h h' arc arc' ha ha' heq
    obtain ha | ⟨rfl, rfl, -⟩ := hnew h arc ha
    · obtain ha' | ⟨rfl, rfl, -⟩ := hnew h' arc' ha'
      · exact hc.apart h h' arc arc' ha ha' heq
      · exact absurd heq (Nat.ne_of_lt (hc.fresh h arc ha))
    · obtain ha' | ⟨rfl, rfl, -⟩ := hnew h' arc' ha'
      · exact absurd heq.symm (Nat.ne_of_lt (hc.fresh h' arc' ha'))
      · rfl

theorem Coherent.step (hc : Coherent w s) (h : ComponentCache.step w s e = some s') :
    Coherent w s' := by
  obtain ⟨hcall, wasmBytes, rfl⟩ | ⟨wasmBytes, pc, pc', t, hcall, hm, rfl⟩ := step_cases h
  · exact hc.move rfl rfl rfl (by rintro arc outcome ⟨⟩)
  · cases hm with
    | insert component outcome => exact hc.insert component outcome
    | hit arc harc =>
      refine hc.move rfl rfl rfl ?_
      rintro _ _ ⟨⟩
      exact harc
    | _ => exact hc.move rfl rfl rfl (by rintro arc outcome ⟨⟩)

theorem coherent {disk : Bool} {dir : ArtifactDir Digest} {events : List CacheEvent}
    (h : run w disk dir events = some s) : Coherent w s :=
  Lib.exec_invariant (fun _ _ _ hc hs => hc.step hs) h (.new w disk dir)

/-- In every interleaving, whatever the disk does: two calls that have answered a component answer
the same one, at the same address, if and only if their bytes have the same hash; and it is what the
memory tier holds. -/
theorem one_component {disk : Bool} {dir : ArtifactDir Digest} {events : List CacheEvent}
    (h : run w disk dir events = some s) {i j : ℕ} {a b : List UInt8} {x y : Arc Component}
    {o o' : CacheOutcome} (hi : s.calls i = some ⟨a, .returned (some (x, o))⟩)
    (hj : s.calls j = some ⟨b, .returned (some (y, o'))⟩) :
    (x = y ↔ w.hash a = w.hash b) ∧ (x.address = y.address ↔ x = y) ∧
      s.memory.get? (w.hash a) = some x := by
  have hc := coherent h
  have hx := hc.answered i a x o hi
  have hy := hc.answered j b y o' hj
  have hsame : w.hash a = w.hash b → x = y := by
    intro hab
    rw [hab, hy] at hx
    exact (Option.some.inj hx).symm
  refine ⟨⟨?_, hsame⟩, ⟨fun ha => hsame (hc.apart _ _ x y hx hy ha), congrArg _⟩, hx⟩
  rintro rfl
  exact hc.apart _ _ x x hx hy rfl

/-- Three calls for one plugin. -/
def wasmtimeSample : Wasmtime (List UInt8) (List UInt8) where
  hash := id
  compile bytes := if bytes = [] then none else some bytes
  serialize component := some (1 :: component)
  deserialize
    | 1 :: component => some component
    | _ => none

def emptyDir : ArtifactDir (List UInt8) where
  path := fun _ => none
  files := fun _ => ⟨none, 0, false⟩
  next := 0
  path_lt := by rintro h n ⟨⟩
  apart := by rintro h h' n ⟨⟩

/-- The second call reads the artifact while the first one writes it, and removes it. -/
def racingCalls : List CacheEvent :=
  [.call 0 [5], .lookup 0, .read 0 none, .compile 0, .openFile 0 true, .call 1 [5], .lookup 1,
    .read 1 (some []), .load 1, .write 0 true, .insert 0, .evict 1 true, .compile 1,
    .openFile 1 true, .write 1 true, .insert 1]

theorem racingCalls_end : ∃ s x y, run wasmtimeSample true emptyDir racingCalls = some s ∧
    s.calls 0 = some ⟨[5], .returned (some (x, .compiled))⟩ ∧
      s.calls 1 = some ⟨[5], .returned (some (y, .compiled))⟩ :=
  ⟨_, _, _, rfl, rfl, rfl⟩

theorem one_component_racing : ∃ s x y, run wasmtimeSample true emptyDir racingCalls = some s ∧
    s.calls 0 = some ⟨[5], .returned (some (x, .compiled))⟩ ∧
      s.calls 1 = some ⟨[5], .returned (some (y, .compiled))⟩ ∧ x = y := by
  obtain ⟨s, x, y, h, hx, hy⟩ := racingCalls_end
  exact ⟨s, x, y, h, hx, hy, (one_component h hx hy).1.mpr rfl⟩

end ComponentCache

/-! ## What the component is compiled from -/

/-- The component is what `Component::new` makes of bytes with this hash. -/
def Wasmtime.Compiles {Component Digest : Type} (w : Wasmtime Component Digest) (h : Digest)
    (component : Component) : Prop :=
  ∃ wasmBytes, w.hash wasmBytes = h ∧ w.compile wasmBytes = some component

namespace ArtifactDir

variable {Component Digest : Type} {w : Wasmtime Component Digest}
  {dir dir' : ArtifactDir Digest} {h : Digest} {n : ℕ}

/-- What a whole artifact is accepted as is compiled from bytes with its hash. -/
def Trusted (w : Wasmtime Component Digest) (dir : ArtifactDir Digest) : Prop :=
  ∀ h n bytes component, dir.path h = some n → (dir.files n).content = some bytes →
    w.deserialize bytes = some component → w.Compiles h component

/-- A file no other hash may come to. -/
structure Owned (dir : ArtifactDir Digest) (h : Digest) (n : ℕ) : Prop where
  lt : n < dir.next
  path : ∀ x, dir.path x = some n → x = h

/-- Paths lead to the files they led to, or to new ones. -/
structure Grows (dir dir' : ArtifactDir Digest) : Prop where
  next : dir.next ≤ dir'.next
  path : ∀ x n, dir'.path x = some n → n < dir.next → dir.path x = some n

theorem Grows.refl (dir : ArtifactDir Digest) : dir.Grows dir := ⟨Nat.le_refl _, fun _ _ hx _ => hx⟩

theorem Owned.grows (ho : dir.Owned h n) (hg : dir.Grows dir') : dir'.Owned h n :=
  ⟨Nat.lt_of_lt_of_le ho.lt hg.next, fun x hx => ho.path x (hg.path x n hx ho.lt)⟩

theorem setFile_files (dir : ArtifactDir Digest) (n m : ℕ) (file : ArtifactFile) :
    (dir.setFile n file).files m = if m = n then file else dir.files m := by
  by_cases hm : m = n
  · rw [if_pos hm, hm]
    exact Function.update_self ..
  · rw [if_neg hm]
    exact Function.update_of_ne hm ..

theorem setFile_grows (dir : ArtifactDir Digest) (n : ℕ) (file : ArtifactFile) :
    dir.Grows (dir.setFile n file) := ⟨Nat.le_refl _, fun _ _ hx _ => hx⟩

variable [DecidableEq Digest]

theorem remove_path {x : Digest} (hx : (dir.remove h).path x = some n) : dir.path x = some n := by
  have hxh : x ≠ h := by
    rintro rfl
    have hnone : (dir.remove x).path x = none := Function.update_self ..
    cases hx.symm.trans hnone
  exact (Function.update_of_ne hxh ..).symm.trans hx

theorem remove_grows (dir : ArtifactDir Digest) (h : Digest) : dir.Grows (dir.remove h) :=
  ⟨Nat.le_refl _, fun _ _ hx _ => remove_path hx⟩

theorem Trusted.remove (ht : dir.Trusted w) (h : Digest) : (dir.remove h).Trusted w :=
  fun x n bytes component hx => ht x n bytes component (remove_path hx)

theorem create_path {x : Digest} (hx : (dir.create h).path x = some n) :
    x = h ∧ n = dir.next ∨ x ≠ h ∧ dir.path x = some n := by
  by_cases hxh : x = h
  · have hself : (dir.create h).path x = some dir.next := by
      rw [hxh]
      exact Function.update_self ..
    exact .inl ⟨hxh, Option.some.inj (hx.symm.trans hself)⟩
  · exact .inr ⟨hxh, (Function.update_of_ne hxh ..).symm.trans hx⟩

theorem create_grows (dir : ArtifactDir Digest) (h : Digest) : dir.Grows (dir.create h) := by
  refine ⟨Nat.le_succ _, fun x n hx hn => ?_⟩
  obtain ⟨-, rfl⟩ | ⟨-, hx⟩ := create_path hx
  · exact absurd hn (Nat.lt_irrefl _)
  · exact hx

theorem openFile_spec (dir : ArtifactDir Digest) (h : Digest) :
    dir.Grows (dir.openFile h).2 ∧ (dir.openFile h).2.Owned h (dir.openFile h).1 := by
  unfold openFile
  split
  · next n hn =>
    exact ⟨dir.setFile_grows n _, dir.path_lt h n hn, fun x hx => dir.apart x h n hx hn⟩
  · refine ⟨dir.create_grows h, Nat.lt_succ_self _, fun x hx => ?_⟩
    obtain ⟨hxh, -⟩ | ⟨-, hx⟩ := create_path hx
    · exact hxh
    · exact absurd (dir.path_lt x _ hx) (Nat.lt_irrefl _)

theorem Trusted.openFile (ht : dir.Trusted w) (h : Digest) : (dir.openFile h).2.Trusted w := by
  unfold ArtifactDir.openFile
  split
  · intro x m bytes component hx hb hd
    rw [setFile_files] at hb
    split_ifs at hb
    · cases hb
    · exact ht x m bytes component hx hb hd
  · intro x m bytes component hx hb hd
    obtain ⟨-, rfl⟩ | ⟨-, hx⟩ := create_path hx
    · have hself : (dir.create h).files dir.next = .opened ⟨none, 0, false⟩ :=
        Function.update_self ..
      rw [hself] at hb
      cases hb
    · have hne : m ≠ dir.next := Nat.ne_of_lt (dir.path_lt x m hx)
      have hold : (dir.create h).files m = dir.files m := Function.update_of_ne hne ..
      exact ht x m bytes component hx (hold ▸ hb) hd

omit [DecidableEq Digest] in
/-- A writer leaves its own artifact, or one that is not whole. -/
theorem Trusted.closed {component : Component} {bytes : List UInt8} {complete : Bool}
    (ht : dir.Trusted w) (ho : dir.Owned h n) (hc : w.Compiles h component)
    (hround : w.deserialize bytes = some component) :
    (dir.setFile n ((dir.files n).closed bytes complete)).Trusted w := by
  intro x m b c hx hb hd
  rw [setFile_files] at hb
  split_ifs at hb with hm
  · subst hm
    obtain rfl := ho.path x hx
    unfold ArtifactFile.closed at hb
    split_ifs at hb
    obtain rfl := Option.some.inj hb
    obtain rfl := Option.some.inj (hround.symm.trans hd)
    exact hc
  · exact ht x m b c hx hb hd

end ArtifactDir

namespace ComponentCache

variable {Component Digest : Type} [DecidableEq Digest] {w : Wasmtime Component Digest}
  {s s' t : ComponentCache Component Digest} {i : ℕ} {wasmBytes : List UInt8}
  {pc pc' : CachePc Component} {e : CacheEvent}

/-- What a call for these bytes holds is compiled from bytes with their hash. -/
def PcTrusted (w : Wasmtime Component Digest) (dir : ArtifactDir Digest) (wasmBytes : List UInt8) :
    CachePc Component → Prop
  | .loading bytes => ∀ component, w.deserialize bytes = some component →
      w.Compiles (w.hash wasmBytes) component
  | .saving component | .inserting component _ => w.Compiles (w.hash wasmBytes) component
  | .writing component bytes n => w.Compiles (w.hash wasmBytes) component ∧
      w.serialize component = some bytes ∧ dir.Owned (w.hash wasmBytes) n
  | .returned (some (arc, _)) => w.Compiles (w.hash wasmBytes) arc.value
  | .returned none => w.compile wasmBytes = none
  | _ => True

structure Trusted (w : Wasmtime Component Digest) (s : ComponentCache Component Digest) : Prop where
  memory : ∀ h arc, s.memory.get? h = some arc → w.Compiles h arc.value
  dir : s.dir.Trusted w
  calls : ∀ i wasmBytes pc, s.calls i = some ⟨wasmBytes, pc⟩ → PcTrusted w s.dir wasmBytes pc

omit [DecidableEq Digest] in
theorem PcTrusted.grows {dir dir' : ArtifactDir Digest} (hp : PcTrusted w dir wasmBytes pc)
    (hg : dir.Grows dir') : PcTrusted w dir' wasmBytes pc := by
  cases pc with
  | writing component bytes n => exact ⟨hp.1, hp.2.1, hp.2.2.grows hg⟩
  | returned result =>
    cases result with
    | none => exact hp
    | some answer => exact hp
  | _ => exact hp

/-- The read does not make a component of a file that is not whole. -/
def TornRefused (w : Wasmtime Component Digest) (s : ComponentCache Component Digest)
    (e : CacheEvent) : Prop :=
  ∀ bytes wasmBytes pc n, e = .read e.caller (some bytes) →
    s.calls e.caller = some ⟨wasmBytes, pc⟩ → s.dir.path (w.hash wasmBytes) = some n →
      (s.dir.files n).content = none → w.deserialize bytes = none

/-- A call moves on, holding what it may hold, over files that may be as they are. -/
theorem Trusted.move (ht : Trusted w s) (hcalls : t.calls = s.calls) (hd : t.dir.Trusted w)
    (hmem : ∀ h arc, t.memory.get? h = some arc → w.Compiles h arc.value)
    (hg : s.dir.Grows t.dir) (hp : PcTrusted w t.dir wasmBytes pc') :
    Trusted w (t.setCall i wasmBytes pc') where
  memory := hmem
  dir := hd
  calls j bytes pc hj := by
    rw [setCall_calls] at hj
    split_ifs at hj
    · obtain ⟨rfl, rfl⟩ := CacheCall.mk.inj (Option.some.inj hj)
      exact hp
    · rw [hcalls] at hj
      exact (ht.calls j bytes pc hj).grows hg

theorem Trusted.read {bytes : List UInt8} (ht : Trusted w s)
    (hcall : s.calls e.caller = some ⟨wasmBytes, pc⟩) (he : e = .read e.caller (some bytes))
    (hr : s.dir.Reads (w.hash wasmBytes) (some bytes) = true) (htorn : TornRefused w s e)
    {component : Component} (hd : w.deserialize bytes = some component) :
    w.Compiles (w.hash wasmBytes) component := by
  unfold ArtifactDir.Reads at hr
  split at hr
  · next h => cases h
  · next b h =>
    obtain rfl := Option.some.inj h
    split at hr
    · cases hr
    · next n hn =>
      cases hc : (s.dir.files n).content with
      | none => cases hd.symm.trans (htorn bytes wasmBytes pc n he hcall hn hc)
      | some whole =>
        rw [hc] at hr
        obtain rfl : whole = bytes := by simpa using hr
        exact ht.dir _ n _ component hn hc hd

theorem Trusted.step
    (hround : ∀ component bytes, w.serialize component = some bytes →
      w.deserialize bytes = some component)
    (ht : Trusted w s) (htorn : TornRefused w s e) (h : ComponentCache.step w s e = some s') :
    Trusted w s' := by
  obtain ⟨-, wasmBytes, rfl⟩ | ⟨wasmBytes, pc, pc', t, hcall, hm, rfl⟩ := step_cases h
  · exact ht.move rfl ht.dir ht.memory (.refl _) trivial
  · have hpc := ht.calls _ _ _ hcall
    have hown : w.hash wasmBytes = w.hash wasmBytes := rfl
    cases hm with
    | hit arc harc => exact ht.move rfl ht.dir ht.memory (.refl _) (ht.memory _ arc harc)
    | missOnDisk | miss | notRead | stale | notEvicted =>
      exact ht.move rfl ht.dir ht.memory (.refl _) trivial
    | read bytes he hr =>
      exact ht.move rfl ht.dir ht.memory (.refl _) fun _ hd => ht.read hcall he hr htorn hd
    | load bytes component hd => exact ht.move rfl ht.dir ht.memory (.refl _) (hpc component hd)
    | evict =>
      exact ht.move rfl (ht.dir.remove _) ht.memory (s.dir.remove_grows _) trivial
    | fail hc => exact ht.move rfl ht.dir ht.memory (.refl _) hc
    | compileForDisk component hc | compile component hc =>
      exact ht.move rfl ht.dir ht.memory (.refl _) ⟨wasmBytes, hown, hc⟩
    | openFile component bytes hs =>
      obtain ⟨hg, ho⟩ := s.dir.openFile_spec (w.hash wasmBytes)
      exact ht.move rfl (ht.dir.openFile _) ht.memory hg ⟨hpc, hs, ho⟩
    | notSaved component => exact ht.move rfl ht.dir ht.memory (.refl _) hpc
    | write component bytes n complete =>
      obtain ⟨hc, hs, ho⟩ := hpc
      exact ht.move rfl (ht.dir.closed ho hc (hround component bytes hs)) ht.memory
        (s.dir.setFile_grows n _) hc
    | insert component outcome =>
      obtain ⟨hself, -, hnew, -⟩ := entry_spec w s wasmBytes component
      have hmem : ∀ h arc, (s.entry w wasmBytes component).2.memory.get? h = some arc →
          w.Compiles h arc.value := by
        intro h arc ha
        obtain ha | ⟨rfl, rfl, -⟩ := hnew h arc ha
        · exact ht.memory h arc ha
        · exact hpc
      have hdir : (s.entry w wasmBytes component).2.dir = s.dir := by
        unfold entry
        split <;> rfl
      exact ht.move (Moves.calls (e := e) (.insert component outcome)) (hdir ▸ ht.dir) hmem
        (hdir ▸ .refl _) (hmem _ _ hself)

/-- Over artifacts that may be trusted at the start, and as long as no file that is not whole is
accepted: what a call answers is compiled from bytes with the hash of its own, it fails only if its
own bytes do not compile, and all that is accepted of what it reads is compiled from such bytes. -/
theorem answers_compiled {disk : Bool} {dir : ArtifactDir Digest} {events : List CacheEvent}
    (hround : ∀ component bytes, w.serialize component = some bytes →
      w.deserialize bytes = some component)
    (hdir : dir.Trusted w) (h : run w disk dir events = some s)
    (htorn : Lib.StepsMeet (ComponentCache.step w) (TornRefused w) (new disk dir) events)
    {i : ℕ} {wasmBytes : List UInt8} {pc : CachePc Component}
    (hi : s.calls i = some ⟨wasmBytes, pc⟩) :
    (∀ arc outcome, pc = .returned (some (arc, outcome)) →
        w.Compiles (w.hash wasmBytes) arc.value) ∧
      (pc = .returned none → w.compile wasmBytes = none) ∧
      ∀ bytes component, pc = .loading bytes → w.deserialize bytes = some component →
        w.Compiles (w.hash wasmBytes) component := by
  have hnew : Trusted w (new disk dir) := by
    refine ⟨?_, hdir, ?_⟩
    · rintro h arc ⟨⟩
    · rintro i wasmBytes pc ⟨⟩
  have ht : Trusted w s := Lib.exec_invariant_where (P := Trusted w) (C := TornRefused w)
    (fun _ _ _ ht hc hs => ht.step hround hc hs) h htorn hnew
  have hpc := ht.calls i wasmBytes pc hi
  refine ⟨?_, ?_, ?_⟩
  · rintro arc outcome rfl
    exact hpc
  · rintro rfl
    exact hpc
  · rintro bytes component rfl
    exact hpc component

theorem answers_compiled_racing : ∃ s x, run wasmtimeSample true emptyDir racingCalls = some s ∧
    s.calls 1 = some ⟨[5], .returned (some (x, .compiled))⟩ ∧
      wasmtimeSample.Compiles [5] x.value := by
  obtain ⟨s, -, y, h, -, hy⟩ := racingCalls_end
  refine ⟨s, y, h, hy, (answers_compiled ?_ ?_ h (.of_forall ?_) hy).1 y .compiled rfl⟩
  · rintro component bytes hs
    obtain rfl := Option.some.inj hs
    rfl
  · rintro h n bytes component ⟨⟩
  · intro s e he bytes wasmBytes pc n hread
    have hbytes : ∀ i b, CacheEvent.read i (some b) ∈ racingCalls → b = [] := by
      simp [racingCalls]
    rw [hbytes e.caller bytes (hread ▸ he)]
    exact fun _ _ _ => rfl

end ComponentCache

end Wafer
