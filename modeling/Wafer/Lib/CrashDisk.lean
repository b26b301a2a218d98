import Mathlib.Logic.Function.Basic
import Mathlib.Data.List.Basic

/-!
# Disks that crash

A directory gives numbered files their names. Everything written is seen at
once, but a power failure leaves the directory of some earlier moment, and
whatever it likes in the files that were not synced since they were written.
Some names are scratch names: a file that only has such a name is nobody's yet.

## Main definitions

- `Disk` — `create`, `append`, `sync`, `rename`, `remove`, and the journal's `commit`
- `Disk.read`, `Disk.readAfterPowerFailure` — what a name holds, now and after a power failure
- `Disk.Sound` — files with a proper name are synced and have no scratch name

## Main results

- `Disk.Sound.readAfterPowerFailure_eq` — a power failure loses no file with a proper name
- `Disk.Sound.rename` — a synced file gets its proper name, and nothing else changes
-/

namespace Wafer.Lib

structure Disk (ν : Type*) where
  dir : ν → Option ℕ
  /-- the directory a power failure leaves -/
  durable : ν → Option ℕ
  content : ℕ → List UInt8
  synced : ℕ → Bool
  next : ℕ

namespace Disk

variable {ν : Type*}

/-- What a name holds. -/
def read (d : Disk ν) (name : ν) : Option (List UInt8) := (d.dir name).map d.content

/-- What a name holds after a power failure that leaves `garbage` in unsynced files. -/
def readAfterPowerFailure (d : Disk ν) (garbage : ℕ → List UInt8) (name : ν) :
    Option (List UInt8) :=
  (d.durable name).map fun i => if d.synced i then d.content i else garbage i

/-- What the files of the older directory hold by now. -/
def survives (d : Disk ν) (name : ν) : Option (List UInt8) := (d.durable name).map d.content

/-- A new file, or the old one cut to nothing. -/
def create [DecidableEq ν] (d : Disk ν) (name : ν) : Disk ν :=
  match d.dir name with
  | some i =>
    { d with
      content := Function.update d.content i []
      synced := Function.update d.synced i false }
  | none =>
    { d with
      dir := Function.update d.dir name (some d.next)
      content := Function.update d.content d.next []
      synced := Function.update d.synced d.next false
      next := d.next + 1 }

def append (d : Disk ν) (name : ν) (bytes : List UInt8) : Disk ν :=
  match d.dir name with
  | some i =>
    { d with
      content := Function.update d.content i (d.content i ++ bytes)
      synced := Function.update d.synced i false }
  | none => d

def sync (d : Disk ν) (name : ν) : Disk ν :=
  match d.dir name with
  | some i => { d with synced := Function.update d.synced i true }
  | none => d

def rename [DecidableEq ν] (d : Disk ν) (name target : ν) : Disk ν :=
  { d with dir := Function.update (Function.update d.dir target (d.dir name)) name none }

def remove [DecidableEq ν] (d : Disk ν) (name : ν) : Disk ν := { d with dir := Function.update d.dir name none }

/-- The journal writes the directory down as it is. -/
def commit (d : Disk ν) : Disk ν := { d with durable := d.dir }

/-- Files with a proper name, now or in the older directory, are synced, and no scratch name leads
to them. -/
structure Sound (scratch : ν → Prop) (d : Disk ν) : Prop where
  synced : ∀ name i, ¬ scratch name → d.dir name = some i ∨ d.durable name = some i →
    d.synced i = true
  apart : ∀ name other i, scratch name → d.dir name = some i → d.dir other = some i → other = name
  older : ∀ name other i, scratch name → d.dir name = some i → ¬ scratch other →
    d.durable other ≠ some i
  below : ∀ name i, d.dir name = some i ∨ d.durable name = some i → i < d.next

/-- The proper names hold the same in both, now and later. -/
structure Same (scratch : ν → Prop) (d d' : Disk ν) : Prop where
  read : ∀ name, ¬ scratch name → d'.read name = d.read name
  survives : ∀ name, ¬ scratch name → d'.survives name = d.survives name

variable {scratch : ν → Prop} {d : Disk ν} {name target : ν} {bytes : List UInt8} {i : ℕ}

/-- A power failure loses no file with a proper name. -/
theorem Sound.readAfterPowerFailure_eq (h : d.Sound scratch) (garbage : ℕ → List UInt8)
    (hname : ¬ scratch name) : d.readAfterPowerFailure garbage name = d.survives name := by
  cases hd : d.durable name with
  | none => simp only [readAfterPowerFailure, survives, hd, Option.map_none]
  | some i =>
    simp only [readAfterPowerFailure, survives, hd, Option.map_some,
      h.synced name i hname (.inr hd), if_true]

/-- A file without a proper name is changed for nobody. -/
theorem Sound.write {content : ℕ → List UInt8} {synced : ℕ → Bool} (h : d.Sound scratch)
    (hname : scratch name) (hi : d.dir name = some i)
    (hcontent : ∀ j, j ≠ i → content j = d.content j)
    (hsynced : ∀ j, j ≠ i → synced j = d.synced j) :
    let d' : Disk ν := { d with content := content, synced := synced }
    d'.Sound scratch ∧ d.Same scratch d' := by
  have hdir : ∀ other j, ¬ scratch other → d.dir other = some j → j ≠ i := by
    rintro other j hother hj rfl
    exact hother (h.apart name other j hname hi hj ▸ hname)
  have hold : ∀ other j, ¬ scratch other → d.durable other = some j → j ≠ i := by
    rintro other j hother hj rfl
    exact h.older name other j hname hi hother hj
  refine ⟨⟨fun other j hother hj => ?_, h.apart, h.older, h.below⟩, fun other hother => ?_,
    fun other hother => ?_⟩
  · show synced j = true
    rw [hsynced j (hj.elim (hdir other j hother) (hold other j hother))]
    exact h.synced other j hother hj
  · show (d.dir other).map content = (d.dir other).map d.content
    cases hj : d.dir other with
    | none => rfl
    | some j => rw [Option.map_some, hcontent j (hdir other j hother hj), Option.map_some]
  · show (d.durable other).map content = (d.durable other).map d.content
    cases hj : d.durable other with
    | none => rfl
    | some j => rw [Option.map_some, hcontent j (hold other j hother hj), Option.map_some]

theorem Sound.create [DecidableEq ν] (h : d.Sound scratch) (hname : scratch name) :
    (d.create name).Sound scratch ∧ d.Same scratch (d.create name) ∧
      ∃ i, (d.create name).dir name = some i ∧ (d.create name).content i = [] := by
  unfold Disk.create
  split
  · next i hi =>
    obtain ⟨hsound, hsame⟩ := h.write hname hi
      (fun j hj => Function.update_of_ne hj [] d.content)
      (fun j hj => Function.update_of_ne hj false d.synced)
    exact ⟨hsound, hsame, i, hi, Function.update_self i [] d.content⟩
  · next hnone =>
    -- the number is new, so no name leads to it
    have hfresh : ∀ other j, d.dir other = some j ∨ d.durable other = some j → j ≠ d.next :=
      fun other j hj => Nat.ne_of_lt (h.below other j hj)
    have hdir : ∀ other j, Function.update d.dir name (some d.next) other = some j →
        other = name ∧ j = d.next ∨ other ≠ name ∧ d.dir other = some j := by
      intro other j hj
      by_cases hother : other = name
      · rw [hother, Function.update_self] at hj
        exact .inl ⟨hother, (Option.some.inj hj).symm⟩
      · rw [Function.update_of_ne hother] at hj
        exact .inr ⟨hother, hj⟩
    refine ⟨⟨fun other j hother hj => ?_, fun t other j ht hj hj' => ?_,
      fun t other j ht hj hother => ?_, fun other j hj => ?_⟩, ⟨fun other hother => ?_,
      fun other hother => ?_⟩, d.next, Function.update_self .., Function.update_self ..⟩
    · have hold : d.dir other = some j ∨ d.durable other = some j := by
        refine hj.imp_left fun hj => ?_
        rcases hdir other j hj with ⟨rfl, -⟩ | ⟨-, hj⟩
        · exact absurd hname hother
        · exact hj
      show Function.update d.synced d.next false j = true
      rw [Function.update_of_ne (hfresh other j hold)]
      exact h.synced other j hother hold
    · rcases hdir t j hj with ⟨rfl, rfl⟩ | ⟨-, hj⟩
      · rcases hdir other _ hj' with ⟨rfl, -⟩ | ⟨-, hj'⟩
        · rfl
        · exact absurd rfl (hfresh other _ (.inl hj'))
      · rcases hdir other j hj' with ⟨-, rfl⟩ | ⟨-, hj'⟩
        · exact absurd rfl (hfresh t _ (.inl hj))
        · exact h.apart t other j ht hj hj'
    · rcases hdir t j hj with ⟨-, rfl⟩ | ⟨-, hj⟩
      · exact fun hd => hfresh other _ (.inr hd) rfl
      · exact h.older t other j ht hj hother
    · rcases hj with hj | hj
      · rcases hdir other j hj with ⟨-, rfl⟩ | ⟨-, hj⟩
        · exact Nat.lt_succ_self _
        · exact Nat.lt_succ_of_lt (h.below other j (.inl hj))
      · exact Nat.lt_succ_of_lt (h.below other j (.inr hj))
    · have hne : other ≠ name := fun he => hother (he ▸ hname)
      show (Function.update d.dir name (some d.next) other).map
        (Function.update d.content d.next []) = (d.dir other).map d.content
      rw [Function.update_of_ne hne]
      cases hj : d.dir other with
      | none => rfl
      | some j =>
        rw [Option.map_some, Function.update_of_ne (hfresh other j (.inl hj)), Option.map_some]
    · show (d.durable other).map (Function.update d.content d.next []) =
        (d.durable other).map d.content
      cases hj : d.durable other with
      | none => rfl
      | some j =>
        rw [Option.map_some, Function.update_of_ne (hfresh other j (.inr hj)), Option.map_some]

theorem Sound.append (h : d.Sound scratch) (hname : scratch name) (hi : d.dir name = some i) :
    (d.append name bytes).Sound scratch ∧ d.Same scratch (d.append name bytes) ∧
      (d.append name bytes).dir name = some i ∧
      (d.append name bytes).content i = d.content i ++ bytes := by
  have happend : d.append name bytes = { d with
      content := Function.update d.content i (d.content i ++ bytes)
      synced := Function.update d.synced i false } := by
    rw [Disk.append, hi]
  obtain ⟨hsound, hsame⟩ := h.write hname hi
    (fun j hj => Function.update_of_ne hj (d.content i ++ bytes) d.content)
    (fun j hj => Function.update_of_ne hj false d.synced)
  rw [happend]
  exact ⟨hsound, hsame, hi, Function.update_self i (d.content i ++ bytes) d.content⟩

theorem Sound.sync (h : d.Sound scratch) (hname : scratch name) (hi : d.dir name = some i) :
    (d.sync name).Sound scratch ∧ d.Same scratch (d.sync name) ∧
      (d.sync name).dir name = some i ∧ (d.sync name).content i = d.content i ∧
      (d.sync name).synced i = true := by
  have hsync : d.sync name = { d with synced := Function.update d.synced i true } := by
    rw [Disk.sync, hi]
  obtain ⟨hsound, hsame⟩ := h.write hname hi (fun j _ => (rfl : d.content j = d.content j))
    (fun j hj => Function.update_of_ne hj true d.synced)
  rw [hsync]
  exact ⟨hsound, hsame, hi, rfl, Function.update_self i true d.synced⟩

theorem Sound.remove [DecidableEq ν] (h : d.Sound scratch) (hname : scratch name) :
    (d.remove name).Sound scratch ∧ d.Same scratch (d.remove name) := by
  have hdir : ∀ other j, Function.update d.dir name none other = some j →
      d.dir other = some j := by
    intro other j hj
    by_cases hother : other = name
    · rw [hother, Function.update_self] at hj
      cases hj
    · rwa [Function.update_of_ne hother] at hj
  refine ⟨⟨fun other j hother hj => h.synced other j hother (hj.imp_left (hdir other j)),
    fun t other j ht hj hj' => h.apart t other j ht (hdir t j hj) (hdir other j hj'),
    fun t other j ht hj hother => h.older t other j ht (hdir t j hj) hother,
    fun other j hj => h.below other j (hj.imp_left (hdir other j))⟩, fun other hother => ?_,
    fun _ _ => rfl⟩
  have hne : other ≠ name := fun he => hother (he ▸ hname)
  show (Function.update d.dir name none other).map d.content = (d.dir other).map d.content
  rw [Function.update_of_ne hne]

/-- A synced file gets its proper name; no other proper name changes, and none in the older
directory. -/
theorem Sound.rename [DecidableEq ν] (h : d.Sound scratch) (hname : scratch name) (htarget : ¬ scratch target)
    (hi : d.dir name = some i) (hsynced : d.synced i = true) :
    (d.rename name target).Sound scratch ∧
      (d.rename name target).read target = some (d.content i) ∧
      (∀ other, ¬ scratch other → other ≠ target →
        (d.rename name target).read other = d.read other) ∧
      (d.rename name target).survives = d.survives := by
  have hne : target ≠ name := fun he => htarget (he ▸ hname)
  have hdir : ∀ other, (d.rename name target).dir other =
      if other = name then none else if other = target then some i else d.dir other := by
    intro other
    rw [← hi]
    show Function.update (Function.update d.dir target (d.dir name)) name none other = _
    rw [Function.update_apply, Function.update_apply]
  have hfrom : ∀ other j, (d.rename name target).dir other = some j →
      other = target ∧ j = i ∨ other ≠ name ∧ d.dir other = some j := by
    intro other j hj
    rw [hdir] at hj
    split_ifs at hj with hother htarget
    · exact .inl ⟨htarget, (Option.some.inj hj).symm⟩
    · exact .inr ⟨hother, hj⟩
  have hscratch : ∀ t j, scratch t → (d.rename name target).dir t = some j →
      t ≠ name ∧ d.dir t = some j ∧ j ≠ i := by
    intro t j ht hj
    rcases hfrom t j hj with ⟨rfl, -⟩ | ⟨hother, hj⟩
    · exact absurd ht htarget
    · exact ⟨hother, hj, fun he => hother (h.apart name t i hname hi (he ▸ hj))⟩
  refine ⟨⟨fun other j hother hj => ?_, fun t other j ht hj hj' => ?_,
    fun t other j ht hj hother => h.older t other j ht (hscratch t j ht hj).2.1 hother,
    fun other j hj => ?_⟩, ?_, fun other hother hot => ?_, rfl⟩
  · rcases hj with hj | hj
    · rcases hfrom other j hj with ⟨-, rfl⟩ | ⟨-, hj⟩
      · exact hsynced
      · exact h.synced other j hother (.inl hj)
    · exact h.synced other j hother (.inr hj)
  · obtain ⟨-, hold, hji⟩ := hscratch t j ht hj
    rcases hfrom other j hj' with ⟨-, rfl⟩ | ⟨-, hj'⟩
    · exact absurd rfl hji
    · exact h.apart t other j ht hold hj'
  · rcases hj with hj | hj
    · rcases hfrom other j hj with ⟨-, rfl⟩ | ⟨-, hj⟩
      · exact h.below name _ (.inl hi)
      · exact h.below other j (.inl hj)
    · exact h.below other j (.inr hj)
  · rw [Disk.read, hdir, if_neg hne, if_pos rfl]
    rfl
  · have hnn : other ≠ name := fun he => hother (he ▸ hname)
    rw [Disk.read, hdir, if_neg hnn, if_neg hot]
    rfl

theorem Sound.commit (h : d.Sound scratch) :
    d.commit.Sound scratch ∧ d.commit.read = d.read ∧ d.commit.survives = d.read := by
  refine ⟨⟨fun name j hname hj => h.synced name j hname (.inl (hj.elim id id)), h.apart,
    fun t other j ht hj hother hold => ?_, fun name j hj => h.below name j (.inl (hj.elim id id))⟩,
    rfl, rfl⟩
  exact hother (h.apart t other j ht hj hold ▸ ht)

end Disk

end Wafer.Lib
