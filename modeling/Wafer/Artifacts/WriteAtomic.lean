import Mathlib.Data.List.Induction
import Wafer.Lib.CrashDisk
import Wafer.Lib.Execution

/-!
# Writing artifacts

`write_atomic` writes a temporary file beside the artifact, syncs it and renames
it. An export is a series of such writes, each chosen by what came of those
before. Every call of the operating system may fail, a write may be short, and the
process may be killed or the power fail between any two calls. The directory is
never synced: its changes reach the disk when the journal likes, but in the order
in which they were made.

## Main definitions

- `Exporter.step` — the calls of `write_atomic`, one at a time
- `replaced` — the directory after some artifacts were replaced
- `Exporter.Kept` — what holds between any two calls

## Main results

- `Exporter.kept` — an export replaces artifacts one by one and as a whole
-/

namespace Wafer

open Lib

/-- A file of an export. -/
structure Artifact where
  name : String
  bytes : List UInt8
  deriving DecidableEq, Repr

def temporaryName (name : String) : String := "." ++ name ++ ".tmp"

/-- A name that a temporary file has. -/
def IsTemporary (name : String) : Prop := ∃ artifact, name = temporaryName artifact

/-- What came of the artifacts so far, oldest first. -/
abbrev ExportOutcomes := List (Artifact × Except String Unit)

inductive WriteAtomicPc
  | idle
  | creating (a : Artifact)
  | writing (a : Artifact) (rest : List UInt8)
  | syncing (a : Artifact)
  | renaming (a : Artifact)
  /-- a call has failed, and the temporary file is to be removed -/
  | removing (a : Artifact) (error : String)
  deriving DecidableEq, Repr

/-- The artifact in work. -/
def WriteAtomicPc.artifact? : WriteAtomicPc → Option Artifact
  | .idle => none
  | .creating a | .writing a _ | .syncing a | .renaming a | .removing a _ => some a

structure Exporter where
  disk : Disk String
  outcomes : ExportOutcomes := []
  pc : WriteAtomicPc := .idle

/-- What a call of the operating system answers; a write that is `short` by some bytes writes at
least one. -/
inductive SyscallAnswer
  | ok (short : ℕ)
  | error (message : String)
  deriving DecidableEq, Repr

inductive ExportEvent
  | begin
  | answer (a : SyscallAnswer)
  /-- the journal goes to the disk -/
  | commit
  deriving DecidableEq, Repr

namespace Exporter

/-- `write_all` goes on until everything is written. -/
def write (s : Exporter) (a : Artifact) (rest : List UInt8) : Exporter :=
  { s with pc := if rest = [] then .syncing a else .writing a rest }

def finish (s : Exporter) (a : Artifact) (result : Except String Unit) : Exporter :=
  { s with outcomes := s.outcomes ++ [(a, result)], pc := .idle }

/-- The next call of `write_atomic`. -/
def stepAnswer (s : Exporter) (answer : SyscallAnswer) : Option Exporter :=
  match s.pc, answer with
  | .idle, _ => none
  | .creating a, .ok _ => some ({ s with disk := s.disk.create (temporaryName a.name) }.write a a.bytes)
  | .writing a rest, .ok short =>
    let written := max 1 (rest.length - short)
    some ({ s with disk := s.disk.append (temporaryName a.name) (rest.take written) }.write a
      (rest.drop written))
  | .syncing a, .ok _ =>
    some { s with disk := s.disk.sync (temporaryName a.name), pc := .renaming a }
  | .renaming a, .ok _ =>
    some ({ s with disk := s.disk.rename (temporaryName a.name) a.name }.finish a (.ok ()))
  | .removing a e, .ok _ =>
    some ({ s with disk := s.disk.remove (temporaryName a.name) }.finish a (.error e))
  -- the answer of `remove_file` is dropped
  | .removing a e, .error _ => some (s.finish a (.error e))
  | .creating a, .error e | .writing a _, .error e | .syncing a, .error e | .renaming a, .error e =>
    some { s with pc := .removing a e }

/-- `next` is what the export writes next. -/
def step (next : ExportOutcomes → Option Artifact) (s : Exporter) : ExportEvent → Option Exporter
  | .begin =>
    if s.pc = .idle then (next s.outcomes).map fun a => { s with pc := .creating a } else none
  | .answer a => s.stepAnswer a
  | .commit => some { s with disk := s.disk.commit }

end Exporter

/-- The artifacts that were written. -/
def completed (outcomes : ExportOutcomes) : List Artifact :=
  outcomes.filterMap fun o =>
    match o.2 with
    | .ok () => some o.1
    | .error _ => none

/-- What names hold once some artifacts have replaced what was there before. -/
def replaced (before : String → Option (List UInt8)) (artifacts : List Artifact) :
    String → Option (List UInt8) :=
  artifacts.foldl (fun view a => Function.update view a.name (some a.bytes)) before

theorem replaced_append (before : String → Option (List UInt8)) (artifacts : List Artifact)
    (a : Artifact) : replaced before (artifacts ++ [a]) =
      Function.update (replaced before artifacts) a.name (some a.bytes) := by
  rw [replaced, List.foldl_append]
  rfl

theorem replaced_of_not_mem {before : String → Option (List UInt8)} {artifacts : List Artifact}
    {name : String} (h : ∀ a ∈ artifacts, a.name ≠ name) :
    replaced before artifacts name = before name := by
  induction artifacts using List.reverseRecOn with
  | nil => rfl
  | append_singleton artifacts a ih =>
    rw [replaced_append, Function.update_of_ne (h a (by simp)).symm]
    exact ih fun b hb => h b (List.mem_append_left _ hb)

/-- Artifacts with names of their own hold their bytes. -/
theorem replaced_of_mem {before : String → Option (List UInt8)} {artifacts : List Artifact}
    {a : Artifact} (hnodup : (artifacts.map Artifact.name).Nodup) (h : a ∈ artifacts) :
    replaced before artifacts a.name = some a.bytes := by
  induction artifacts using List.reverseRecOn with
  | nil => cases h
  | append_singleton artifacts b ih =>
    rw [List.map_append, List.map_singleton, List.nodup_append] at hnodup
    obtain ⟨hfront, -, hapart⟩ := hnodup
    rw [replaced_append]
    rcases List.mem_append.mp h with h | h
    · have hne : a.name ≠ b.name :=
        hapart a.name (List.mem_map_of_mem h) b.name (List.mem_singleton_self _)
      rw [Function.update_of_ne hne]
      exact ih hfront h
    · obtain rfl := List.mem_singleton.mp h
      exact Function.update_self ..

namespace Exporter

/-- How far the temporary file of the artifact in work is. -/
def Temporary (s : Exporter) : Prop :=
  match s.pc with
  | .writing a rest =>
    ∃ i, s.disk.dir (temporaryName a.name) = some i ∧ s.disk.content i ++ rest = a.bytes
  | .syncing a => ∃ i, s.disk.dir (temporaryName a.name) = some i ∧ s.disk.content i = a.bytes
  | .renaming a =>
    ∃ i, s.disk.dir (temporaryName a.name) = some i ∧ s.disk.content i = a.bytes ∧
      s.disk.synced i = true
  | _ => True

/-- Each artifact was the next one of the export. -/
def Followed (next : ExportOutcomes → Option Artifact) (outcomes : ExportOutcomes) : Prop :=
  ∀ done o later, outcomes = done ++ o :: later → next done = some o.1

structure Kept (next : ExportOutcomes → Option Artifact) (before : String → Option (List UInt8))
    (s : Exporter) : Prop where
  sound : s.disk.Sound IsTemporary
  read : ∀ name, ¬ IsTemporary name →
    s.disk.read name = replaced before (completed s.outcomes) name
  survives : ∃ front, front <+: completed s.outcomes ∧ ∀ name, ¬ IsTemporary name →
    s.disk.survives name = replaced before front name
  temporary : s.Temporary
  followed : Followed next s.outcomes
  next : ∀ a, s.pc.artifact? = some a → next s.outcomes = some a

variable {next : ExportOutcomes → Option Artifact} {before : String → Option (List UInt8)}
  {s s' : Exporter} {a : Artifact}

/-- A call that only touches the temporary file is not seen. -/
theorem Kept.touch {disk : Disk String} {pc : WriteAtomicPc} (h : s.Kept next before)
    (hdisk : disk.Sound IsTemporary ∧ s.disk.Same IsTemporary disk)
    (htemporary : Temporary { s with disk := disk, pc := pc })
    (hpc : ∀ a, pc.artifact? = some a → s.pc.artifact? = some a) :
    Kept next before { s with disk := disk, pc := pc } := by
  obtain ⟨hsound, hsame⟩ := hdisk
  obtain ⟨front, hfront, hsurvives⟩ := h.survives
  exact ⟨hsound, fun name hname => (hsame.read name hname).trans (h.read name hname),
    ⟨front, hfront, fun name hname => (hsame.survives name hname).trans (hsurvives name hname)⟩,
    htemporary, h.followed, fun a ha => h.next a (hpc a ha)⟩

theorem completed_append (outcomes : ExportOutcomes) (a : Artifact) (e : String) :
    completed (outcomes ++ [(a, .ok ())]) = completed outcomes ++ [a] ∧
      completed (outcomes ++ [(a, .error e)]) = completed outcomes := by
  constructor
  · rw [completed, List.filterMap_append]
    rfl
  · rw [completed, List.filterMap_append]
    exact List.append_nil _

theorem Followed.append {outcomes : ExportOutcomes} {result : Except String Unit}
    (h : Followed next outcomes) (ha : next outcomes = some a) :
    Followed next (outcomes ++ [(a, result)]) := by
  intro done o later hsplit
  rcases List.append_eq_append_iff.mp hsplit with ⟨more, hdone, hlater⟩ | ⟨more, houtcomes, hmore⟩
  · -- everything up to `o` is old, or `o` is the new one
    cases more with
    | nil =>
      obtain ⟨rfl, -⟩ := List.cons.inj hlater
      rw [hdone, List.append_nil]
      exact ha
    | cons x more =>
      have hlen := congrArg List.length hlater
      simp at hlen
  · cases more with
    | nil =>
      obtain ⟨rfl, -⟩ := List.cons.inj hmore
      rw [List.append_nil] at houtcomes
      exact houtcomes ▸ ha
    | cons x more =>
      obtain ⟨rfl, -⟩ := List.cons.inj hmore
      exact h done _ more houtcomes

/-- A failed artifact leaves the directory as it is. -/
theorem Kept.fail {e : String} (h : s.Kept next before) (ha : s.pc.artifact? = some a) :
    (s.finish a (.error e)).Kept next before := by
  have hcompleted := (completed_append s.outcomes a e).2
  refine ⟨h.sound, fun name hname => ?_, ?_, trivial, h.followed.append (h.next a ha),
    fun b hb => by cases hb⟩
  · show s.disk.read name = replaced before (completed (s.outcomes ++ [(a, .error e)])) name
    rw [hcompleted]
    exact h.read name hname
  · show ∃ front, front <+: completed (s.outcomes ++ [(a, .error e)]) ∧ _
    rw [hcompleted]
    exact h.survives

/-- The rename replaces one artifact as a whole. -/
theorem Kept.rename (h : s.Kept next before) (hpc : s.pc = .renaming a)
    (hname : ¬ IsTemporary a.name) :
    Kept next before ({ s with
      disk := s.disk.rename (temporaryName a.name) a.name }.finish a (.ok ())) := by
  have htemporary := h.temporary
  rw [Temporary, hpc] at htemporary
  obtain ⟨i, hi, hcontent, hsynced⟩ := htemporary
  obtain ⟨hsound, hread, hothers, hsurvives⟩ := h.sound.rename ⟨a.name, rfl⟩ hname hi hsynced
  have hcompleted := (completed_append s.outcomes a "").1
  have ha : s.pc.artifact? = some a := by rw [hpc]; rfl
  obtain ⟨front, hfront, hkept⟩ := h.survives
  refine ⟨hsound, fun name hproper => ?_, ⟨front, ?_, fun name hproper => ?_⟩, trivial,
    h.followed.append (h.next a ha), fun b hb => by cases hb⟩
  · show (s.disk.rename (temporaryName a.name) a.name).read name =
      replaced before (completed (s.outcomes ++ [(a, .ok ())])) name
    rw [hcompleted, replaced_append]
    by_cases hne : name = a.name
    · rw [hne, Function.update_self, hread, hcontent]
    · rw [Function.update_of_ne hne, hothers name hproper hne]
      exact h.read name hproper
  · exact hfront.trans (hcompleted ▸ List.prefix_append _ _)
  · show (s.disk.rename (temporaryName a.name) a.name).survives name = _
    rw [hsurvives]
    exact hkept name hproper

/-- What is written of the temporary file, and what is left, make up the artifact. -/
theorem Kept.write {disk : Disk String} {rest : List UInt8} {i : ℕ} (h : s.Kept next before)
    (ha : s.pc.artifact? = some a) (hdisk : disk.Sound IsTemporary ∧ s.disk.Same IsTemporary disk)
    (hi : disk.dir (temporaryName a.name) = some i) (hcontent : disk.content i ++ rest = a.bytes) :
    Kept next before ({ s with disk := disk }.write a rest) := by
  unfold Exporter.write
  split_ifs with hrest
  · refine h.touch hdisk ⟨i, hi, ?_⟩ fun b hb => ha.trans hb
    rw [← hcontent, hrest, List.append_nil]
  · exact h.touch hdisk ⟨i, hi, hcontent⟩ fun b hb => ha.trans hb

/-- A call that fails changes nothing yet. -/
theorem Kept.abandon {e : String} (h : s.Kept next before) (ha : s.pc.artifact? = some a)
    (hs : { s with pc := .removing a e } = s') : s'.Kept next before := by
  subst hs
  exact h.touch ⟨h.sound, fun _ _ => rfl, fun _ _ => rfl⟩ trivial fun b hb => ha.trans hb

theorem Kept.stepAnswer {answer : SyscallAnswer} (h : s.Kept next before)
    (hproper : ∀ a, s.pc.artifact? = some a → ¬ IsTemporary a.name)
    (hs : s.stepAnswer answer = some s') : s'.Kept next before := by
  have htemporary := h.temporary
  unfold Exporter.stepAnswer at hs
  split at hs
  · cases hs
  · next a short hpc =>
    have ha : s.pc.artifact? = some a := by rw [hpc]; rfl
    obtain rfl := Option.some.inj hs
    obtain ⟨hsound, hsame, i, hi, hempty⟩ := h.sound.create ⟨a.name, rfl⟩
    refine h.write ha ⟨hsound, hsame⟩ hi ?_
    rw [hempty, List.nil_append]
  · next a rest short hpc =>
    have ha : s.pc.artifact? = some a := by rw [hpc]; rfl
    dsimp only at hs
    generalize max 1 (rest.length - short) = written at hs
    obtain rfl := Option.some.inj hs
    rw [Temporary, hpc] at htemporary
    obtain ⟨i, hi, hcontent⟩ := htemporary
    obtain ⟨hsound, hsame, hi', happend⟩ := h.sound.append ⟨a.name, rfl⟩ hi
    refine h.write ha ⟨hsound, hsame⟩ hi' ?_
    rw [happend, List.append_assoc, List.take_append_drop, hcontent]
  · next a short hpc =>
    have ha : s.pc.artifact? = some a := by rw [hpc]; rfl
    obtain rfl := Option.some.inj hs
    rw [Temporary, hpc] at htemporary
    obtain ⟨i, hi, hcontent⟩ := htemporary
    obtain ⟨hsound, hsame, hi', hsame', hsynced⟩ := h.sound.sync ⟨a.name, rfl⟩ hi
    exact h.touch ⟨hsound, hsame⟩ ⟨i, hi', hsame'.trans hcontent, hsynced⟩ fun b hb => ha.trans hb
  · next a short hpc =>
    obtain rfl := Option.some.inj hs
    exact h.rename hpc (hproper a (by rw [hpc]; rfl))
  · next a e short hpc =>
    have ha : s.pc.artifact? = some a := by rw [hpc]; rfl
    obtain rfl := Option.some.inj hs
    have hremoved : Kept next before { s with disk := s.disk.remove (temporaryName a.name) } :=
      h.touch (h.sound.remove ⟨a.name, rfl⟩) (by simp only [Temporary, hpc]) fun b hb => hb
    exact hremoved.fail ha
  · next a e message hpc =>
    obtain rfl := Option.some.inj hs
    exact h.fail (by rw [hpc]; rfl)
  · next a message hpc =>
    exact h.abandon (by rw [hpc]; rfl) (Option.some.inj hs)
  · next a rest message hpc =>
    exact h.abandon (by rw [hpc]; rfl) (Option.some.inj hs)
  · next a message hpc =>
    exact h.abandon (by rw [hpc]; rfl) (Option.some.inj hs)
  · next a message hpc =>
    exact h.abandon (by rw [hpc]; rfl) (Option.some.inj hs)

theorem Kept.step {e : ExportEvent} (h : s.Kept next before)
    (hproper : ∀ outcomes a, next outcomes = some a → ¬ IsTemporary a.name)
    (hs : s.step next e = some s') : s'.Kept next before := by
  cases e with
  | begin =>
    simp only [Exporter.step] at hs
    split_ifs at hs with hpc
    obtain ⟨a, ha, rfl⟩ := Option.map_eq_some_iff.mp hs
    exact ⟨h.sound, h.read, h.survives, trivial, h.followed,
      fun b hb => ha.trans hb⟩
  | answer answer => exact h.stepAnswer (fun a ha => hproper _ a (h.next a ha)) hs
  | commit =>
    obtain rfl := Option.some.inj hs
    obtain ⟨hsound, hread, hsurvives⟩ := h.sound.commit
    refine ⟨hsound, fun name hname => ?_, ⟨_, List.prefix_rfl, fun name hname => ?_⟩,
      h.temporary, h.followed, h.next⟩
    · show s.disk.commit.read name = _
      rw [hread]
      exact h.read name hname
    · show s.disk.commit.survives name = _
      rw [hsurvives]
      exact h.read name hname

/-- Nothing is written that is not on the disk. -/
structure Settled (disk : Disk String) : Prop where
  sound : disk.Sound IsTemporary
  durable : disk.durable = disk.dir

/-- However the calls go, and whenever the journal is written, an export replaces artifacts one by
one and as a whole. -/
theorem kept {disk : Disk String} {events : List ExportEvent} (hdisk : Settled disk)
    (hproper : ∀ outcomes a, next outcomes = some a → ¬ IsTemporary a.name)
    (h : exec (step next) { disk := disk } events = some s) : s.Kept next disk.read := by
  refine exec_invariant (fun u e v hu hs => hu.step hproper hs) h ?_
  refine ⟨hdisk.sound, fun _ _ => rfl, ⟨[], List.prefix_rfl, fun name _ => ?_⟩, trivial, ?_,
    fun a ha => by cases ha⟩
  · show (disk.durable name).map disk.content = _
    rw [hdisk.durable]
    rfl
  · intro done o later hsplit
    have hlen := congrArg List.length hsplit
    simp at hlen

end Exporter

end Wafer
