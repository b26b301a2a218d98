import Mathlib.Data.List.Sort
import Mathlib.Logic.Function.Basic
import Wafer.Lib.Execution
import Wafer.Node.Wasm

/-!
# Supervision of the node tasks

`spawn_node_task` and `run_until_complete`: every node is a task of its own, a
task that fails cancels the pipeline, and the orchestrator joins the tasks one
by one and then the dead-letter task. What the tasks do in between is left
open here.

## Main definitions

- `PipelineOrchestrator.step`, `PipelineOrchestrator.run`
- `PipelineOrchestrator.Supervised` — what has been joined and what has failed agree
- `PipelineOrchestrator.AbortJustified` — the condition under which no failure is made up

## Main results

- `PipelineOrchestrator.returned_ok` — `Ok` means that every task returned `Ok`
- `PipelineOrchestrator.failures_propagate` — failures cancel, and when the converse holds
-/

namespace Wafer

/-- How a task ended; the message of a join error is the runtime's. -/
inductive TaskEnd
  | returned (result : Except WaferError Unit)
  | panicked (message : String)
  | aborted (message : String)

/-- The drop guard of `spawn_node_task` is only disarmed by `Ok`. -/
def TaskEnd.failed : TaskEnd → Bool
  | .returned (.ok ()) => false
  | _ => true

theorem TaskEnd.failed_eq_false {how : TaskEnd} (h : how.failed = false) :
    how = .returned (.ok ()) := by
  simp only [TaskEnd.failed] at h
  split at h
  · rfl
  · cases h

/-- Where `run_until_complete` is. -/
inductive SupervisorPc
  | running
  /-- after cancellation, with the shutdown deadline -/
  | draining
  /-- in `abort_stuck_tasks`, until the last task has ended -/
  | aborting
  /-- every node task is joined or aborted -/
  | awaitingDlq
  | returned (result : Except WaferError Unit)

/-- Not every node task is joined or aborted yet. -/
def SupervisorPc.joining : SupervisorPc → Bool
  | .running | .draining | .aborting => true
  | .awaitingDlq | .returned _ => false

/-- The tasks and what `run_until_complete` has seen of them. -/
structure PipelineOrchestrator where
  /-- the node tasks, as they were spawned -/
  nodes : List String
  ends : String → Option TaskEnd := fun _ => none
  cancelled : Bool := false
  /-- there is a dead-letter task -/
  dlqHandle : Bool
  dlqEnd : Option TaskEnd := none
  pc : SupervisorPc := .running
  joined : List String := []
  failures : List String := []

inductive SupervisorEvent
  /-- the token fires: a signal or the API -/
  | cancel
  | exit (nodeId : String) (how : TaskEnd)
  | exitDlq (how : TaskEnd)
  | seeCancelled
  /-- `join_next_with_id` yields a task -/
  | join (nodeId : String)
  /-- `join_next_with_id` yields `None` -/
  | joinedAll
  /-- the shutdown deadline passes -/
  | deadline
  /-- `JoinSet::shutdown` returns -/
  | abortedAll
  | joinDlq
  | dlqTimeout

def shutdownTimeoutSecs : Nat := 5

namespace PipelineOrchestrator

/-- `record_task_exit`: what a finished node task adds to the failures. -/
def recordTaskExit (nodeId : String) : TaskEnd → List String
  | .returned (.ok ()) => []
  | .returned (.error e) => ["node '" ++ nodeId ++ "' failed: " ++ e.toString]
  | .panicked message | .aborted message => ["node '" ++ nodeId ++ "' panicked: " ++ message]

/-- What the end of the dead-letter task adds to the failures. -/
def recordDlqExit : TaskEnd → List String
  | .returned (.ok ()) => []
  | .returned (.error e) => ["DLQ sink failed: " ++ e.toString]
  | .panicked message | .aborted message => ["DLQ task panicked: " ++ message]

def stuck (s : PipelineOrchestrator) : List String :=
  (s.nodes.filter (· ∉ s.joined)).insertionSort (· ≤ ·)

def abortFailure (s : PipelineOrchestrator) : String :=
  "node(s) '" ++ String.intercalate "', '" s.stuck ++ "' did not stop within " ++
    shutdownTimeoutSecs.repr ++ "s and were aborted"

/-- What `abort_stuck_tasks` leaves when every task has ended. -/
def abortStuckTasks (s : PipelineOrchestrator) : PipelineOrchestrator :=
  { s with joined := s.nodes, failures := s.failures ++ [s.abortFailure], pc := .awaitingDlq }

/-- The value of `run_until_complete`. -/
def runResult (failures : List String) : Except WaferError Unit :=
  if failures = [] then .ok ()
  else .error (.runtime ("pipeline run failed: " ++ String.intercalate "; " failures))

def joinTask (s : PipelineOrchestrator) (nodeId : String) : Option PipelineOrchestrator :=
  if nodeId ∈ s.nodes ∧ nodeId ∉ s.joined then
    (s.ends nodeId).map fun how =>
      { s with
        joined := nodeId :: s.joined, failures := s.failures ++ recordTaskExit nodeId how }
  else none

def finish (s : PipelineOrchestrator) (failures : List String) : PipelineOrchestrator :=
  { s with failures := s.failures ++ failures, pc := .returned (runResult (s.failures ++ failures)) }

/-- Fire one event; `none` where it is not enabled. -/
def step (s : PipelineOrchestrator) : SupervisorEvent → Option PipelineOrchestrator
  | .cancel => some { s with cancelled := true }
  | .exit nodeId how =>
    if nodeId ∈ s.nodes ∧ (s.ends nodeId).isNone then
      some { s with
        ends := Function.update s.ends nodeId (some how), cancelled := s.cancelled || how.failed }
    else none
  | .exitDlq how =>
    if s.dlqHandle ∧ s.dlqEnd.isNone then some { s with dlqEnd := some how } else none
  | .seeCancelled =>
    match s.pc with
    | .running => if s.cancelled then some { s with pc := .draining } else none
    | _ => none
  | .join nodeId =>
    match s.pc with
    -- `biased`: cancellation is polled first
    | .running => if s.cancelled then none else s.joinTask nodeId
    | .draining => s.joinTask nodeId
    | _ => none
  | .joinedAll =>
    if ∀ n ∈ s.nodes, n ∈ s.joined then
      match s.pc with
      | .running => if s.cancelled then none else some { s with pc := .awaitingDlq }
      | .draining => some { s with pc := .awaitingDlq }
      | _ => none
    else none
  | .deadline =>
    match s.pc with
    -- `biased`: the deadline is polled before the tasks are joined
    | .draining => some { s with pc := .aborting }
    | _ => none
  | .abortedAll =>
    match s.pc with
    -- a task that is aborted in its last poll still ends with the result of that poll
    | .aborting => if ∀ n ∈ s.nodes, (s.ends n).isSome then some s.abortStuckTasks else none
    | _ => none
  | .joinDlq =>
    match s.pc with
    | .awaitingDlq =>
      if s.dlqHandle then s.dlqEnd.map fun how => s.finish (recordDlqExit how)
      else some (s.finish [])
    | _ => none
  | .dlqTimeout =>
    match s.pc with
    | .awaitingDlq =>
      -- `timeout` polls the task before its own deadline
      if s.dlqHandle ∧ s.dlqEnd.isNone then
        some (s.finish ["DLQ task did not stop within " ++ shutdownTimeoutSecs.repr ++ "s"])
      else none
    | _ => none

/-- A run of `run_until_complete` among the ends of the tasks. -/
def run (nodes : List String) (dlqHandle : Bool) (events : List SupervisorEvent) :
    Option PipelineOrchestrator :=
  Lib.exec step { nodes, dlqHandle } events

def NodesOk (s : PipelineOrchestrator) : Prop :=
  ∀ n ∈ s.nodes, s.ends n = some (.returned (.ok ()))

def DlqOk (s : PipelineOrchestrator) : Prop :=
  s.dlqHandle = true → s.dlqEnd = some (.returned (.ok ()))

variable {s t : PipelineOrchestrator} {e : SupervisorEvent} {nodeId : String} {how : TaskEnd}

theorem recordTaskExit_eq_nil : recordTaskExit nodeId how = [] ↔ how = .returned (.ok ()) := by
  constructor
  · intro h
    simp only [recordTaskExit] at h
    split at h
    · rfl
    all_goals cases h
  · rintro rfl
    rfl

theorem recordDlqExit_eq_nil : recordDlqExit how = [] ↔ how = .returned (.ok ()) := by
  constructor
  · intro h
    simp only [recordDlqExit] at h
    split at h
    · rfl
    all_goals cases h
  · rintro rfl
    rfl

theorem runResult_eq_ok {failures : List String} : runResult failures = .ok () ↔ failures = [] := by
  simp only [runResult]
  split <;> simp_all

/-! ## What a step does -/

/-- What a step does to the tasks, to what is joined and to the failures. -/
inductive Act (s : PipelineOrchestrator) : SupervisorEvent → PipelineOrchestrator → Prop
  | cancelled : Act s .cancel { s with cancelled := true }
  | exited {nodeId : String} {how : TaskEnd} (node : nodeId ∈ s.nodes)
      (running : s.ends nodeId = none) :
      Act s (.exit nodeId how) { s with
        ends := Function.update s.ends nodeId (some how), cancelled := s.cancelled || how.failed }
  | exitedDlq {how : TaskEnd} (handle : s.dlqHandle = true) (running : s.dlqEnd = none) :
      Act s (.exitDlq how) { s with dlqEnd := some how }
  /-- cancellation is seen or the deadline passes -/
  | moved {e : SupervisorEvent} {pc : SupervisorPc} (seen : e = .seeCancelled ∨ e = .deadline)
      (before : s.pc.joining = true) (after : pc.joining = true) : Act s e { s with pc }
  | joined {nodeId : String} {how : TaskEnd} (before : s.pc.joining = true)
      (ended : s.ends nodeId = some how) (node : nodeId ∈ s.nodes) :
      Act s (.join nodeId) { s with
        joined := nodeId :: s.joined, failures := s.failures ++ recordTaskExit nodeId how }
  | joinedAll (before : s.pc.joining = true) (all : ∀ n ∈ s.nodes, n ∈ s.joined) :
      Act s .joinedAll { s with pc := .awaitingDlq }
  | aborted (before : s.pc.joining = true) (ended : ∀ n ∈ s.nodes, (s.ends n).isSome = true) :
      Act s .abortedAll s.abortStuckTasks
  | finished {e : SupervisorEvent} {failures : List String} (pc : s.pc = .awaitingDlq)
      (seen : e = .joinDlq ∨ e = .dlqTimeout) (verdict : failures = [] ↔ s.DlqOk) :
      Act s e (s.finish failures)

theorem Act.of_joinTask (hj : s.pc.joining = true) (h : s.joinTask nodeId = some t) : Act s (.join nodeId) t := by
  simp only [joinTask] at h
  split at h
  · next hg =>
    obtain ⟨how, hend, rfl⟩ := Option.map_eq_some_iff.mp h
    exact .joined hj hend hg.1
  · cases h

theorem Act.of_step (h : s.step e = some t) : Act s e t := by
  cases e with
  | cancel =>
    obtain rfl := Option.some.inj h
    exact .cancelled
  | exit nodeId how =>
    simp only [step] at h
    split at h
    · next hg =>
      obtain rfl := Option.some.inj h
      exact .exited hg.1 (Option.isNone_iff_eq_none.mp hg.2)
    · cases h
  | exitDlq how =>
    simp only [step] at h
    split at h
    · next hg =>
      obtain rfl := Option.some.inj h
      exact .exitedDlq hg.1 (Option.isNone_iff_eq_none.mp hg.2)
    · cases h
  | seeCancelled =>
    simp only [step] at h
    split at h
    · next hpc =>
      split at h
      · obtain rfl := Option.some.inj h
        exact .moved (.inl rfl) (by rw [hpc]; rfl) rfl
      · cases h
    · cases h
  | join nodeId =>
    simp only [step] at h
    split at h
    · next hpc =>
      split at h
      · cases h
      · exact .of_joinTask (by rw [hpc]; rfl) h
    · next hpc => exact .of_joinTask (by rw [hpc]; rfl) h
    · cases h
  | joinedAll =>
    simp only [step] at h
    split at h
    · next hall =>
      split at h
      · next hpc =>
        split at h
        · cases h
        · obtain rfl := Option.some.inj h
          exact .joinedAll (by rw [hpc]; rfl) hall
      · next hpc =>
        obtain rfl := Option.some.inj h
        exact .joinedAll (by rw [hpc]; rfl) hall
      · cases h
    · cases h
  | deadline =>
    simp only [step] at h
    split at h
    · next hpc =>
      obtain rfl := Option.some.inj h
      exact .moved (.inr rfl) (by rw [hpc]; rfl) rfl
    · cases h
  | abortedAll =>
    simp only [step] at h
    split at h
    · next hpc =>
      split at h
      · next hall =>
        obtain rfl := Option.some.inj h
        exact .aborted (by rw [hpc]; rfl) hall
      · cases h
    · cases h
  -- without a sink for dead letters there is nothing to wait for
  | joinDlq =>
    simp only [step] at h
    split at h
    · next hpc =>
      split at h
      · obtain ⟨how, hd, rfl⟩ := Option.map_eq_some_iff.mp h
        refine .finished hpc (.inl rfl) (recordDlqExit_eq_nil.trans ?_)
        simp_all [DlqOk]
      · next hnone =>
        obtain rfl := Option.some.inj h
        exact .finished hpc (.inl rfl) (iff_of_true rfl fun hd => absurd hd hnone)
    · cases h
  -- the sink is not joined in time
  | dlqTimeout =>
    simp only [step] at h
    split at h
    · next hpc =>
      split at h
      · next hg =>
        obtain rfl := Option.some.inj h
        refine .finished hpc (.inr rfl) (iff_of_false nofun fun hd => ?_)
        rw [hd hg.1] at hg
        cases hg.2
      · cases h
    · cases h

/-- What a step leaves as it is: an end that is recorded stays. -/
structure Frame (s t : PipelineOrchestrator) (e : SupervisorEvent) : Prop where
  nodes : t.nodes = s.nodes
  dlqHandle : t.dlqHandle = s.dlqHandle
  ends : ∀ n how, s.ends n = some how → t.ends n = some how
  dlqEnd : (∀ how, e ≠ .exitDlq how) → t.dlqEnd = s.dlqEnd

theorem step_frame (h : s.step e = some t) : Frame s t e := by
  cases Act.of_step h with
  | exited node running =>
    refine ⟨rfl, rfl, fun n how' hn => ?_, fun _ => rfl⟩
    rw [← hn]
    apply Function.update_of_ne
    rintro rfl
    rw [hn] at running
    cases running
  | exitedDlq => exact ⟨rfl, rfl, fun _ _ hn => hn, fun he => absurd rfl (he _)⟩
  | cancelled | moved | joined | joinedAll | aborted | finished =>
    exact ⟨rfl, rfl, fun _ _ hn => hn, fun _ => rfl⟩

/-! ## What is joined -/

/-- Without a failure so far every joined task returned `Ok`; all are joined before the dead-letter
task is awaited, and `Ok` is only returned without a failure. -/
structure Supervised (s : PipelineOrchestrator) : Prop where
  clean : s.failures = [] → ∀ n ∈ s.joined, s.ends n = some (.returned (.ok ()))
  settled : ∀ n ∈ s.joined, (s.ends n).isSome = true
  all : s.pc.joining = false → ∀ n ∈ s.nodes, n ∈ s.joined
  unfailed : s.pc = .returned (.ok ()) → s.failures = [] ∧ s.DlqOk

theorem Supervised.step (hi : s.Supervised) (h : s.step e = some t) : t.Supervised := by
  obtain ⟨hclean, hsettled, hall, hok⟩ := hi
  cases Act.of_step h with
  | cancelled => exact ⟨hclean, hsettled, hall, hok⟩
  | @exited nodeId how node running =>
    -- what has been joined has ended before
    have hkeep : ∀ n ∈ s.joined, Function.update s.ends nodeId (some how) n = s.ends n := by
      intro n hn
      apply Function.update_of_ne
      rintro rfl
      have hsome := hsettled n hn
      rw [running] at hsome
      cases hsome
    refine ⟨?_, ?_, hall, hok⟩
    · intro hf n hn
      exact (hkeep n hn).trans (hclean hf n hn)
    · intro n hn
      show (Function.update s.ends nodeId (some how) n).isSome = true
      rw [hkeep n hn]
      exact hsettled n hn
  | exitedDlq handle running =>
    refine ⟨hclean, hsettled, hall, fun hr => ?_⟩
    -- `Ok` was only returned once the task had ended
    have hd := (hok hr).2 handle
    rw [running] at hd
    cases hd
  | moved _ _ after =>
    refine ⟨hclean, hsettled, fun hj => ?_, ?_⟩
    · rw [after] at hj
      cases hj
    · rintro rfl
      cases after
  | joined before ended node =>
    refine ⟨?_, ?_, fun hj => ?_, fun hr => ?_⟩
    · intro hf n hn
      obtain ⟨hs, hw⟩ := List.append_eq_nil_iff.mp hf
      rcases List.mem_cons.mp hn with rfl | hn
      · exact ended.trans (congrArg some (recordTaskExit_eq_nil.mp hw))
      · exact hclean hs n hn
    · intro n hn
      rcases List.mem_cons.mp hn with rfl | hn
      · exact Option.isSome_of_eq_some ended
      · exact hsettled n hn
    · exact absurd (before.symm.trans hj) nofun
    · rw [show s.pc = _ from hr] at before
      cases before
  | joinedAll _ all => exact ⟨hclean, hsettled, fun _ => all, nofun⟩
  | aborted _ ended =>
    refine ⟨?_, ended, fun _ n hn => hn, nofun⟩
    intro hf
    exact absurd (List.append_eq_nil_iff.mp hf).2 nofun
  | finished pc _ verdict =>
    refine ⟨?_, hsettled, fun _ => hall (by rw [pc]; rfl), ?_⟩
    · intro hf
      exact hclean (List.append_eq_nil_iff.mp hf).1
    · intro hr
      have hf := runResult_eq_ok.mp (SupervisorPc.returned.inj hr)
      exact ⟨hf, verdict.mp (List.append_eq_nil_iff.mp hf).2⟩

/-- When `run_until_complete` has returned `Ok`, every node task and the dead-letter task did. -/
theorem Supervised.returned_ok (hi : s.Supervised) (hr : s.pc = .returned (.ok ())) :
    s.NodesOk ∧ s.DlqOk := by
  obtain ⟨hf, hd⟩ := hi.unfailed hr
  exact ⟨fun n hn => hi.clean hf n (hi.all (by rw [hr]; rfl) n hn), hd⟩

theorem Supervised.start (nodes : List String) (dlqHandle : Bool) :
    Supervised { nodes, dlqHandle } where
  clean _ := by simp
  settled := by simp
  all := nofun
  unfailed := nofun

/-! ## Failures -/

/-- A task that ended in failure has cancelled the pipeline. -/
def FailuresCancel (s : PipelineOrchestrator) : Prop :=
  ∀ n how, s.ends n = some how → how.failed = true → s.cancelled = true

theorem FailuresCancel.step (hi : s.FailuresCancel) (h : s.step e = some t) : t.FailuresCancel := by
  cases Act.of_step h with
  | cancelled => exact fun _ _ _ _ => rfl
  | @exited nodeId last node running =>
    intro n how hn hf
    show (s.cancelled || last.failed) = true
    by_cases hnode : n = nodeId
    · subst hnode
      have hlast : Function.update s.ends n (some last) n = some how := hn
      rw [Function.update_self] at hlast
      obtain rfl := Option.some.inj hlast
      rw [hf, Bool.or_true]
    · have hbefore : Function.update s.ends nodeId (some last) n = some how := hn
      rw [Function.update_of_ne hnode] at hbefore
      rw [hi n how hbefore hf, Bool.true_or]
  | exitedDlq | moved | joined | joinedAll | aborted | finished => exact hi

/-- When the abort of the stuck tasks is through, some node task has not returned `Ok`. -/
def AbortJustified (s : PipelineOrchestrator) (e : SupervisorEvent) : Prop :=
  e = .abortedAll → ¬ s.NodesOk

/-- Until `run_until_complete` returns, there are only failures if a node task failed. -/
def Blamed (s : PipelineOrchestrator) : Prop :=
  (∀ r, s.pc ≠ .returned r) → s.failures ≠ [] →
    ∃ n ∈ s.nodes, ∃ how, s.ends n = some how ∧ how.failed = true

theorem not_returned (hj : s.pc.joining = true) (r : Except WaferError Unit) :
    s.pc ≠ .returned r := by
  intro hr
  rw [hr] at hj
  cases hj

theorem Blamed.step (hi : s.Blamed) (hj : s.AbortJustified e) (h : s.step e = some t) :
    t.Blamed := by
  cases Act.of_step h with
  | cancelled | exitedDlq => exact hi
  | exited node running =>
    intro hr hne
    obtain ⟨n, hn, how, hend, hf⟩ := hi hr hne
    exact ⟨n, hn, how, (step_frame h).ends n how hend, hf⟩
  | moved _ before => exact fun _ => hi (not_returned before)
  | @joined nodeId how before ended node =>
    intro _ hne
    by_cases hs : s.failures = []
    · -- the first failure is that of the task joined now
      refine ⟨nodeId, node, how, ended, ?_⟩
      by_contra hf
      rw [TaskEnd.failed_eq_false (Bool.eq_false_iff.mpr hf)] at hne
      exact hne (List.append_eq_nil_iff.mpr ⟨hs, rfl⟩)
    · exact hi (not_returned before) hs
  | joinedAll before => exact fun _ => hi (not_returned before)
  | aborted before ended =>
    intro _ _
    -- all tasks have ended, and not all with `Ok`
    by_contra hnone
    refine hj rfl fun n hn => ?_
    obtain ⟨how, hend⟩ := Option.isSome_iff_exists.mp (ended n hn)
    have hok : how.failed = false := by
      by_contra hf
      exact hnone ⟨n, hn, how, hend, Bool.of_not_eq_false hf⟩
    rw [hend, TaskEnd.failed_eq_false hok]
  | finished => exact fun hr => absurd rfl (hr _)

/-- Nodes that all returned `Ok` did so for good. -/
theorem NodesOk.step (hi : s.NodesOk) (h : s.step e = some t) : t.NodesOk := by
  have hf := step_frame h
  intro n hn
  rw [hf.nodes] at hn
  exact hf.ends n _ (hi n hn)

/-- A failure is never taken back. -/
theorem failures_step (h : s.step e = some t) (hne : s.failures ≠ []) : t.failures ≠ [] := by
  have hmore : ∀ more, s.failures ++ more ≠ [] := by
    intro more hnil
    exact hne (List.append_eq_nil_iff.mp hnil).1
  cases Act.of_step h with
  | cancelled | exited | exitedDlq | moved | joinedAll => exact hne
  | joined | aborted | finished => exact hmore _

/-- Nodes that all returned `Ok` are reported without failure exactly when no abort was through
behind the last of them. -/
theorem failures_eq_nil_iff {nodes : List String} {dlqHandle : Bool}
    {events : List SupervisorEvent} (h : run nodes dlqHandle events = some s)
    (hpc : s.pc = .awaitingDlq) :
    (s.NodesOk → s.failures = []) ↔
      Lib.StepsMeet PipelineOrchestrator.step AbortJustified { nodes, dlqHandle } events := by
  constructor
  · intro hclean
    rcases Lib.StepsMeet.or_violated AbortJustified h with hmeet |
      ⟨done, e, later, u, v, -, -, huv, hnot, hlater⟩
    · exact hmeet
    · -- an abort with every node task returned leaves a failure behind
      obtain ⟨rfl, hnodes⟩ := Classical.not_imp.mp hnot
      have hnodes := Classical.not_not.mp hnodes
      have hv : v.NodesOk ∧ v.failures ≠ [] := by
        refine ⟨hnodes.step huv, ?_⟩
        cases Act.of_step huv with
        | moved seen => rcases seen with seen | seen <;> cases seen
        | aborted => exact fun hnil => absurd (List.append_eq_nil_iff.mp hnil).2 nofun
        | finished _ seen => rcases seen with seen | seen <;> cases seen
      have hs := Lib.exec_invariant
        (P := fun w : PipelineOrchestrator => w.NodesOk ∧ w.failures ≠ [])
        (fun w e x hw hx => ⟨hw.1.step hx, failures_step hx hw.2⟩) hlater hv
      exact absurd (hclean hs.1) hs.2
  · intro hmeet hnodes
    have hb : s.Blamed := Lib.exec_invariant_where (fun _ _ _ hi hj ht => hi.step hj ht) h hmeet
      (fun _ hne => absurd rfl hne)
    by_contra hne
    obtain ⟨n, hn, how, hend, hf⟩ := hb (by rw [hpc]; nofun) hne
    rw [hnodes n hn] at hend
    obtain rfl := Option.some.inj hend
    cases hf

/-- At the return of `run_until_complete` its value is `Ok` if and only if all node tasks and the
dead-letter task returned `Ok`, exactly when no abort was through behind the last of these node
tasks or the dead-letter task has not returned `Ok`. A task that failed has cancelled the rest. -/
theorem failures_propagate {nodes : List String} {dlqHandle : Bool}
    {events : List SupervisorEvent} (h : run nodes dlqHandle events = some s) :
    s.FailuresCancel ∧ ∀ e t result, s.pc = .awaitingDlq → s.step e = some t →
      t.pc = .returned result →
        ((result = .ok () ↔ t.NodesOk ∧ t.DlqOk) ↔
          Lib.StepsMeet PipelineOrchestrator.step AbortJustified { nodes, dlqHandle } events ∨
            ¬ t.DlqOk) := by
  refine ⟨Lib.exec_invariant (fun _ _ _ hi ht => hi.step ht) h nofun, ?_⟩
  intro e t result hpc ht hr
  have hsup : s.Supervised :=
    Lib.exec_invariant (fun _ _ _ hi ht => hi.step ht) h (.start nodes dlqHandle)
  have hclean : s.failures = [] → s.NodesOk := fun hf n hn =>
    hsup.clean hf n (hsup.all (by rw [hpc]; rfl) n hn)
  rw [← failures_eq_nil_iff h hpc]
  cases Act.of_step ht with
  | finished _ _ verdict =>
    have hresult : result = .ok () ↔ s.failures = [] ∧ s.DlqOk := by
      rw [← SupervisorPc.returned.inj hr, runResult_eq_ok, List.append_eq_nil_iff, verdict]
    show (result = .ok () ↔ s.NodesOk ∧ s.DlqOk) ↔ _ ∨ ¬ s.DlqOk
    rw [hresult]
    by_cases hd : s.DlqOk
    · rw [and_iff_left hd, and_iff_left hd, or_iff_left (not_not_intro hd)]
      exact ⟨fun h => h.mpr, fun h => ⟨hclean, h⟩⟩
    · exact iff_of_true (iff_of_false (fun h => hd h.2) fun h => hd h.2) (.inr hd)
  | cancelled | exited | exitedDlq => exact absurd (hpc.symm.trans hr) nofun
  | moved _ before | joined before | joinedAll before | aborted before =>
    rw [hpc] at before
    cases before

/-- Two nodes and the dead-letter task end by themselves. -/
theorem failures_propagate_completed :
    ∃ s t, run ["in", "out"] true [.exit "in" (.returned (.ok ())), .join "in",
        .exit "out" (.returned (.ok ())), .join "out", .joinedAll,
        .exitDlq (.returned (.ok ()))] = some s ∧
      s.step .joinDlq = some t ∧ t.pc = .returned (.ok ()) ∧
      (((.ok () : Except WaferError Unit) = .ok () ↔ t.NodesOk ∧ t.DlqOk) ↔
        Lib.StepsMeet PipelineOrchestrator.step AbortJustified
            { nodes := ["in", "out"], dlqHandle := true }
            [.exit "in" (.returned (.ok ())), .join "in", .exit "out" (.returned (.ok ())),
              .join "out", .joinedAll, .exitDlq (.returned (.ok ()))] ∨ ¬ t.DlqOk) :=
  have h := rfl
  have ht := rfl
  ⟨_, _, h, ht, rfl, (failures_propagate h).2 .joinDlq _ _ rfl ht rfl⟩

/-- The only node returns `Ok` after cancellation, but the deadline is polled before its end is:
the run fails. -/
theorem returned_aborted :
    ∃ s, run ["in"] false [.cancel, .seeCancelled, .exit "in" (.returned (.ok ())), .deadline,
        .abortedAll, .joinDlq] = some s ∧
      s.pc = .returned (.error (.runtime
        "pipeline run failed: node(s) 'in' did not stop within 5s and were aborted")) ∧
      s.NodesOk ∧ s.DlqOk := by
  refine ⟨_, rfl, ?_, ?_, nofun⟩
  · rfl
  · intro n hn
    obtain rfl := List.mem_singleton.mp hn
    rfl

end PipelineOrchestrator

end Wafer
