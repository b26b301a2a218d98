import Mathlib.Data.List.Nodup
import Wafer.Artifacts.WriteAtomic

/-!
# Exports

The subscriber writes its artifacts in order and its metadata last. It stops at
the first one that fails, but for the event buckets, whose failure the metadata
tells. The bench sink goes on after a failure and lists the failures in one more
artifact. An artifact whose bytes cannot be composed has failed; only its temporary
file is not made then, which nobody sees.

## Main definitions

- `ExportPlan` — what is written next, as it came of what was written before
- `SubscriberFiles` — what the subscriber writes
- `BenchExport` — what `export_to_dir` writes, and what it returns
- `Exporter.Leaves` — what a killed process or a power failure leaves

## Main results

- `SubscriberFiles.metadata_last` — metadata that is there comes with all it speaks of
- `BenchExport.export_accounts` — each artifact is old or new, and the failed ones are listed
-/

namespace Wafer

open Lib

theorem not_isTemporary {name : String} (h : name.toList.head? ≠ some '.') :
    ¬ IsTemporary name := by
  rintro ⟨artifact, rfl⟩
  refine h ?_
  rw [temporaryName, String.toList_append, String.toList_append]
  rfl

namespace Exporter

/-- What is seen once the process is killed, or after a power failure. -/
def Leaves (s : Exporter) (view : String → Option (List UInt8)) : Prop :=
  view = s.disk.read ∨ ∃ garbage, view = s.disk.readAfterPowerFailure garbage

variable {next : ExportOutcomes → Option Artifact} {before view : String → Option (List UInt8)}
  {s : Exporter} {outcomes : ExportOutcomes} {o : Artifact × Except String Unit}

/-- A front of the written artifacts is there, and nothing else has changed. -/
theorem Kept.leaves (h : s.Kept next before) (hview : s.Leaves view) :
    ∃ front, front <+: completed s.outcomes ∧
      ∀ name, ¬ IsTemporary name → view name = replaced before front name := by
  rcases hview with rfl | ⟨garbage, rfl⟩
  · exact ⟨_, List.prefix_rfl, h.read⟩
  · obtain ⟨front, hfront, hsurvives⟩ := h.survives
    exact ⟨front, hfront, fun name hname =>
      (h.sound.readAfterPowerFailure_eq garbage hname).trans (hsurvives name hname)⟩

theorem Followed.of_append (h : Followed next (outcomes ++ [o])) :
    Followed next outcomes ∧ next outcomes = some o.1 :=
  ⟨fun done x later hsplit => h done x (later ++ [o]) (by rw [hsplit]; simp),
    h outcomes o [] rfl⟩

end Exporter

/-- A disk without files. -/
def emptyDisk : Disk String := ⟨fun _ => none, fun _ => none, fun _ => [], fun _ => true, 0⟩

theorem emptyDisk_settled : Exporter.Settled emptyDisk := by
  refine ⟨⟨fun name i _ h => ?_, fun name other i _ h => ?_, fun name other i _ h => ?_,
    fun name i h => ?_⟩, rfl⟩
  · exact h.elim (fun h => by cases h) fun h => by cases h
  · cases h
  · cases h
  · exact h.elim (fun h => by cases h) fun h => by cases h

/-- All calls for an artifact that is written at one go. -/
def writeOnce : List ExportEvent :=
  [.begin, .answer (.ok 0), .answer (.ok 0), .answer (.ok 0), .answer (.ok 0)]

/-! ## Plans -/

/-- An artifact to write, and how to go on once it is written or has failed. -/
inductive ExportPlan
  | done
  | write (a : Artifact) (ok : ExportPlan) (failed : String → ExportPlan)

namespace ExportPlan

def advance : ExportPlan → Except String Unit → ExportPlan
  | done, _ => done
  | write _ ok _, .ok () => ok
  | write _ _ failed, .error e => failed e

/-- What is left to do after the outcomes. -/
def after (p : ExportPlan) (outcomes : ExportOutcomes) : ExportPlan :=
  outcomes.foldl (fun p o => p.advance o.2) p

def artifact? : ExportPlan → Option Artifact
  | done => none
  | write a _ _ => some a

def next (p : ExportPlan) (outcomes : ExportOutcomes) : Option Artifact :=
  (p.after outcomes).artifact?

/-- The artifacts one after the other and then `rest`, with `failed` for the first failure. -/
def writeAll (failed : String → ExportPlan) (rest : ExportPlan) : List Artifact → ExportPlan
  | [] => rest
  | a :: artifacts => write a (writeAll failed rest artifacts) failed

/-- These are the artifacts written when the plan has been carried out. -/
inductive Writes : ExportPlan → List Artifact → Prop
  | done : Writes done []
  | ok {a : Artifact} {ok : ExportPlan} {failed : String → ExportPlan} {written : List Artifact} :
      Writes ok written → Writes (write a ok failed) (a :: written)
  | failed {a : Artifact} {ok : ExportPlan} {failed : String → ExportPlan} {e : String}
      {written : List Artifact} : Writes (failed e) written → Writes (write a ok failed) written

/-- Every artifact the plan may come to has `P`. -/
def Every (P : Artifact → Prop) : ExportPlan → Prop
  | done => True
  | write a ok failed => P a ∧ ok.Every P ∧ ∀ e, (failed e).Every P

variable {P : Artifact → Prop} {p rest : ExportPlan} {failed : String → ExportPlan}
  {outcomes : ExportOutcomes} {artifacts written : List Artifact} {a : Artifact}

theorem Every.advance (h : p.Every P) (result : Except String Unit) :
    (p.advance result).Every P := by
  cases p with
  | done => exact h
  | write a ok failed =>
    obtain ⟨-, hok, hfailed⟩ := h
    cases result with
    | ok u => exact hok
    | error e => exact hfailed e

theorem Every.after (h : p.Every P) : (p.after outcomes).Every P := by
  induction outcomes generalizing p with
  | nil => exact h
  | cons o outcomes ih => exact ih (h.advance o.2)

theorem Every.next (h : p.Every P) (hnext : p.next outcomes = some a) : P a := by
  have hafter : (p.after outcomes).Every P := h.after
  unfold ExportPlan.next at hnext
  cases hp : p.after outcomes with
  | done => rw [hp] at hnext; cases hnext
  | write b ok failed =>
    rw [hp] at hnext hafter
    obtain rfl := Option.some.inj hnext
    exact hafter.1

theorem Every.writeAll (hartifacts : ∀ a ∈ artifacts, P a) (hfailed : ∀ e, (failed e).Every P)
    (hrest : rest.Every P) : (writeAll failed rest artifacts).Every P := by
  induction artifacts with
  | nil => exact hrest
  | cons a artifacts ih =>
    exact ⟨hartifacts a (.head _), ih fun b hb => hartifacts b (.tail _ hb), hfailed⟩

/-- With every write going well the plan is carried out. -/
theorem exists_writes (p : ExportPlan) : ∃ written, p.Writes written := by
  induction p with
  | done => exact ⟨[], .done⟩
  | write a ok failed ihok ihfailed =>
    obtain ⟨written, h⟩ := ihok
    exact ⟨a :: written, .ok h⟩

/-- What an export by this plan has written is a front of what it will have written. -/
theorem writes_followed (h : Exporter.Followed p.next outcomes) :
    ∃ written, p.Writes written ∧ completed outcomes <+: written := by
  induction outcomes generalizing p with
  | nil =>
    obtain ⟨written, hw⟩ := p.exists_writes
    exact ⟨written, hw, List.nil_prefix⟩
  | cons o outcomes ih =>
    obtain ⟨a, result⟩ := o
    have hfirst := h [] (a, result) outcomes rfl
    cases p with
    | done => cases hfirst
    | write b ok failed =>
      obtain rfl := Option.some.inj hfirst
      cases result with
      | ok u =>
        obtain ⟨written, hw, hfront⟩ := @ih ok fun done o later hsplit =>
          h ((b, .ok ()) :: done) o later (by rw [hsplit]; rfl)
        exact ⟨b :: written, .ok hw, List.cons_prefix_cons.mpr ⟨rfl, hfront⟩⟩
      | error e =>
        obtain ⟨written, hw, hfront⟩ := @ih (failed e) fun done o later hsplit =>
          h ((b, .error e) :: done) o later (by rw [hsplit]; rfl)
        exact ⟨written, .failed hw, hfront⟩

/-- All of the artifacts are written, or those up to one that failed. -/
theorem Writes.of_writeAll (h : (writeAll failed rest artifacts).Writes written) :
    (∃ tail, rest.Writes tail ∧ written = artifacts ++ tail) ∨
      ∃ n < artifacts.length, ∃ e tail, (failed e).Writes tail ∧
        written = artifacts.take n ++ tail := by
  induction artifacts generalizing written with
  | nil => exact .inl ⟨written, h, rfl⟩
  | cons a artifacts ih =>
    cases h with
    | ok h =>
      rcases ih h with ⟨tail, htail, rfl⟩ | ⟨n, hn, e, tail, htail, rfl⟩
      · exact .inl ⟨tail, htail, rfl⟩
      · exact .inr ⟨n + 1, Nat.succ_lt_succ hn, e, tail, htail, rfl⟩
    | @failed _ _ _ e _ h => exact .inr ⟨0, Nat.succ_pos _, e, written, h, rfl⟩

end ExportPlan

/-! ## The subscriber -/

/-- What the subscriber has composed when it has recorded its run. -/
structure SubscriberFiles where
  latencyHdr : List UInt8
  sequenceCsv : List UInt8
  /-- there where intervals are enabled and pass their checks -/
  intervalLatency : Option (List UInt8)
  /-- the canonical and the fine buckets, there where events are captured -/
  eventBuckets : Option (List UInt8 × List UInt8)
  /-- rendered with why event buckets are missing, if they failed -/
  metadata : Option String → List UInt8

namespace SubscriberFiles

open ExportPlan

def metadataName : String := "subscriber-metadata.json"

/-- What `write_measurements` writes. -/
def measurements (f : SubscriberFiles) : List Artifact :=
  [⟨"latency.hdr", f.latencyHdr⟩, ⟨"sequence.csv", f.sequenceCsv⟩] ++
    (f.intervalLatency.map (Artifact.mk "interval-latency.json")).toList

/-- What `write_event_buckets` writes. -/
def buckets (f : SubscriberFiles) : List Artifact :=
  match f.eventBuckets with
  | none => []
  | some (canonical, fine) =>
    [⟨"throughput-buckets.json", canonical⟩, ⟨"throughput-buckets-10ms.json", fine⟩]

/-- What `write_metadata` writes. -/
def lastFile (f : SubscriberFiles) (error : Option String) : Artifact :=
  ⟨metadataName, f.metadata error⟩

/-- The first failure ends the export, unless it is one of the event buckets. -/
def plan (f : SubscriberFiles) : ExportPlan :=
  let metadata (error : Option String) := writeAll (fun _ => .done) .done [f.lastFile error]
  writeAll (fun _ => .done)
    (writeAll (fun e => metadata (some e)) (metadata none) f.buckets) f.measurements

/-- The measurements, the event buckets that were written, and the metadata. -/
def files (f : SubscriberFiles) (written : List Artifact) (error : Option String) :
    List Artifact :=
  f.measurements ++ (written ++ [f.lastFile error])

/-- The event buckets are all written, or one has failed, so that the later ones are left out, and
the metadata says so. -/
def Accounted (f : SubscriberFiles) (written : List Artifact) (error : Option String) : Prop :=
  written = f.buckets ∧ error = none ∨
    ∃ n < f.buckets.length, written = f.buckets.take n ∧ error.isSome = true

variable {f : SubscriberFiles} {outcomes : ExportOutcomes} {written : List Artifact}
  {error : Option String} {a : Artifact}

/-- The names of the subscriber's artifacts, in order. -/
def names : List String :=
  ["latency.hdr", "sequence.csv", "interval-latency.json", "throughput-buckets.json",
    "throughput-buckets-10ms.json", metadataName]

theorem names_measurements (f : SubscriberFiles) :
    (f.measurements.map Artifact.name).Sublist (names.take 3) := by
  rw [measurements]
  cases f.intervalLatency with
  | none => exact .cons_cons _ (.cons_cons _ (List.nil_sublist _))
  | some bytes => exact List.Sublist.refl _

theorem names_buckets (f : SubscriberFiles) :
    (f.buckets.map Artifact.name).Sublist ((names.drop 3).take 2) := by
  rw [buckets]
  split
  · exact List.nil_sublist _
  · exact List.Sublist.refl _

theorem Accounted.sublist (h : f.Accounted written error) : written.Sublist f.buckets := by
  rcases h with ⟨rfl, -⟩ | ⟨n, -, rfl, -⟩
  · exact List.Sublist.refl _
  · exact List.take_sublist n _

theorem names_files (h : written.Sublist f.buckets) :
    ((f.files written error).map Artifact.name).Sublist names := by
  rw [files, List.map_append, List.map_append]
  exact f.names_measurements.append
    (((h.map Artifact.name).trans f.names_buckets).append (List.Sublist.refl [metadataName]))

theorem files_nodup (h : written.Sublist f.buckets) :
    ((f.files written error).map Artifact.name).Nodup :=
  (names_files h).nodup (by decide)

theorem proper_of_mem {name : String} (h : name ∈ names) : ¬ IsTemporary name := by
  have hheads : ∀ name ∈ names, name.toList.head? ≠ some '.' := by decide
  exact not_isTemporary (hheads name h)

theorem file_proper (h : written.Sublist f.buckets) (ha : a ∈ f.files written error) :
    ¬ IsTemporary a.name :=
  proper_of_mem ((names_files h).subset (List.mem_map_of_mem ha))

theorem plan_proper (f : SubscriberFiles) : f.plan.Every fun a => ¬ IsTemporary a.name := by
  have hfile : ∀ error, ∀ a ∈ f.files f.buckets error, ¬ IsTemporary a.name := fun error a ha =>
    file_proper (List.Sublist.refl _) ha
  have hmetadata : ∀ error, (writeAll (fun _ => .done) .done [f.lastFile error]).Every
      fun a => ¬ IsTemporary a.name := fun error =>
    .writeAll (fun a ha => hfile error a (by simp [files, List.mem_singleton.mp ha]))
      (fun _ => trivial) trivial
  exact .writeAll (fun a ha => hfile none a (by simp [files, ha])) (fun _ => trivial)
    (.writeAll (fun a ha => hfile none a (by simp [files, ha])) (fun e => hmetadata (some e))
      (hmetadata none))

/-- Metadata is the last that is written, if it is. -/
theorem writes_metadata {failed : String → ExportPlan} (hfailed : ∀ e, failed e = .done)
    (h : (writeAll failed .done [f.lastFile error]).Writes written) :
    written <+: [f.lastFile error] := by
  rcases h.of_writeAll with ⟨tail, htail, rfl⟩ | ⟨n, hn, e, tail, htail, rfl⟩
  · cases htail
    exact List.prefix_rfl
  · rw [hfailed] at htail
    cases htail
    rw [List.append_nil]
    exact List.take_prefix n _

theorem front_files {last : List Artifact} (h : last <+: [f.lastFile error]) :
    f.measurements ++ (written ++ last) <+: f.files written error :=
  (List.prefix_append_right_inj _).mpr ((List.prefix_append_right_inj _).mpr h)

/-- What is written is a front of the artifacts, with event buckets or with why they are missing. -/
theorem writes_front (h : f.plan.Writes written) :
    ∃ buckets error, f.Accounted buckets error ∧ written <+: f.files buckets error := by
  rcases h.of_writeAll with ⟨tail, htail, rfl⟩ | ⟨n, -, e, tail, htail, rfl⟩
  · rcases htail.of_writeAll with ⟨last, hlast, rfl⟩ | ⟨n, hn, e, last, hlast, rfl⟩
    · have hfront : last <+: [f.lastFile none] := writes_metadata (fun _ => rfl) hlast
      exact ⟨f.buckets, none, .inl ⟨rfl, rfl⟩, front_files hfront⟩
    · have hfront : last <+: [f.lastFile (some e)] := writes_metadata (fun _ => rfl) hlast
      exact ⟨f.buckets.take n, some e, .inr ⟨n, hn, rfl, rfl⟩, front_files hfront⟩
  · cases htail
    refine ⟨f.buckets, none, .inl ⟨rfl, rfl⟩, ?_⟩
    rw [List.append_nil]
    exact (List.take_prefix n _).trans (List.prefix_append _ _)

/-- Whenever an export of the subscriber is cut off, by a failure, a kill or a power failure, a
front of its artifacts is there and complete, and the rest is as it was. Metadata that is there
comes with all the measurements, and with the event buckets unless it says why they are missing. -/
theorem metadata_last {disk : Disk String} {events : List ExportEvent} {s : Exporter}
    {view : String → Option (List UInt8)} (hdisk : Exporter.Settled disk)
    (h : exec (Exporter.step f.plan.next) { disk := disk } events = some s)
    (hview : s.Leaves view) :
    ∃ written error, f.Accounted written error ∧
      (∃ n, ∀ name, ¬ IsTemporary name →
        view name = replaced disk.read ((f.files written error).take n) name) ∧
      (view metadataName ≠ disk.read metadataName →
        ∀ a ∈ f.files written error, view a.name = some a.bytes) := by
  have hk := Exporter.kept hdisk (fun outcomes a ha => f.plan_proper.next ha) h
  obtain ⟨front, hfront, hleft⟩ := hk.leaves hview
  obtain ⟨all, hall, hcompleted⟩ := writes_followed hk.followed
  obtain ⟨written, error, haccounted, hfiles⟩ := writes_front hall
  have hprefix := hfront.trans (hcompleted.trans hfiles)
  have hsub := haccounted.sublist
  refine ⟨written, error, haccounted, ⟨front.length, ?_⟩, fun hmeta a ha => ?_⟩
  · rwa [← List.prefix_iff_eq_take.mp hprefix]
  · -- short of the last artifact the metadata would be as it was
    have hnodup : ((f.files written error).map Artifact.name).Nodup := files_nodup hsub
    rw [files, ← List.append_assoc] at hprefix hnodup
    rcases List.prefix_concat_iff.mp hprefix with hall | hshort
    · rw [hleft a.name (file_proper hsub ha), hall, List.append_assoc]
      exact replaced_of_mem (files_nodup hsub) ha
    · refine absurd ?_ hmeta
      rw [hleft _ (proper_of_mem (by decide))]
      refine replaced_of_not_mem fun b hb hname => ?_
      rw [List.map_append, List.nodup_append] at hnodup
      exact hnodup.2.2 b.name (List.mem_map_of_mem (hshort.subset hb)) metadataName
        (List.mem_singleton_self _) hname

/-- The fine event buckets fail, and the power fails when the journal has the metadata. -/
theorem metadata_last_cut_off :
    let f : SubscriberFiles :=
      ⟨[1, 2], [3], none, some ([4], [7]), fun e => if e.isSome then [6] else [5]⟩
    let events := writeOnce ++ writeOnce ++ writeOnce ++
      [.begin, .answer (.error "no space"), .answer (.ok 0)] ++ writeOnce ++ [.commit]
    ∃ s view, exec (Exporter.step f.plan.next) { disk := emptyDisk } events = some s ∧
      view = s.disk.readAfterPowerFailure (fun _ => [9]) ∧ view metadataName = some [6] ∧
      ∃ written error, f.Accounted written error ∧
        (∃ n, ∀ name, ¬ IsTemporary name →
          view name = replaced emptyDisk.read ((f.files written error).take n) name) ∧
        (view metadataName ≠ emptyDisk.read metadataName →
          ∀ a ∈ f.files written error, view a.name = some a.bytes) := by
  intro f events
  obtain ⟨s, h, hview⟩ : ∃ s, exec (Exporter.step f.plan.next) { disk := emptyDisk } events = some s ∧
      s.disk.readAfterPowerFailure (fun _ => [9]) metadataName = some [6] := by
    refine ⟨_, rfl, ?_⟩
    decide +kernel
  exact ⟨s, _, h, rfl, hview, metadata_last emptyDisk_settled h (.inr ⟨_, rfl⟩)⟩

end SubscriberFiles

/-! ## The bench sink -/

/-- The artifacts of `export_to_dir`, in order. -/
def benchNames : List String := ["sequence.csv", "measurement-window.json", "swap_timeline.json",
  "latency.hdr", "service.hdr", "source-lag.hdr", "throughput.csv", "throughput-buckets.json",
  "throughput-buckets-10ms.json", "interval-latency.json"]

def exportErrorsName : String := "export-errors.json"

/-- The artifacts there is something to write for. -/
structure BenchExport where
  artifacts : List Artifact
  listed : (artifacts.map Artifact.name).Sublist benchNames

/-- The artifacts that failed, with their errors. -/
def exportErrors (outcomes : ExportOutcomes) : List (String × String) :=
  outcomes.filterMap fun o =>
    match o.2 with
    | .ok () => none
    | .error e => some (o.1.name, e)

namespace BenchExport

/-- The artifacts one after the other, and then the report of those that failed; `render` gives
its JSON. -/
def next (x : BenchExport) (render : List (String × String) → List UInt8)
    (outcomes : ExportOutcomes) : Option Artifact :=
  match x.artifacts[outcomes.length]? with
  | some a => some a
  | none =>
    if outcomes.length = x.artifacts.length ∧ exportErrors outcomes ≠ [] then
      some ⟨exportErrorsName, render (exportErrors outcomes)⟩
    else none

/-- What `export_to_dir` returns. -/
def result (outcomes : ExportOutcomes) : Except String Unit :=
  match exportErrors outcomes with
  | [] => .ok ()
  | errors =>
    .error ("bench export incomplete: " ++
      "; ".intercalate (errors.map fun e => e.1 ++ ": " ++ e.2))

variable {x : BenchExport} {render : List (String × String) → List UInt8}
  {outcomes : ExportOutcomes}

theorem benchNames_proper {name : String} (h : name ∈ exportErrorsName :: benchNames) :
    ¬ IsTemporary name := by
  have hheads : ∀ name ∈ exportErrorsName :: benchNames, name.toList.head? ≠ some '.' := by decide
  exact not_isTemporary (hheads name h)

theorem artifacts_nodup (x : BenchExport) : (x.artifacts.map Artifact.name).Nodup :=
  x.listed.nodup (by decide)

theorem name_mem {a : Artifact} (h : a ∈ x.artifacts) : a.name ∈ benchNames :=
  x.listed.subset (List.mem_map_of_mem h)

theorem next_proper {a : Artifact} (h : x.next render outcomes = some a) :
    ¬ IsTemporary a.name := by
  unfold next at h
  split at h
  · next b hb =>
    obtain rfl := Option.some.inj h
    exact benchNames_proper (List.mem_cons_of_mem _ (name_mem (List.mem_of_getElem? hb)))
  · split_ifs at h
    obtain rfl := Option.some.inj h
    exact benchNames_proper List.mem_cons_self

/-- The artifacts are attempted in order, and behind them at most a report of the failures. -/
theorem attempted (h : Exporter.Followed (x.next render) outcomes) :
    outcomes.map Prod.fst = x.artifacts.take outcomes.length ∧
        outcomes.length ≤ x.artifacts.length ∨
      ∃ first result,
        outcomes = first ++ [(⟨exportErrorsName, render (exportErrors first)⟩, result)] ∧
        first.map Prod.fst = x.artifacts ∧ exportErrors first ≠ [] := by
  induction outcomes using List.reverseRecOn with
  | nil => exact .inl ⟨rfl, Nat.zero_le _⟩
  | append_singleton outcomes o ih =>
    obtain ⟨hfollowed, hnext⟩ := h.of_append
    obtain ⟨a, result⟩ := o
    unfold next at hnext
    split at hnext
    · next b hb =>
      obtain rfl := Option.some.inj hnext
      obtain ⟨hlt, -⟩ := List.getElem?_eq_some_iff.mp hb
      rcases ih hfollowed with ⟨hfront, -⟩ | ⟨first, report, rfl, hfirst, -⟩
      · refine .inl ⟨?_, ?_⟩
        · rw [List.map_append, hfront, List.length_append, List.length_singleton,
            List.take_add_one, hb]
          rfl
        · rw [List.length_append, List.length_singleton]
          exact hlt
      · rw [List.length_append, List.length_singleton, ← List.length_map Prod.fst, hfirst] at hlt
        omega
    · split_ifs at hnext with hreport
      obtain rfl := Option.some.inj hnext
      rcases ih hfollowed with ⟨hfront, -⟩ | ⟨first, report, rfl, hfirst, -⟩
      · refine .inr ⟨outcomes, result, rfl, ?_, hreport.2⟩
        rw [hfront, hreport.1, List.take_length]
      · have hlen := hreport.1
        rw [List.length_append, List.length_singleton, ← List.length_map Prod.fst, hfirst] at hlen
        omega

theorem mem_completed {a : Artifact} : a ∈ completed outcomes ↔ (a, .ok ()) ∈ outcomes := by
  rw [completed, List.mem_filterMap]
  constructor
  · rintro ⟨⟨b, result⟩, hmem, hb⟩
    cases result with
    | error e => cases hb
    | ok u =>
      obtain rfl := Option.some.inj hb
      exact hmem
  · intro hmem
    exact ⟨_, hmem, rfl⟩

theorem mem_exportErrors {name e : String} :
    (name, e) ∈ exportErrors outcomes ↔ ∃ a, (a, .error e) ∈ outcomes ∧ a.name = name := by
  rw [exportErrors, List.mem_filterMap]
  constructor
  · rintro ⟨⟨b, result⟩, hmem, hb⟩
    cases result with
    | ok u => cases hb
    | error e' =>
      obtain ⟨rfl, rfl⟩ := Prod.mk.inj (Option.some.inj hb)
      exact ⟨b, hmem, rfl⟩
  · rintro ⟨a, hmem, rfl⟩
    exact ⟨_, hmem, rfl⟩

/-- No name is attempted twice. -/
theorem attempted_nodup (h : Exporter.Followed (x.next render) outcomes) :
    ((outcomes.map Prod.fst).map Artifact.name).Nodup := by
  rcases attempted h with ⟨hfront, -⟩ | ⟨first, result, rfl, hfirst, -⟩
  · rw [hfront, List.map_take]
    exact x.artifacts_nodup.sublist (List.take_sublist _ _)
  · rw [List.map_append, hfirst, List.map_append, List.nodup_append]
    refine ⟨x.artifacts_nodup, List.nodup_singleton _, fun name hname other hother => ?_⟩
    obtain ⟨a, ha, rfl⟩ := List.mem_map.mp hname
    obtain rfl := List.mem_singleton.mp hother
    have hlast : exportErrorsName ∉ benchNames := by decide
    intro he
    have hmem := name_mem ha
    rw [he] at hmem
    exact hlast hmem

theorem completed_sublist (outcomes : ExportOutcomes) :
    (completed outcomes).Sublist (outcomes.map Prod.fst) := by
  induction outcomes with
  | nil => exact List.Sublist.slnil
  | cons o outcomes ih =>
    obtain ⟨a, result⟩ := o
    cases result with
    | error e => exact ih.cons _
    | ok u => exact ih.cons_cons _

theorem completed_nodup (h : Exporter.Followed (x.next render) outcomes) :
    ((completed outcomes).map Artifact.name).Nodup :=
  (attempted_nodup h).sublist ((completed_sublist outcomes).map _)

/-- Two attempts at a name are one. -/
theorem attempt_unique (h : Exporter.Followed (x.next render) outcomes) {a b : Artifact}
    {result result' : Except String Unit} (ha : (a, result) ∈ outcomes)
    (hb : (b, result') ∈ outcomes) (hname : a.name = b.name) : result = result' := by
  have hnodup := attempted_nodup h
  rw [List.map_map] at hnodup
  exact congrArg Prod.snd (List.inj_on_of_nodup_map hnodup ha hb hname)

/-- A name of the list stands for one artifact. -/
theorem same_artifact (h : Exporter.Followed (x.next render) outcomes) {a b : Artifact}
    (ha : a ∈ x.artifacts) (hb : b ∈ outcomes.map Prod.fst) (hname : b.name = a.name) : b = a := by
  have hinj : ∀ c ∈ x.artifacts, c.name = a.name → c = a := fun c hc =>
    List.inj_on_of_nodup_map x.artifacts_nodup hc ha
  rcases attempted h with ⟨hfront, -⟩ | ⟨first, result, rfl, hfirst, -⟩
  · rw [hfront] at hb
    exact hinj b (List.mem_of_mem_take hb) hname
  · rw [List.map_append, hfirst] at hb
    rcases List.mem_append.mp hb with hb | hb
    · exact hinj b hb hname
    · obtain rfl := List.mem_singleton.mp hb
      have hmem := name_mem ha
      rw [← hname] at hmem
      exact absurd hmem (by decide : exportErrorsName ∉ benchNames)

/-- An export that has nothing more to write has attempted everything, and reported any failure. -/
theorem attempted_all (h : Exporter.Followed (x.next render) outcomes)
    (hend : x.next render outcomes = none) :
    (∀ a ∈ x.artifacts, a ∈ outcomes.map Prod.fst) ∧
      (exportErrors outcomes = [] ∨ ∃ first result,
        outcomes = first ++ [(⟨exportErrorsName, render (exportErrors first)⟩, result)]) := by
  rcases attempted h with ⟨hfront, hle⟩ | ⟨first, result, rfl, hfirst, -⟩
  · unfold next at hend
    split at hend
    · cases hend
    · next hnone =>
      have hlen : outcomes.length = x.artifacts.length :=
        Nat.le_antisymm hle (List.getElem?_eq_none_iff.mp hnone)
      refine ⟨fun a ha => ?_, .inl ?_⟩
      · rwa [hfront, hlen, List.take_length]
      · by_contra herrors
        rw [if_pos ⟨hlen, herrors⟩] at hend
        cases hend
  · refine ⟨fun a ha => ?_, .inr ⟨first, result, rfl⟩⟩
    rw [List.map_append, hfirst]
    exact List.mem_append_left _ ha

/-- Whenever an export of the bench sink is cut off, each artifact is as it was or complete. If it
comes to its end, exactly the artifacts it names as failed are as they were, and they are listed in
`export-errors.json`, if that is not among them. -/
theorem export_accounts {disk : Disk String} {events : List ExportEvent} {s : Exporter}
    {view : String → Option (List UInt8)} (hdisk : Exporter.Settled disk)
    (h : exec (Exporter.step (x.next render)) { disk := disk } events = some s)
    (hview : s.Leaves view) :
    (∀ a ∈ x.artifacts, view a.name = disk.read a.name ∨ view a.name = some a.bytes) ∧
    (s.pc = .idle → x.next render s.outcomes = none →
      (∀ a ∈ x.artifacts, s.disk.read a.name =
        if a.name ∈ (exportErrors s.outcomes).map Prod.fst then disk.read a.name
        else some a.bytes) ∧
      (result s.outcomes = .ok () ∨
        exportErrorsName ∈ (exportErrors s.outcomes).map Prod.fst ∨
        s.disk.read exportErrorsName = some (render (exportErrors s.outcomes)))) := by
  have hk := Exporter.kept hdisk (fun outcomes a ha => next_proper ha) h
  have hproper : ∀ a ∈ x.artifacts, ¬ IsTemporary a.name := fun a ha =>
    benchNames_proper (List.mem_cons_of_mem _ (name_mem ha))
  constructor
  · intro a ha
    obtain ⟨front, hfront, hleft⟩ := hk.leaves hview
    rw [hleft a.name (hproper a ha)]
    by_cases hmem : a ∈ front
    · exact .inr (replaced_of_mem ((completed_nodup hk.followed).sublist
        (hfront.sublist.map _)) hmem)
    · refine .inl (replaced_of_not_mem fun b hb hname => hmem ?_)
      have hb' := (completed_sublist _).subset (hfront.subset hb)
      exact same_artifact hk.followed ha hb' hname ▸ hb
  · intro hidle hend
    obtain ⟨hall, hreport⟩ := attempted_all hk.followed hend
    have hnodup := completed_nodup hk.followed
    constructor
    · intro a ha
      rw [hk.read a.name (hproper a ha)]
      obtain ⟨⟨b, result⟩, hmem, hba⟩ := List.mem_map.mp (hall a ha)
      obtain rfl : b = a := hba
      cases result with
      | ok u =>
        rw [if_neg, replaced_of_mem hnodup (mem_completed.mpr hmem)]
        intro hfailed
        obtain ⟨⟨name, e⟩, he, hname⟩ := List.mem_map.mp hfailed
        obtain ⟨c, hc, hcname⟩ := mem_exportErrors.mp he
        cases attempt_unique hk.followed hmem hc (hcname.trans hname).symm
      | error e =>
        rw [if_pos (List.mem_map.mpr ⟨(b.name, e), mem_exportErrors.mpr ⟨b, hmem, rfl⟩, rfl⟩)]
        refine replaced_of_not_mem fun c hc hname => ?_
        cases attempt_unique hk.followed hmem (mem_completed.mp hc) hname.symm
    · rcases hreport with hnone | ⟨first, result, hlast⟩
      · exact .inl (by rw [BenchExport.result, hnone])
      · refine .inr ?_
        have hmem : ((⟨exportErrorsName, render (exportErrors first)⟩ : Artifact), result) ∈
            s.outcomes := by
          rw [hlast]
          exact List.mem_append_right _ (List.mem_singleton_self _)
        cases result with
        | error e =>
          exact .inl (List.mem_map.mpr
            ⟨(exportErrorsName, e), mem_exportErrors.mpr ⟨_, hmem, rfl⟩, rfl⟩)
        | ok u =>
          have hsame : exportErrors s.outcomes = exportErrors first := by
            rw [hlast, exportErrors, List.filterMap_append]
            exact List.append_nil _
          refine .inr ?_
          rw [hsame, hk.read _ (benchNames_proper List.mem_cons_self)]
          exact replaced_of_mem hnodup (mem_completed.mpr hmem)

theorem twoFiles_listed : (([⟨"sequence.csv", [1]⟩, ⟨"latency.hdr", [2]⟩] : List Artifact).map
    Artifact.name).Sublist benchNames := by
  decide

/-- Two artifacts of which the first one cannot be renamed. -/
theorem export_accounts_failed :
    let x : BenchExport := ⟨_, twoFiles_listed⟩
    let events := [.begin, .answer (.ok 0), .answer (.ok 0), .answer (.ok 0),
      .answer (.error "is a directory"), .answer (.ok 0)] ++ writeOnce ++ writeOnce
    ∃ s, exec (Exporter.step (x.next fun _ => [7])) { disk := emptyDisk } events = some s ∧
      exportErrors s.outcomes = [("sequence.csv", "is a directory")] ∧
      (∀ a ∈ x.artifacts, s.disk.read a.name =
        if a.name ∈ (exportErrors s.outcomes).map Prod.fst then none else some a.bytes) ∧
      s.disk.read exportErrorsName = some [7] := by
  intro x events
  obtain ⟨s, h, hidle, hend, herrors⟩ : ∃ s,
      exec (Exporter.step (x.next fun _ => [7])) { disk := emptyDisk } events = some s ∧
      s.pc = .idle ∧ x.next (fun _ => [7]) s.outcomes = none ∧
      exportErrors s.outcomes = [("sequence.csv", "is a directory")] := by
    refine ⟨_, rfl, ?_⟩
    exact ⟨rfl, rfl, rfl⟩
  obtain ⟨hall, hreport⟩ := (export_accounts emptyDisk_settled h (.inl rfl)).2 hidle hend
  refine ⟨s, h, herrors, hall, ?_⟩
  rcases hreport with hresult | hfailed | hread
  · rw [result, herrors] at hresult
    cases hresult
  · rw [herrors] at hfailed
    exact absurd hfailed (by decide)
  · exact hread

end BenchExport

end Wafer
