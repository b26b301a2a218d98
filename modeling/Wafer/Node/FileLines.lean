import Wafer.Lib.Execution
import Wafer.Lib.Lines
import Wafer.Lib.Paths
import Wafer.Node.Sink
import Wafer.Queue.Envelope

/-!
# Payloads through a file

`FileSink` writes each payload and a line break, in batches or one by one;
`FileSource` reads a file line by line. What one pipeline has written another
one reads back.

## Main definitions

- `FileSink` — a file sink and the file behind its writer
- `FileSource` — a file source and what it has not read of its file
- `IsLine` — the payloads that a line of text can carry

## Main results

- `FileSink.run_content` — the file and the buffer hold what was collected, in order
- `FileSource.read_eq` — the polls yield the lines that are UTF-8, in order
- `FileSource.reads_back_iff` — the payloads come back exactly when each can be a line
-/

namespace Wafer

open Lib

/-- The byte of the line break. -/
def newline : UInt8 := 10

def carriageReturn : UInt8 := 13

/-! ## The sink -/

/-- A file sink; `content` is the file with what its writer still holds. -/
structure FileSink where
  sink : BatchedSink RuntimeEnvelope
  content : List UInt8

inductive FileSinkCall
  | collect (envelope : RuntimeEnvelope) (io : IoAnswers)
  | flush (io : IoAnswers)
  | close (io : IoAnswers)

/-- The payload of a call to `collect`. -/
def FileSinkCall.payload? : FileSinkCall → Option (List UInt8)
  | .collect envelope _ => some envelope.payload
  | .flush _ | .close _ => none

/-- What `write_batch` writes. -/
def batchLines (batch : List RuntimeEnvelope) : List UInt8 :=
  batch.flatMap fun envelope => envelope.payload ++ [newline]

namespace FileSink

/-- `init` creates the file, or cuts it to nothing. -/
def init (id : String) (batchConfig : SinkBatchConfig) : Option FileSink :=
  ((BatchedSink.withBatching .file id batchConfig).init (.ok ())).map fun s => ⟨s.2, []⟩

def call (f : FileSink) : FileSinkCall → SinkCall RuntimeEnvelope
  | .collect envelope io => f.sink.collect envelope io
  | .flush io => f.sink.flush io
  | .close io => f.sink.close io

/-- The sink after a call that returned `Ok`. -/
def step (f : FileSink) (c : FileSinkCall) : Option FileSink :=
  match (f.call c).result with
  | .ok () => some ⟨(f.call c).sink, f.content ++ batchLines (f.call c).written⟩
  | .error _ => none

def run (f : FileSink) (calls : List FileSinkCall) : Option FileSink := exec step f calls

/-- The file once everything that is buffered is written. -/
def drained (f : FileSink) : List UInt8 := f.content ++ batchLines f.sink.buffered

end FileSink

theorem batchLines_append (batch more : List RuntimeEnvelope) :
    batchLines (batch ++ more) = batchLines batch ++ batchLines more := List.flatMap_append

namespace FileSink

variable {f f' : FileSink} {c : FileSinkCall} {calls : List FileSinkCall}

theorem init_drained {id : String} {batchConfig : SinkBatchConfig}
    (h : init id batchConfig = some f) : f.drained = [] := by
  obtain ⟨⟨result, sink⟩, hinit, rfl⟩ := Option.map_eq_some_iff.mp h
  rw [drained, BatchedSink.init_buffered rfl hinit]
  rfl

/-- A call that returns `Ok` adds the line of its payload to the drained file. -/
theorem step_drained (h : f.step c = some f') :
    f'.drained = f.drained ++ c.payload?.toList.flatMap (· ++ [newline]) := by
  simp only [step] at h
  split at h
  · next hok =>
    obtain rfl := Option.some.inj h
    cases c with
    | collect envelope io =>
      have hbuf := BatchedSink.collect_ok hok
      have hcomm : batchLines (f.sink.collect envelope io).written ++
            batchLines (f.sink.collect envelope io).sink.buffered =
          batchLines (f.sink.buffered ++ [envelope]) := by
        rw [← hbuf, batchLines_append]
        -- a full batch is written at once, so one of the two is empty
        have hapart : (f.sink.collect envelope io).sink.buffered = [] ∨
            (f.sink.collect envelope io).written = [] := BatchedSink.collect_apart
        rcases hapart with h | h
        · rw [h]
          exact List.append_nil _
        · rw [h]
          exact (List.append_nil _).symm
      simp only [drained, call, List.append_assoc, hcomm]
      rw [batchLines_append]
      rfl
    | flush io =>
      have hdrain := BatchedSink.drain_ok (BatchedSink.flush_ok hok)
      simp only [drained, call, BatchedSink.flush_written, BatchedSink.flush_buffered, hdrain,
        FileSinkCall.payload?]
      rfl
    | close io =>
      have hflush : (f.sink.flush io).result = .ok () := by
        simp only [call, BatchedSink.close] at hok
        split at hok
        · next herr => exact hok
        · next hres => exact hres
      have hdrain := BatchedSink.drain_ok (BatchedSink.flush_ok hflush)
      simp only [drained, call, BatchedSink.close_written, BatchedSink.close_buffered, hdrain,
        FileSinkCall.payload?]
      rfl
  · cases h

/-- The file and the buffer hold what was collected, in order. -/
theorem run_content (h : f.run calls = some f') :
    f'.drained =
      f.drained ++ (calls.filterMap FileSinkCall.payload?).flatMap (· ++ [newline]) := by
  induction calls generalizing f with
  | nil =>
    obtain rfl := Option.some.inj h
    exact (List.append_nil _).symm
  | cons c calls ih =>
    obtain ⟨g, hstep, hrun⟩ := exec_cons_eq_some h
    rw [ih hrun, step_drained hstep, List.append_assoc, ← List.flatMap_append]
    congr 2
    cases hp : c.payload? with
    | none => rw [List.filterMap_cons_none hp]; rfl
    | some payload => rw [List.filterMap_cons_some hp]; rfl

/-- A closed sink holds nothing back. -/
theorem run_close {io : IoAnswers} (h : f.run (calls ++ [.close io]) = some f') :
    f'.drained = f'.content := by
  obtain ⟨g, -, hclose⟩ := Option.bind_eq_some_iff.mp ((exec_append calls [.close io]).symm.trans h)
  obtain ⟨g', hstep, hnil⟩ := exec_cons_eq_some hclose
  obtain rfl := Option.some.inj hnil
  simp only [step] at hstep
  split at hstep
  · obtain rfl := Option.some.inj hstep
    rw [drained, call, BatchedSink.close_buffered]
    exact List.append_nil _
  · cases hstep

end FileSink

/-! ## The source -/

/-- `Path::extension`. -/
def pathExtension (path : String) : Option (List Char) :=
  match (components path.toList).getLast? with
  | some (.normal name) =>
    match rsplitOnce '.' name with
    | some (stem, ext) => if stem = [] then none else some ext
    | none => none
  | _ => none

structure FileSource where
  id : String
  path : String
  /-- what is left of the file, once it is open -/
  reader : Option (List UInt8) := none
  binarySent : Bool := false

namespace FileSource

/-- The calls of `read_line` up to the first line of text; the others are skipped. -/
def nextLine (rest : List UInt8) : Option (List UInt8) × List UInt8 :=
  if _ : rest = [] then (none, [])
  else if isUtf8 (cutLine newline rest).1 then
    (some (cutLine newline rest).1, (cutLine newline rest).2)
  else nextLine (cutLine newline rest).2
termination_by rest.length
decreasing_by
  have hpos := List.length_pos_of_ne_nil ‹¬ rest = []›
  have hcut : (cutLine newline rest).2.length ≤ rest.length - 1 := length_cutLine
  omega

/-- The line without the line breaks, and then the carriage returns, at its end. -/
def linePayload (line : List UInt8) : List UInt8 := trimEnd carriageReturn (trimEnd newline line)

/-- The envelope of a payload, with its generated id and the time. -/
def envelope (s : FileSource) (stamp : String × Nat) (payload : List UInt8) : RuntimeEnvelope :=
  let fresh := RuntimeEnvelope.new stamp.1 stamp.2 s.id payload
  { fresh with
    header := { fresh.header with
      metadata := fresh.header.metadata ++ [("source_route", s.path)] } }

/-- `init`, on a file with the given content. -/
def init (s : FileSource) (content : List UInt8) : FileSource :=
  { s with reader := some content, binarySent := false }

/-- `poll`, where reading the file does not fail. -/
def poll (s : FileSource) (stamp : String × Nat) :
    Except String (Option RuntimeEnvelope) × FileSource :=
  match s.reader with
  | none =>
    (.error ("plugin initialization failed: " ++
      "FileSource not initialized - call init() first"), s)
  | some rest =>
    if pathExtension s.path = some ['b', 'i', 'n'] then
      if s.binarySent then (.ok none, s)
      else (.ok (some (s.envelope stamp rest)), { s with reader := some [], binarySent := true })
    else match nextLine rest with
      | (none, rest) => (.ok none, { s with reader := some rest })
      | (some line, rest) =>
        (.ok (some (s.envelope stamp (linePayload line))), { s with reader := some rest })

/-- The source after some polls. -/
def polled (s : FileSource) (stamps : ℕ → String × Nat) : ℕ → FileSource
  | 0 => s
  | n + 1 => ((s.polled stamps n).poll (stamps n)).2

/-- What the poll with the given number yields. -/
def read (s : FileSource) (stamps : ℕ → String × Nat) (n : ℕ) :
    Except String (Option RuntimeEnvelope) := ((s.polled stamps n).poll (stamps n)).1

/-- The lines of a text that a source does not skip. -/
def textLines (text : List UInt8) : List (List UInt8) := (lines newline text).filter isUtf8

theorem nextLine_eq (rest : List UInt8) :
    (nextLine rest).1 = (textLines rest).head? ∧
      textLines (nextLine rest).2 = (textLines rest).tail := by
  induction rest using nextLine.induct with
  | case1 =>
    rw [nextLine, dif_pos rfl]
    exact ⟨rfl, rfl⟩
  | case2 rest hne hutf =>
    rw [nextLine, dif_neg hne, if_pos hutf, textLines, lines_cutLine hne,
      List.filter_cons_of_pos hutf]
    exact ⟨rfl, rfl⟩
  | case3 rest hne hutf ih =>
    have hskip : textLines rest = textLines (cutLine newline rest).2 := by
      rw [textLines, lines_cutLine hne, List.filter_cons_of_neg hutf]
      rfl
    rw [nextLine, dif_neg hne, if_neg hutf, hskip]
    exact ih

variable {s : FileSource} {text : List UInt8} {stamps : ℕ → String × Nat}

/-- A source of lines yields the first line of text there is, and goes behind it. -/
theorem poll_lines (hpath : pathExtension s.path ≠ some ['b', 'i', 'n'])
    (hreader : s.reader = some text) (stamp : String × Nat) :
    (s.poll stamp).1 =
        .ok ((textLines text).head?.map fun line => s.envelope stamp (linePayload line)) ∧
      ∃ rest, (s.poll stamp).2 = { s with reader := some rest } ∧
        textLines rest = (textLines text).tail := by
  obtain ⟨hhead, htail⟩ := nextLine_eq text
  simp only [poll, hreader, if_neg hpath]
  rw [← hhead]
  split
  · next hline =>
    rw [hline] at htail
    rw [hline]
    exact ⟨rfl, _, rfl, htail⟩
  · next hline =>
    rw [hline] at htail
    rw [hline]
    exact ⟨rfl, _, rfl, htail⟩

theorem polled_lines (text : List UInt8) (stamps : ℕ → String × Nat)
    (hpath : pathExtension s.path ≠ some ['b', 'i', 'n']) (n : ℕ) :
    ∃ rest, (s.init text).polled stamps n = s.init rest ∧
      textLines rest = (textLines text).drop n := by
  induction n with
  | zero => exact ⟨text, rfl, rfl⟩
  | succ n ih =>
    obtain ⟨rest, hpolled, hrest⟩ := ih
    obtain ⟨-, rest', hs, hrest'⟩ := (s.init rest).poll_lines hpath rfl (stamps n)
    refine ⟨rest', ?_, ?_⟩
    · rw [polled, hpolled, hs]
      rfl
    · rw [hrest', hrest, List.tail_drop]

/-- The polls yield the lines that are UTF-8, in order, and then nothing. -/
theorem read_eq (hpath : pathExtension s.path ≠ some ['b', 'i', 'n']) (n : ℕ) :
    (s.init text).read stamps n =
      .ok ((textLines text)[n]?.map fun line => s.envelope (stamps n) (linePayload line)) := by
  obtain ⟨rest, hpolled, hrest⟩ := polled_lines text stamps hpath n
  rw [read, hpolled, ((s.init rest).poll_lines hpath rfl (stamps n)).1, hrest, List.head?_drop]
  rfl

end FileSource

/-! ## The round trip -/

/-- A payload that a line of text can carry: one line of UTF-8 that no carriage return ends. -/
structure IsLine (payload : List UInt8) : Prop where
  single : newline ∉ payload
  utf8 : isUtf8 payload = true
  trimmed : payload.getLast? ≠ some carriageReturn

namespace FileSource

/-- What a file source yields is such a payload. -/
theorem isLine_linePayload {line text : List UInt8} (h : line ∈ textLines text) :
    IsLine (linePayload line) := by
  obtain ⟨hline, hutf⟩ := List.mem_filter.mp h
  refine ⟨not_mem_trimEnd (not_mem_trimEnd_line hline), ?_, getLast?_trimEnd⟩
  rw [linePayload, isUtf8_trimEnd (show String.utf8EncodeChar '\r' = [carriageReturn] from rfl),
    isUtf8_trimEnd (show String.utf8EncodeChar '\n' = [newline] from rfl), hutf]

theorem linePayload_line {payload : List UInt8} (h : IsLine payload) :
    linePayload (payload ++ [newline]) = payload := by
  have hlast : payload.getLast? ≠ some newline := fun hl => h.single (List.mem_of_getLast? hl)
  rw [linePayload, trimEnd_append, trimEnd_of_getLast? hlast, trimEnd_of_getLast? h.trimmed]

/-- Payloads that are lines are the lines of their file. -/
theorem textLines_flatMap {payloads : List (List UInt8)} (h : ∀ p ∈ payloads, IsLine p) :
    (textLines (payloads.flatMap (· ++ [newline]))).map linePayload = payloads := by
  have hutf : ∀ line ∈ payloads.map (· ++ [newline]), isUtf8 line = true := by
    intro line hline
    obtain ⟨p, hp, rfl⟩ := List.mem_map.mp hline
    rw [isUtf8_append (show String.utf8EncodeChar '\n' = [newline] from rfl), (h p hp).utf8]
  rw [textLines, lines_flatMap fun p hp => (h p hp).single, List.filter_eq_self.mpr hutf,
    List.map_map]
  conv_rhs => rw [← List.map_id payloads]
  exact List.map_congr_left fun p hp => linePayload_line (h p hp)

/-- Whatever a file sink has written in a run without an error, with any batches, comes back
payload by payload from a source of lines exactly when each payload can be a line. -/
theorem reads_back_iff {id : String} {batchConfig : SinkBatchConfig} {f f' : FileSink}
    {calls : List FileSinkCall} {io : IoAnswers} (source : FileSource)
    (stamps : ℕ → String × Nat) (hinit : FileSink.init id batchConfig = some f)
    (hrun : f.run (calls ++ [.close io]) = some f')
    (hpath : pathExtension source.path ≠ some ['b', 'i', 'n']) :
    (∀ n, ((source.init f'.content).read stamps n).map (Option.map RuntimeEnvelope.payload) =
        .ok ((calls.filterMap FileSinkCall.payload?)[n]?)) ↔
      ∀ payload ∈ calls.filterMap FileSinkCall.payload?, IsLine payload := by
  set payloads := calls.filterMap FileSinkCall.payload? with hpayloads
  have hcontent : f'.content = payloads.flatMap (· ++ [newline]) := by
    have hkept := FileSink.run_content hrun
    rw [FileSink.run_close hrun, FileSink.init_drained hinit, List.nil_append,
      List.filterMap_append] at hkept
    rw [hkept, hpayloads]
    exact congrArg _ (List.append_nil _)
  have hread : ∀ n, ((source.init f'.content).read stamps n).map
      (Option.map RuntimeEnvelope.payload) =
        .ok (((textLines f'.content).map linePayload)[n]?) := by
    intro n
    rw [read_eq hpath, List.getElem?_map]
    cases (textLines f'.content)[n]? with
    | none => rfl
    | some line => rfl
  constructor
  · intro h payload hmem
    obtain ⟨n, hn⟩ := List.mem_iff_getElem?.mp hmem
    have hsame := Except.ok.inj ((hread n).symm.trans (h n))
    rw [hn, List.getElem?_map] at hsame
    obtain ⟨line, hline, rfl⟩ := Option.map_eq_some_iff.mp hsame
    exact isLine_linePayload (List.mem_of_getElem? hline)
  · intro h n
    rw [hread, hcontent, textLines_flatMap h]

/-- Three payloads in batches of two, and the empty one among them. -/
theorem reads_back_batched :
    let calls : List FileSinkCall := [.collect (.new "a" 1 "s" [104, 105]) ⟨.ok (), .ok ()⟩,
      .collect (.new "b" 2 "s" []) ⟨.ok (), .ok ()⟩,
      .collect (.new "c" 3 "s" [195, 164]) ⟨.ok (), .ok ()⟩]
    let content := [104, 105, 10, 10, 195, 164, 10]
    ∀ n, ((FileSource.init ⟨"t", "out.txt", none, false⟩ content).read
        (fun k => (toString k, k)) n).map (Option.map RuntimeEnvelope.payload) =
      .ok ((calls.filterMap FileSinkCall.payload?)[n]?) := by
  intro calls content
  let start : FileSink :=
    ⟨⟨.file, "k", ⟨some 2, none⟩, .batching ⟨[], 2, Nat.le_of_ble_eq_true rfl⟩⟩, []⟩
  have hinit : FileSink.init "k" ⟨some 2, none⟩ = some start := rfl
  have hrun : start.run (calls ++ [.close ⟨.ok (), .ok ()⟩]) =
      some ⟨⟨.file, "k", ⟨some 2, none⟩, .closed⟩, content⟩ := rfl
  refine (reads_back_iff ⟨"t", "out.txt", none, false⟩ _ hinit hrun ?_).mpr ?_
  · decide
  intro payload hmem
  have hcases : payload = [104, 105] ∨ payload = [] ∨ payload = [195, 164] := by
    simpa [calls, FileSinkCall.payload?, RuntimeEnvelope.new] using hmem
  rcases hcases with rfl | rfl | rfl
  · exact ⟨by decide, by decide, by decide⟩
  · exact ⟨by decide, by decide, by decide⟩
  · exact ⟨by decide, by decide, by decide⟩

end FileSource

end Wafer
