import Mathlib.Order.Interval.Finset.Nat
import Wafer.Lib.Runs
import Wafer.Types.Measurement

/-!
# Exact sequence accounting

The figures a tracker reports are computed apart: counters while it records,
the population from its bounds or the highest number it marked, the missing
ranges by a scan of the bitset. They agree for every list of numbers, and once
the start is anchored they do not depend on the order of arrival.

## Main definitions

- `SequenceTracker.recordAll`, `expected`, `missing`, `missingRanges`
- `Population` — the numbers a run is accountable for
- `SequenceTracker.AccountsFor`, `SameFigures`
-/

namespace Wafer

open Lib

/-- `usize::MAX` of a 64-bit target. -/
def usizeMax : ℕ := 2 ^ 64 - 1

/-- Runs of missing sequence numbers, inclusive on both ends. -/
structure MissingRanges where
  ranges : List (ℕ × ℕ) := []
  total : ℕ := 0
  deriving DecidableEq, Repr

def MissingRanges.truncated (m : MissingRanges) : Bool := m.ranges.length < m.total

def MissingRanges.push (m : MissingRanges) (start first last limit : ℕ) : MissingRanges where
  total := m.total + 1
  ranges :=
    if m.ranges.length < limit then m.ranges ++ [(satAdd start first, satAdd start last)]
    else m.ranges

namespace SequenceTracker

/-- A tracker over a population that starts at 0. -/
def new : SequenceTracker := {}

/-- A tracker whose population starts at the first number it is told about. -/
def unanchored : SequenceTracker := { start := none }

/-- Both anchors, each where the caller has one. -/
def anchored (t : SequenceTracker) (start finish : Option ℕ) : SequenceTracker :=
  let t := start.elim t t.anchorStart
  finish.elim t t.anchorEnd

def recordAll (t : SequenceTracker) (seqs : List ℕ) : SequenceTracker :=
  seqs.foldl (fun t seq => (t.record seq).2) t

def expected (t : SequenceTracker) : ℕ :=
  match t.start with
  | none => 0
  | some start =>
    match t.finish.or (t.highest.map (satAdd · 1)) with
    | none => 0
    | some finish => min (finish - start) maxTrackedSequences

def missing (t : SequenceTracker) : ℕ := t.expected - t.unique

/-- One index of the scan for missing numbers. -/
def scanIndex (t : SequenceTracker) (start limit : ℕ) (scan : MissingRanges × Option ℕ)
    (index : ℕ) : MissingRanges × Option ℕ :=
  match t.isSeen index, scan.2 with
  | false, none => (scan.1, some index)
  | true, some first => (scan.1.push start first (index - 1) limit, none)
  | _, _ => scan

def missingRanges (t : SequenceTracker) : MissingRanges :=
  let limit := t.maxExamples.getD usizeMax
  match t.start with
  | none => {}
  | some start =>
    let (result, runStart) := (List.range t.expected).foldl (t.scanIndex start limit) ({}, none)
    match runStart with
    | some first => result.push start first (t.expected - 1) limit
    | none => result

end SequenceTracker

/-! ## What a run is accountable for -/

/-- The numbers a tracker marks: from the start, below a declared end, and within the cap. -/
def InRange (start : ℕ) (finish : Option ℕ) (n : ℕ) : Prop :=
  start ≤ n ∧ (∀ e ∈ finish, n < e) ∧ n - start < maxTrackedSequences
  deriving Decidable

/-- The recorded numbers that were in range. -/
def Marked (start : ℕ) (finish : Option ℕ) (seqs : List ℕ) : Set ℕ :=
  {n | n ∈ seqs ∧ InRange start finish n}

/-- The numbers in range; without a declared end they go up to the highest one marked. -/
def Population (start finish : Option ℕ) (seqs : List ℕ) : Set ℕ :=
  {n | ∃ s ∈ start, InRange s finish n ∧ (finish = none → ∃ m ∈ Marked s finish seqs, n ≤ m)}

/-- The population numbers that were never recorded. -/
def NeverRecorded (start finish : Option ℕ) (seqs : List ℕ) : Set ℕ :=
  {n | n ∈ Population start finish seqs ∧ n ∉ seqs}

namespace SequenceTracker

/-- The figures of a tracker are those of the recorded list. -/
structure AccountsFor (start finish : Option ℕ) (seqs : List ℕ) (t : SequenceTracker) : Prop where
  received : t.received = seqs.length
  classified : t.received = t.unique + t.duplicates + t.outOfRange
  unique : t.unique = {n | n ∈ seqs ∧ n ∈ Population start finish seqs}.ncard
  expected : t.expected = (Population start finish seqs).ncard
  ranges : ∀ a b, (a, b) ∈ t.missingRanges.ranges ↔
    MaximalRun (NeverRecorded start finish seqs) a b
  ascending : t.missingRanges.ranges.Pairwise fun r r' => r.2 + 1 < r'.1
  listed : t.missingRanges.truncated = false
  missing : t.missing = (t.missingRanges.ranges.map runLength).sum

structure SameFigures (t t' : SequenceTracker) : Prop where
  received : t.received = t'.received
  unique : t.unique = t'.unique
  duplicates : t.duplicates = t'.duplicates
  outOfRange : t.outOfRange = t'.outOfRange
  expected : t.expected = t'.expected
  missing : t.missing = t'.missing
  missingRanges : t.missingRanges = t'.missingRanges

/-! ## The bitset -/

variable {t t' : SequenceTracker} {lo index i n : ℕ} {finish : Option ℕ} {seqs : List ℕ}

/-- A slot's mask picks the bit of its index. -/
theorem and_mask_ne_zero (bits : BitVec 64) (index : ℕ) :
    decide (bits &&& (slot index).2 ≠ 0#64) = bits.getLsbD (index % 64) := by
  have hlt : index % 64 < 64 := Nat.mod_lt _ (by decide)
  have hne : BitVec.twoPow 64 (index % 64) ≠ 0#64 := by
    intro h
    have hbit := congrArg (·.getLsbD (index % 64)) h
    simp only [BitVec.getLsbD_twoPow, hlt, BitVec.getLsbD_zero, decide_true, Bool.and_true,
      Bool.true_eq_false] at hbit
  rw [slot, ← BitVec.twoPow_eq, BitVec.and_twoPow]
  by_cases h : bits.getLsbD (index % 64)
  · rw [if_pos h, h, decide_eq_true hne]
  · rw [if_neg h, Bool.eq_false_iff.mpr h]
    rfl

theorem isSeen_eq (t : SequenceTracker) (index : ℕ) :
    t.isSeen index = (t.seen.getD (index / 64) 0#64).getLsbD (index % 64) := by
  simp only [isSeen, List.getD_eq_getElem?_getD]
  rw [show (slot index).1 = index / 64 from rfl]
  cases t.seen[index / 64]? with
  | none => simp only [Option.getD_none, BitVec.getLsbD_zero]
  | some bits => exact and_mask_ne_zero bits index

/-- Marking grows the bitset as far as needed and sets one bit. -/
theorem getD_seen_mark (t : SequenceTracker) (index word : ℕ) :
    (t.mark index).seen.getD word 0#64 =
      if word = index / 64 then t.seen.getD word 0#64 ||| (slot index).2
      else t.seen.getD word 0#64 := by
  have hgrown : (t.seen ++ List.replicate (index / 64 + 1 - t.seen.length) 0#64).getD word 0#64 =
      t.seen.getD word 0#64 := by
    simp only [List.getD_eq_getElem?_getD, List.getElem?_append, List.getElem?_replicate]
    by_cases hword : word < t.seen.length
    · rw [if_pos hword]
    · rw [if_neg hword, List.getElem?_eq_none (Nat.not_lt.mp hword)]
      split <;> rfl
  rw [← hgrown]
  simp only [mark, slot, List.getD_eq_getElem?_getD, List.getElem?_modify]
  by_cases hword : word = index / 64
  · subst hword
    have hlen : index / 64 <
        (t.seen ++ List.replicate (index / 64 + 1 - t.seen.length) 0#64).length := by
      rw [List.length_append, List.length_replicate]
      omega
    rw [if_pos rfl, List.getElem?_eq_getElem hlen]
    simp
  · rw [if_neg hword]
    simp [Ne.symm hword]

theorem isSeen_mark (t : SequenceTracker) (index i : ℕ) :
    (t.mark index).isSeen i = (t.isSeen i || decide (i = index)) := by
  rw [isSeen_eq, isSeen_eq, getD_seen_mark]
  by_cases hword : i / 64 = index / 64
  · have hbit : i % 64 = index % 64 ↔ i = index := by omega
    have hlt : index % 64 < 64 := Nat.mod_lt _ (by decide)
    rw [if_pos hword, slot, ← BitVec.twoPow_eq, BitVec.getLsbD_or, BitVec.getLsbD_twoPow,
      decide_eq_true hlt, Bool.true_and]
    congr 1
    rw [decide_eq_decide, ← hbit]
    exact eq_comm
  · have hne : i ≠ index := fun h => hword (h ▸ rfl)
    rw [if_neg hword, decide_eq_false hne, Bool.or_false]

/-- Every recorded number adds to one counter, and a duplicate to that of the duplicates. -/
theorem record_counts (t : SequenceTracker) (n : ℕ) :
    (t.record n).2.duplicates = t.duplicates + (if (t.record n).1.isDuplicate then 1 else 0) ∧
      (t.record n).2.unique + (t.record n).2.outOfRange =
        t.unique + t.outOfRange + (if (t.record n).1.isDuplicate then 0 else 1) := by
  simp only [record]
  split
  · exact ⟨rfl, rfl⟩
  · split
    · split
      · exact ⟨rfl, rfl⟩
      · exact ⟨rfl, rfl⟩
    · refine ⟨rfl, ?_⟩
      simp only [mark, anchorStart, SequenceOutcome.isDuplicate, Bool.false_eq_true, if_false]
      omega

/-! ## Recording -/

/-- What the fields of a tracker that starts at `lo` say of the numbers it was given. -/
structure Tracks (lo : ℕ) (finish : Option ℕ) (seqs : List ℕ) (t : SequenceTracker) : Prop where
  start : t.start = some lo
  declared : t.finish = finish
  unlimited : t.maxExamples = none
  seen : ∀ index, t.isSeen index = true ↔ lo + index ∈ Marked lo finish seqs
  highest : ∀ n, t.highest = some n ↔ IsGreatest (Marked lo finish seqs) n
  received : t.received = seqs.length
  unique : t.unique = (Marked lo finish seqs).ncard
  outOfRange : t.outOfRange = seqs.countP fun n => ¬ InRange lo finish n
  classified : t.received = t.unique + t.duplicates + t.outOfRange

theorem marked_finite (lo : ℕ) (finish : Option ℕ) (seqs : List ℕ) :
    (Marked lo finish seqs).Finite :=
  seqs.finite_toSet.subset fun _ h => h.1

theorem marked_snoc_of_inRange (h : InRange lo finish n) :
    Marked lo finish (seqs ++ [n]) = insert n (Marked lo finish seqs) := by
  ext m
  simp only [Marked, List.mem_append, List.mem_singleton, Set.mem_ofPred_eq, Set.mem_insert_iff]
  constructor
  · rintro ⟨hm | rfl, hin⟩
    · exact .inr ⟨hm, hin⟩
    · exact .inl rfl
  · rintro (rfl | hm)
    · exact ⟨.inr rfl, h⟩
    · exact ⟨.inl hm.1, hm.2⟩

theorem marked_snoc_of_outOfRange (h : ¬ InRange lo finish n) :
    Marked lo finish (seqs ++ [n]) = Marked lo finish seqs := by
  ext m
  simp only [Marked, List.mem_append, List.mem_singleton, Set.mem_ofPred_eq]
  constructor
  · rintro ⟨hm | rfl, hin⟩
    · exact ⟨hm, hin⟩
    · exact absurd hin h
  · intro hm
    exact ⟨.inl hm.1, hm.2⟩

theorem indexOf_eq (hs : t.start = some lo) (hf : t.finish = finish) (n : ℕ) :
    t.indexOf n = if InRange lo finish n then some (n - lo) else none := by
  simp only [indexOf, hs, hf]
  by_cases hin : InRange lo finish n
  · rw [if_neg (Nat.not_lt.mpr hin.1), if_pos hin.2, if_pos hin]
  · rw [if_neg hin]
    by_cases hlt : n < lo
    · rw [if_pos hlt]
    · rw [if_neg hlt, if_neg fun h => hin ⟨Nat.not_lt.mp hlt, h⟩]

theorem eq_empty_of_no_greatest {S : Set ℕ} (hS : S.Finite) (h : ∀ m, ¬ IsGreatest S m) :
    S = ∅ := by
  by_contra hne
  obtain ⟨m, hm⟩ := hS.exists_maximal (Set.nonempty_iff_ne_empty.mpr hne)
  apply h m
  constructor
  · exact hm.prop
  · intro k hk
    by_cases hle : k ≤ m
    · exact hle
    · exact hm.le_of_ge hk (by omega)

/-- The higher of the highest number so far and one more is the greatest with it. -/
theorem isGreatest_insert {S : Set ℕ} {highest : Option ℕ}
    (h : ∀ m, highest = some m ↔ IsGreatest S m) (hS : S.Finite) (m : ℕ) :
    some (highest.elim n (max · n)) = some m ↔ IsGreatest (insert n S) m := by
  have hgreatest : IsGreatest (insert n S) (highest.elim n (max · n)) := by
    cases highest with
    | none =>
      have hempty : S = ∅ := eq_empty_of_no_greatest hS fun m hm => nomatch (h m).mpr hm
      rw [hempty]
      exact ⟨Set.mem_insert _ _, by rintro k (rfl | hk); exacts [le_refl _, hk.elim]⟩
    | some top =>
      obtain ⟨hmem, htop⟩ := (h top).mp rfl
      constructor
      · by_cases hle : top ≤ n
        · exact .inl (max_eq_right hle)
        · exact .inr (by rwa [Option.elim_some, max_eq_left (by omega)])
      · rintro k (rfl | hk)
        · exact le_max_right _ _
        · exact (htop hk).trans (le_max_left _ _)
  constructor
  · intro he
    exact Option.some.inj he ▸ hgreatest
  · intro hm
    rw [hgreatest.unique hm]

theorem anchorStart_of_some (hs : t.start = some lo) (n : ℕ) : t.anchorStart n = t := by
  simp only [anchorStart, hs, Option.some_or]
  rw [← hs]

@[simp] theorem indexOf_received (t : SequenceTracker) (received n : ℕ) :
    indexOf { t with received } n = t.indexOf n := rfl

theorem isSeen_of_seen (h : t.seen = t'.seen) (index : ℕ) : t.isSeen index = t'.isSeen index := by
  simp only [isSeen, h]

@[simp] theorem isSeen_received (t : SequenceTracker) (received index : ℕ) :
    isSeen { t with received } index = t.isSeen index :=
  isSeen_of_seen rfl index

theorem record_outOfRange (hs : t.start = some lo) (hn : ¬ InRange lo t.finish n) :
    (t.record n).2 = { t with received := t.received + 1, outOfRange := t.outOfRange + 1 } := by
  simp only [record, anchorStart_of_some hs, indexOf_received, indexOf_eq hs rfl, if_neg hn]

theorem record_duplicate (hs : t.start = some lo) (hn : InRange lo t.finish n)
    (hseen : t.isSeen (n - lo) = true) (hlimit : t.maxExamples = none) :
    (t.record n).2 =
      { t with
        received := t.received + 1
        duplicates := t.duplicates + 1
        duplicateExamples := t.duplicateExamples ++ [n] } := by
  have hkept : ∀ limit ∈ t.maxExamples, t.duplicateExamples.length < limit := by
    rw [hlimit]
    exact nofun
  simp only [record, anchorStart_of_some hs, indexOf_received, indexOf_eq hs rfl, if_pos hn,
    isSeen_received, hseen, if_true]
  rw [if_pos hkept]

theorem record_unique (hs : t.start = some lo) (hn : InRange lo t.finish n)
    (hseen : t.isSeen (n - lo) = false) :
    ∃ outOfOrder, (t.record n).2 =
      { t with
        seen := (t.mark (n - lo)).seen
        received := t.received + 1
        unique := t.unique + 1
        outOfOrder
        highest := some (t.highest.elim n (max · n)) } := by
  simp only [record, anchorStart_of_some hs, indexOf_received, indexOf_eq hs rfl, if_pos hn,
    isSeen_received, hseen, Bool.false_eq_true, if_false]
  exact ⟨_, rfl⟩

theorem Tracks.record (h : Tracks lo finish seqs t) (n : ℕ) :
    Tracks lo finish (seqs ++ [n]) (t.record n).2 := by
  have hlength : (seqs ++ [n]).length = seqs.length + 1 := by simp
  by_cases hn : InRange lo finish n
  · have hfin := h.declared
    subst hfin
    have hindex : lo + (n - lo) = n := Nat.add_sub_cancel' hn.1
    have hout : (seqs ++ [n]).countP (fun m => ¬ InRange lo t.finish m) =
        seqs.countP fun m => ¬ InRange lo t.finish m := by
      simp [hn]
    by_cases hseen : t.isSeen (n - lo) = true
    -- a duplicate: the marks stay, and only the counters move
    · have hmem : n ∈ Marked lo t.finish seqs := hindex ▸ (h.seen _).mp hseen
      have hmarked : Marked lo t.finish (seqs ++ [n]) = Marked lo t.finish seqs := by
        rw [marked_snoc_of_inRange hn, Set.insert_eq_of_mem hmem]
      rw [record_duplicate h.start hn hseen h.unlimited]
      refine ⟨h.start, rfl, h.unlimited, ?_, ?_, ?_, ?_, ?_, ?_⟩
      · rw [hmarked]
        exact h.seen
      · rw [hmarked]
        exact h.highest
      · rw [hlength, ← h.received]
      · rw [hmarked]
        exact h.unique
      · rw [hout]
        exact h.outOfRange
      · have := h.classified
        simp only
        omega
    -- a first arrival: one mark more
    · rw [Bool.not_eq_true] at hseen
      have hnew : n ∉ Marked lo t.finish seqs := by
        intro hmem
        have := (h.seen (n - lo)).mpr (hindex.symm ▸ hmem)
        exact absurd (hseen.symm.trans this) (by decide)
      obtain ⟨outOfOrder, he⟩ := record_unique h.start hn hseen
      rw [he]
      have hmarked : Marked lo t.finish (seqs ++ [n]) = _ := marked_snoc_of_inRange hn
      refine ⟨h.start, rfl, h.unlimited, ?_, ?_, ?_, ?_, ?_, ?_⟩
      · intro index
        have hmark : (t.mark (n - lo)).isSeen index = true ↔ _ :=
          Bool.eq_iff_iff.mp (isSeen_mark t (n - lo) index)
        have hat : index = n - lo ↔ lo + index = n := by omega
        rw [Bool.or_eq_true, h.seen, decide_eq_true_iff, hat, or_comm] at hmark
        rw [hmarked, Set.mem_insert_iff, ← hmark]
        rfl
      · intro m
        rw [hmarked]
        exact isGreatest_insert h.highest (marked_finite ..) m
      · rw [hlength, ← h.received]
      · rw [hmarked, Set.ncard_insert_of_notMem hnew (marked_finite ..), ← h.unique]
      · rw [hout]
        exact h.outOfRange
      · have := h.classified
        simp only
        omega
  -- outside the population nothing is marked
  · have hmarked : Marked lo finish (seqs ++ [n]) = _ := marked_snoc_of_outOfRange hn
    have hn' : ¬ InRange lo t.finish n := h.declared ▸ hn
    rw [record_outOfRange h.start hn']
    refine ⟨h.start, h.declared, h.unlimited, ?_, ?_, ?_, ?_, ?_, ?_⟩
    · rw [hmarked]
      exact h.seen
    · rw [hmarked]
      exact h.highest
    · rw [hlength, ← h.received]
    · rw [hmarked]
      exact h.unique
    · simp [hn, h.outOfRange]
    · have := h.classified
      simp only
      omega

theorem Tracks.recordAll (h : Tracks lo finish seqs t) (more : List ℕ) :
    Tracks lo finish (seqs ++ more) (t.recordAll more) := by
  induction more generalizing t seqs with
  | nil =>
    rw [List.append_nil]
    exact h
  | cons n more ih =>
    have hstep := ih (h.record n)
    rwa [List.append_assoc] at hstep

theorem Tracks.start_ (lo : ℕ) (finish : Option ℕ) :
    Tracks lo finish [] { start := some lo, finish } := by
  have hempty : Marked lo finish [] = ∅ := by
    ext m
    simp [Marked]
  refine ⟨rfl, rfl, rfl, ?_, ?_, rfl, ?_, rfl, rfl⟩
  · intro index
    rw [hempty]
    simp [isSeen]
  · intro n
    rw [hempty]
    simp [IsGreatest]
  · rw [hempty, Set.ncard_empty]

/-- The first number a tracker is told about anchors it. -/
theorem record_anchorStart (t : SequenceTracker) (n : ℕ) :
    (t.anchorStart n).record n = t.record n := by
  have hsame : (t.anchorStart n).anchorStart n = t.anchorStart n := by
    simp only [anchorStart, Option.or_assoc, Option.or_self]
  simp only [record, hsame]

theorem tracks_recordAll {start : Option ℕ} (hlo : start.or seqs.head? = some lo) :
    Tracks lo finish seqs (recordAll { start, finish } seqs) := by
  cases start with
  | some first =>
    obtain rfl := Option.some.inj hlo
    exact (Tracks.start_ first finish).recordAll seqs
  | none =>
    cases seqs with
    | nil => cases hlo
    | cons n seqs =>
      obtain rfl := Option.some.inj hlo
      have hsame : SequenceTracker.recordAll { start := none, finish } (n :: seqs) =
          SequenceTracker.recordAll { start := some n, finish } (n :: seqs) := by
        simp only [SequenceTracker.recordAll, List.foldl_cons]
        rw [← record_anchorStart { start := none, finish }]
        rfl
      rw [hsame]
      exact (Tracks.start_ n finish).recordAll (n :: seqs)

/-! ## The population -/

/-- The population is the interval the tracker expects. -/
theorem Tracks.population (h : Tracks lo finish seqs t) (hseqs : ∀ n ∈ seqs, n < u64Max) :
    Population (some lo) finish seqs = Set.Ico lo (lo + t.expected) := by
  ext n
  simp only [Population, Option.mem_some_iff, exists_eq_left', Set.mem_ofPred_eq, Set.mem_Ico]
  simp only [SequenceTracker.expected, h.start, h.declared, InRange]
  cases hf : finish with
  | some e =>
    simp only [Option.mem_some_iff, forall_eq', reduceCtorEq, false_implies, and_true, Option.or]
    omega
  | none =>
    rw [hf] at h
    simp only [Option.none_or, reduceCtorEq, false_implies, implies_true, true_and, forall_const,
      Option.mem_def]
    cases htop : t.highest with
    | none =>
      have hempty : Marked lo none seqs = ∅ := by
        apply eq_empty_of_no_greatest (marked_finite ..)
        intro m hm
        exact nomatch htop.symm.trans ((h.highest m).mpr hm)
      rw [hempty]
      simp
    | some top =>
      obtain ⟨⟨hmem, hin⟩, hgreatest⟩ := (h.highest top).mp htop
      have hsucc : satAdd top 1 = top + 1 := by
        have := hseqs top hmem
        apply satAdd_of_lt
        simp only [u64Max] at this
        omega
      have hin' := hin.1
      have hcap := hin.2.2
      simp only [Option.map_some, hsucc]
      constructor
      · rintro ⟨⟨hlo, -⟩, m, hm, hle⟩
        have := hgreatest hm
        omega
      · rintro ⟨hlo, hlt⟩
        exact ⟨⟨hlo, by omega⟩, top, ⟨hmem, hin⟩, by omega⟩

/-- No number of the population overflows. -/
theorem Tracks.population_le (h : Tracks lo finish seqs t) (hlo : lo ≤ u64Max)
    (hfinish : ∀ e ∈ finish, e ≤ u64Max) (hseqs : ∀ n ∈ seqs, n < u64Max) :
    lo + t.expected ≤ u64Max := by
  simp only [SequenceTracker.expected, h.start, h.declared]
  cases finish with
  | some e =>
    have := hfinish e rfl
    simp only [Option.some_or]
    omega
  | none =>
    cases htop : t.highest with
    | none => exact hlo
    | some top =>
      obtain ⟨⟨hmem, hin⟩, -⟩ := (h.highest top).mp htop
      have hlt := hseqs top hmem
      have hsucc : satAdd top 1 ≤ top + 1 := Nat.min_le_left ..
      have hin' := hin.1
      simp only [Option.none_or, Option.map_some]
      omega

theorem expected_le (t : SequenceTracker) : t.expected ≤ maxTrackedSequences := by
  simp only [expected]
  split
  · exact Nat.zero_le _
  · split
    · exact Nat.zero_le _
    · exact Nat.min_le_right ..

/-- Within the population, the bitset tells what was recorded. -/
theorem Tracks.seen_iff (h : Tracks lo finish seqs t) (hseqs : ∀ n ∈ seqs, n < u64Max)
    (hi : index < t.expected) :
    t.isSeen index = false ↔ lo + index ∈ NeverRecorded (some lo) finish seqs := by
  have hpop : lo + index ∈ Population (some lo) finish seqs := by
    rw [h.population hseqs]
    exact ⟨by omega, by omega⟩
  have hin : InRange lo finish (lo + index) := by
    obtain ⟨s, hs, hin, -⟩ := hpop
    obtain rfl := Option.some.inj hs
    exact hin
  rw [← Bool.not_eq_true, h.seen]
  constructor
  · intro hne
    exact ⟨hpop, fun hmem => hne ⟨hmem, hin⟩⟩
  · intro hnever hmarked
    exact hnever.2 hmarked.1

/-! ## The missing ranges -/

/-- The scan below `index`: the runs listed so far and the one it is in. -/
structure Scanning (S : Set ℕ) (lo index : ℕ) (scan : MissingRanges × Option ℕ) : Prop where
  scanned : Scanned S (lo + index) scan.1.ranges (scan.2.map (lo + ·))
  total : scan.1.total = scan.1.ranges.length
  few : scan.1.ranges.length ≤ index

/-- A run that ends before `index` is listed with its numbers. -/
theorem push_ranges {m : MissingRanges} {first last limit : ℕ} (hfirst : first ≤ last)
    (hfit : lo + last ≤ u64Max) (hlimit : m.ranges.length < limit) :
    (m.push lo first last limit).ranges = m.ranges ++ [(lo + first, lo + last)] := by
  have hmax : u64Max < 2 ^ 64 := by decide
  simp only [MissingRanges.push]
  rw [if_pos hlimit, satAdd_of_lt (by omega), satAdd_of_lt (by omega)]

theorem Scanning.close {S : Set ℕ} {m : MissingRanges} {first : ℕ} {limit : ℕ}
    (h : Scanning S lo index (m, some first)) (hk : lo + index ∉ S) (hfit : lo + index ≤ u64Max)
    (hlimit : index < limit) :
    Scanning S lo (index + 1) (m.push lo first (index - 1) limit, none) := by
  obtain ⟨hscanned, htotal, hfew⟩ := h
  have hlt : lo + first < lo + index := hscanned.inRun.1
  have hroom : m.ranges.length < limit := Nat.lt_of_le_of_lt hfew hlimit
  have hpush : (m.push lo first (index - 1) limit).ranges = _ :=
    push_ranges (by omega) (by omega) hroom
  refine ⟨?_, ?_, ?_⟩
  · have hclosed := hscanned.close hk
    rw [show lo + index - 1 = lo + (index - 1) by omega] at hclosed
    rw [hpush]
    exact hclosed
  · rw [hpush, List.length_append, MissingRanges.push]
    exact congrArg (· + 1) htotal
  · rw [hpush, List.length_append]
    exact Nat.succ_le_succ hfew

theorem Scanning.step {S : Set ℕ} {scan : MissingRanges × Option ℕ} {limit : ℕ}
    (h : Scanning S lo index scan) (hseen : t.isSeen index = false ↔ lo + index ∈ S)
    (hfit : lo + index ≤ u64Max) (hlimit : index < limit) :
    Scanning S lo (index + 1) (t.scanIndex lo limit scan index) := by
  obtain ⟨m, first⟩ := scan
  cases hs : t.isSeen index with
  | false =>
    have hk := hseen.mp hs
    have hhit := h.scanned.hit hk
    cases first with
    | none =>
      simp only [scanIndex, hs]
      exact ⟨hhit, h.total, h.few.trans (Nat.le_succ _)⟩
    | some first =>
      simp only [scanIndex, hs]
      exact ⟨hhit, h.total, h.few.trans (Nat.le_succ _)⟩
  | true =>
    have hk : lo + index ∉ S := by
      intro hmem
      exact absurd (hs.symm.trans (hseen.mpr hmem)) (by decide)
    cases first with
    | none =>
      simp only [scanIndex, hs]
      exact ⟨h.scanned.pass hk, h.total, h.few.trans (Nat.le_succ _)⟩
    | some first =>
      simp only [scanIndex, hs]
      exact h.close hk hfit hlimit

/-- The scan of a whole population lists the runs of what was never recorded. -/
theorem Tracks.missingRanges (h : Tracks lo finish seqs t) (hlo : lo ≤ u64Max)
    (hfinish : ∀ e ∈ finish, e ≤ u64Max) (hseqs : ∀ n ∈ seqs, n < u64Max) :
    ListsRuns (NeverRecorded (some lo) finish seqs) t.missingRanges.ranges ∧
      t.missingRanges.truncated = false := by
  have hpop := h.population hseqs
  have hfit := h.population_le hlo hfinish hseqs
  have hcap : t.expected < usizeMax := Nat.lt_of_le_of_lt t.expected_le (by decide)
  have hbounds : ∀ n ∈ NeverRecorded (some lo) finish seqs, lo ≤ n ∧ n < lo + t.expected := by
    intro n hn
    have hmem := hn.1
    rwa [hpop] at hmem
  have hloop : ∀ k ≤ t.expected, Scanning (NeverRecorded (some lo) finish seqs) lo k
      ((List.range k).foldl (t.scanIndex lo usizeMax) ({}, none)) := by
    intro k
    induction k with
    | zero =>
      intro _
      exact ⟨.start fun n hn => (hbounds n hn).1, rfl, Nat.le_refl 0⟩
    | succ k ih =>
      intro hk
      rw [List.range_succ, List.foldl_append]
      exact (ih (by omega)).step (h.seen_iff hseqs hk) (by omega) (by omega)
  have hlast : lo + t.expected ∉ NeverRecorded (some lo) finish seqs := by
    intro hmem
    exact absurd (hbounds _ hmem).2 (Nat.lt_irrefl _)
  have hdone := hloop t.expected (Nat.le_refl _)
  -- a run still open behind the population is closed there
  have hend : ∃ k, lo + t.expected ≤ k ∧ Scanned (NeverRecorded (some lo) finish seqs) k
      t.missingRanges.ranges none ∧ t.missingRanges.total = t.missingRanges.ranges.length := by
    simp only [SequenceTracker.missingRanges, h.start, h.unlimited, Option.getD_none]
    generalize (List.range t.expected).foldl _ _ = scan at hdone
    obtain ⟨m, first⟩ := scan
    cases first with
    | some first =>
      have hclosed := hdone.close hlast hfit hcap
      exact ⟨_, Nat.le_succ _, hclosed.scanned, hclosed.total⟩
    | none => exact ⟨_, Nat.le_refl _, hdone.scanned, hdone.total⟩
  obtain ⟨k, hk, hscanned, htotal⟩ := hend
  constructor
  · exact hscanned.finish fun n hn => (hbounds n hn).2.trans_le hk
  · rw [MissingRanges.truncated, htotal]
    exact decide_eq_false (Nat.lt_irrefl _)

/-! ## The figures -/

/-- Every marked number is of the population. -/
theorem marked_subset_population :
    Marked lo finish seqs ⊆ Population (some lo) finish seqs := by
  intro n hn
  exact ⟨lo, rfl, hn.2, fun _ => ⟨n, hn, Nat.le_refl n⟩⟩

theorem recorded_of_population :
    {n | n ∈ seqs ∧ n ∈ Population (some lo) finish seqs} = Marked lo finish seqs := by
  ext n
  constructor
  · rintro ⟨hmem, s, hs, hin, -⟩
    obtain rfl := Option.some.inj hs
    exact ⟨hmem, hin⟩
  · intro hn
    exact ⟨hn.1, marked_subset_population hn⟩

theorem neverRecorded_eq :
    NeverRecorded (some lo) finish seqs = Population (some lo) finish seqs \ Marked lo finish seqs := by
  rw [← recorded_of_population]
  ext n
  constructor
  · intro hn
    exact ⟨hn.1, fun hmem => hn.2 hmem.1⟩
  · intro hn
    exact ⟨hn.1, fun hmem => hn.2 ⟨hmem, hn.1⟩⟩

theorem Tracks.expected_eq (h : Tracks lo finish seqs t) (hseqs : ∀ n ∈ seqs, n < u64Max) :
    t.expected = (Population (some lo) finish seqs).ncard := by
  rw [h.population hseqs, ← Finset.coe_Ico, Set.ncard_coe_finset, Nat.card_Ico]
  omega

/-- What is missing is what the population has and the marks have not. -/
theorem Tracks.missing_eq (h : Tracks lo finish seqs t) (hseqs : ∀ n ∈ seqs, n < u64Max) :
    t.missing = (NeverRecorded (some lo) finish seqs).ncard := by
  rw [neverRecorded_eq, Set.ncard_sdiff marked_subset_population (marked_finite ..), ← h.unique,
    ← h.expected_eq hseqs]
  rfl

theorem Tracks.accountsFor (h : Tracks lo finish seqs t) (hlo : lo ≤ u64Max)
    (hfinish : ∀ e ∈ finish, e ≤ u64Max) (hseqs : ∀ n ∈ seqs, n < u64Max) :
    AccountsFor (some lo) finish seqs t := by
  obtain ⟨hruns, hlisted⟩ := h.missingRanges hlo hfinish hseqs
  refine ⟨h.received, h.classified, ?_, h.expected_eq hseqs, hruns.mem, hruns.ascending, hlisted, ?_⟩
  · rw [recorded_of_population]
    exact h.unique
  · rw [h.missing_eq hseqs, hruns.length]

/-- Without a start there is no population to account for. -/
theorem accountsFor_nothing (finish : Option ℕ) :
    AccountsFor none finish [] { start := none, finish } := by
  have hempty : Population none finish [] = ∅ := by
    ext n
    simp [Population]
  refine ⟨rfl, rfl, ?_, ?_, ?_, .nil, rfl, rfl⟩
  · simp
  · rw [hempty, Set.ncard_empty]
    rfl
  · intro a b
    constructor
    · intro hmem
      exact nomatch hmem
    · intro hrun
      obtain ⟨s, hs, -⟩ := (hrun.mem a (Nat.le_refl a) hrun.le).1
      exact nomatch hs

theorem Tracks.sameFigures {seqs' : List ℕ} (h : Tracks lo finish seqs t)
    (h' : Tracks lo finish seqs' t') (hperm : seqs.Perm seqs') : SameFigures t t' := by
  have hmarked : Marked lo finish seqs = Marked lo finish seqs' := by
    ext n
    exact and_congr_left' hperm.mem_iff
  have hreceived : t.received = t'.received := by
    rw [h.received, h'.received, hperm.length_eq]
  have hunique : t.unique = t'.unique := by
    rw [h.unique, h'.unique, hmarked]
  have hout : t.outOfRange = t'.outOfRange := by
    rw [h.outOfRange, h'.outOfRange, hperm.countP_eq]
  have hhighest : t.highest = t'.highest := by
    ext n
    rw [h.highest, h'.highest, hmarked]
  have hexpected : t.expected = t'.expected := by
    simp only [expected, h.start, h'.start, h.declared, h'.declared, hhighest]
  have hscan : t.scanIndex = t'.scanIndex := by
    funext start limit scan index
    have hseen : t.isSeen index = t'.isSeen index := by
      rw [Bool.eq_iff_iff, h.seen, h'.seen, hmarked]
    simp only [scanIndex, hseen]
  refine ⟨hreceived, hunique, ?_, hout, hexpected, ?_, ?_⟩
  · have hsum := h.classified
    have hsum' := h'.classified
    omega
  · simp only [SequenceTracker.missing, hexpected, hunique]
  · simp only [SequenceTracker.missingRanges, h.start, h'.start, h.unlimited, h'.unlimited, hexpected, hscan]

theorem anchored_new (start finish : Option ℕ) :
    new.anchored start finish = { start := some 0, finish } := by
  cases start <;> cases finish <;> rfl

theorem anchored_unanchored (start finish : Option ℕ) :
    unanchored.anchored start finish = { start, finish } := by
  cases start <;> cases finish <;> rfl

theorem accountsFor_recordAll {start : Option ℕ} (hstart : ∀ s ∈ start, s ≤ u64Max)
    (hfinish : ∀ e ∈ finish, e ≤ u64Max) (hseqs : ∀ n ∈ seqs, n < u64Max) :
    AccountsFor (start.or seqs.head?) finish seqs (recordAll { start, finish } seqs) := by
  cases hlo : start.or seqs.head? with
  | some lo =>
    have hle : lo ≤ u64Max := by
      rw [Option.or_eq_some_iff] at hlo
      obtain hs | ⟨-, hs⟩ := hlo
      · exact hstart lo hs
      · exact Nat.le_of_lt (hseqs lo (List.mem_of_mem_head? hs))
    exact (tracks_recordAll hlo).accountsFor hle hfinish hseqs
  | none =>
    rw [Option.or_eq_none_iff, List.head?_eq_none_iff] at hlo
    obtain ⟨rfl, rfl⟩ := hlo
    exact accountsFor_nothing finish

/-- The figures of a run are those of its numbers, and with a known start those of their
arrangement in any order. -/
theorem accounts_for_recorded {base : SequenceTracker} (hbase : base = new ∨ base = unanchored)
    {start finish : Option ℕ} (hstart : ∀ s ∈ start, s ≤ u64Max)
    (hfinish : ∀ e ∈ finish, e ≤ u64Max) {seqs : List ℕ} (hseqs : ∀ n ∈ seqs, n < u64Max) :
    AccountsFor ((base.anchored start finish).start.or seqs.head?) finish seqs
        ((base.anchored start finish).recordAll seqs) ∧
      ((base.anchored start finish).start.isSome = true → ∀ seqs', seqs.Perm seqs' →
        SameFigures ((base.anchored start finish).recordAll seqs)
          ((base.anchored start finish).recordAll seqs')) := by
  obtain ⟨first, hfirst, hanchored⟩ : ∃ first : Option ℕ, (∀ s ∈ first, s ≤ u64Max) ∧
      base.anchored start finish = { start := first, finish } := by
    obtain rfl | rfl := hbase
    · refine ⟨some 0, ?_, anchored_new start finish⟩
      rintro s hs
      exact Option.some.inj hs ▸ Nat.zero_le _
    · exact ⟨start, hstart, anchored_unanchored start finish⟩
  rw [hanchored]
  constructor
  · exact accountsFor_recordAll hfirst hfinish hseqs
  · intro hsome seqs' hperm
    obtain ⟨lo, rfl⟩ := Option.isSome_iff_exists.mp hsome
    have htracks : Tracks lo finish seqs (recordAll { start := some lo, finish } seqs) :=
      tracks_recordAll rfl
    exact htracks.sameFigures (tracks_recordAll rfl) hperm

/-- Late, repeated and stray numbers over a declared population. -/
theorem accounts_for_recorded_late :
    AccountsFor (some 100) (some 170) [101, 165, 103, 101, 99, 102]
        ((unanchored.anchored (some 100) (some 170)).recordAll [101, 165, 103, 101, 99, 102]) ∧
      SameFigures ((unanchored.anchored (some 100) (some 170)).recordAll [101, 165, 103, 101, 99, 102])
        ((unanchored.anchored (some 100) (some 170)).recordAll [99, 101, 101, 102, 103, 165]) ∧
      ((unanchored.anchored (some 100) (some 170)).recordAll
        [101, 165, 103, 101, 99, 102]).missingRanges.ranges = [(100, 100), (104, 164), (166, 169)] := by
  have h := @accounts_for_recorded unanchored (.inr rfl) (some 100) (some 170) (by decide)
    (by decide) [101, 165, 103, 101, 99, 102] (by decide)
  exact ⟨h.1, h.2 rfl _ (by decide), by decide +kernel⟩

end SequenceTracker

end Wafer
