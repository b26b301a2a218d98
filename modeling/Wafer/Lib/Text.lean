import Mathlib.Data.List.DropRight
import Mathlib.Data.List.TakeWhile

/-!
# Scanning texts

A text is a list. Scanners written by hand search for a slice or for the first
element of a kind, cut the text there, and trim blanks. This file gives these
cuts and what they do to a text whose parts are known.

## Main definitions

- `after` — the text after the first occurrence of a slice
- `splitFirst` — the texts before and after the first element of a kind
- `splitOnce`, `rsplitOnce` — the texts before and after the first or last separator
- `trim` — a text without the blanks at its ends
- `isWhitespace` — the Unicode `White_Space` property
- `fromUtf8` — the characters a byte string encodes
-/

namespace Wafer.Lib

/-- A list is gone through element by element, also where its type has finitely many. -/
theorem forall_mem_of_all {α : Type*} {p : α → Prop} [DecidablePred p] {text : List α}
    (h : text.all (fun c => decide (p c)) = true) : ∀ c ∈ text, p c := by
  simpa using h

section Slices

variable {α : Type*} [DecidableEq α]

/-- The text after the first occurrence of `needle`. -/
def after (needle : List α) : List α → Option (List α)
  | [] => if needle = [] then some [] else none
  | c :: cs =>
    if needle <+: c :: cs then some ((c :: cs).drop needle.length) else after needle cs

variable {needle text before rest : List α}

/-- A slice is found where it stands first. -/
theorem after_eq_some_iff : after needle (before ++ (needle ++ rest)) = some rest ↔
    ∀ front, front ++ needle <+: before ++ (needle ++ rest) → before.length ≤ front.length := by
  induction before with
  | nil =>
    refine iff_of_true ?_ fun _ _ => Nat.zero_le _
    rw [List.nil_append]
    cases hneedle : needle ++ rest with
    | nil =>
      obtain ⟨rfl, rfl⟩ := List.append_eq_nil_iff.mp hneedle
      rfl
    | cons c cs =>
      rw [after, ← hneedle, if_pos (List.prefix_append _ _), List.drop_left]
  | cons c before ih =>
    rw [List.cons_append, after]
    constructor
    · intro h front hfront
      split_ifs at h with hhere
      · -- found here, less of the text would be left behind it
        have hlen := congrArg List.length (Option.some.inj h)
        simp only [List.length_drop, List.length_cons, List.length_append] at hlen
        omega
      · cases front with
        | nil => exact absurd hfront hhere
        | cons d front =>
          obtain ⟨-, hfront⟩ := List.cons_prefix_cons.mp hfront
          exact Nat.succ_le_succ (ih.mp h front hfront)
    · intro h
      have hhere : ¬ needle <+: c :: (before ++ (needle ++ rest)) := fun hhere =>
        absurd (h [] hhere) (Nat.not_succ_le_zero _)
      rw [if_neg hhere]
      refine ih.mpr fun front hfront => Nat.le_of_succ_le_succ (h (c :: front) ?_)
      rw [List.cons_append]
      exact List.cons_prefix_cons.mpr ⟨rfl, hfront⟩

theorem after_eq_none_iff : after needle text = none ↔ ¬ needle <:+: text := by
  induction text with
  | nil =>
    rw [after, List.infix_nil]
    split_ifs with h <;> simp [h]
  | cons c text ih =>
    rw [after, List.infix_cons_iff]
    split_ifs with h
    · simp [h]
    · rw [ih]
      simp [h]

end Slices

section Cuts

variable {α : Type*} {p blank : α → Bool} {text gap rest : List α}

/-- The texts before and after the first element with `p`. -/
def splitFirst (p : α → Bool) (text : List α) : Option (List α × List α) :=
  match text.dropWhile (fun c => !p c) with
  | [] => none
  | _ :: rest => some (text.takeWhile (fun c => !p c), rest)

/-- The text up to the first element with `p`; all of it if there is none. -/
def upTo (p : α → Bool) (text : List α) : List α := text.takeWhile fun c => !p c

def trimStart (blank : α → Bool) (text : List α) : List α := text.dropWhile blank

def trim (blank : α → Bool) (text : List α) : List α := (trimStart blank text).rdropWhile blank

theorem splitFirst_eq_some (h : splitFirst p text = some (gap, rest)) :
    ∃ c, text = gap ++ c :: rest ∧ p c = true ∧ ∀ x ∈ gap, p x = false := by
  simp only [splitFirst] at h
  split at h
  · cases h
  · next c tail hd =>
    obtain ⟨rfl, rfl⟩ := Prod.mk.inj (Option.some.inj h)
    have hc : p c = true := by
      have := List.head_dropWhile_not (fun c => !p c) (l := text) (by simp [hd])
      simpa [hd] using this
    refine ⟨c, ?_, hc, fun x hx => ?_⟩
    · rw [← hd, List.takeWhile_append_dropWhile]
    · simpa using List.mem_takeWhile_imp hx

theorem splitFirst_eq_none (h : splitFirst p text = none) : ∀ x ∈ text, p x = false := by
  simp only [splitFirst] at h
  split at h
  · next hd =>
    intro x hx
    simpa using List.dropWhile_eq_nil_iff.mp hd x hx
  · cases h

/-- Trimming in front of a visible element leaves that element first exactly when all before it
is blank. -/
theorem trimStart_gap {c : α} (hc : blank c = false) :
    trimStart blank (gap ++ c :: rest) =
      if ∀ x ∈ gap, blank x = true then c :: rest else trimStart blank gap ++ c :: rest := by
  simp only [trimStart]
  rw [List.dropWhile_append, List.dropWhile_cons_of_neg (by simp [hc])]
  simp only [List.isEmpty_iff, List.dropWhile_eq_nil_iff]

/-- The first element after trimming is one of the text. -/
theorem head_trimStart {c : α} (h : trimStart blank text = c :: rest) : c ∈ text :=
  (List.dropWhile_suffix blank).subset (by unfold trimStart at h; simp [h])

/-- Blanks after a word without blanks are all that trimming takes away. -/
theorem trim_word {word tail : List α} (hw : ∀ x ∈ word, blank x = false)
    (ht : ∀ x ∈ tail, blank x = true) : trim blank (word ++ tail) = word := by
  have hr : (word ++ tail).rdropWhile blank = word := by
    induction tail using List.reverseRecOn with
    | nil =>
      rw [List.append_nil, List.rdropWhile_eq_self_iff]
      intro hne
      simpa using hw _ (List.getLast_mem hne)
    | append_singleton tail c ih =>
      rw [← List.append_assoc, List.rdropWhile_concat_pos _ _ _ (ht c (by simp))]
      exact ih fun x hx => ht x (by simp [hx])
  simp only [trim, trimStart]
  cases word with
  | nil =>
    rw [List.nil_append, List.dropWhile_eq_nil_iff.mpr ht]
    rfl
  | cons c word =>
    rw [List.cons_append, List.dropWhile_cons_of_neg (by simp [hw c (by simp)])]
    exact hr

/-- Cutting at a larger set of elements first does not change the shorter cut. -/
theorem takeWhile_upTo {q : α → Bool} (h : ∀ x, q x = true → p x = false) :
    (upTo p text).takeWhile q = text.takeWhile q := by
  simp only [upTo]
  rw [List.takeWhile_takeWhile]
  congr 1
  funext x
  by_cases hq : q x = true <;> simp_all

/-- Nothing behind an element with `p` matters. -/
theorem upTo_append_cons {c : α} (hc : p c = true) : upTo p (text ++ c :: rest) = upTo p text := by
  simp only [upTo]
  induction text with
  | nil => simp [hc]
  | cons x text ih => rw [List.cons_append, List.takeWhile_cons, List.takeWhile_cons, ih]

end Cuts

section Separators

variable {α : Type*} [DecidableEq α] {sep : α} {text before after : List α}

def splitOnce (sep : α) (text : List α) : Option (List α × List α) :=
  splitFirst (fun c => c = sep) text

/-- The texts before and after the last `sep`. -/
def rsplitOnce (sep : α) (text : List α) : Option (List α × List α) :=
  (splitOnce sep text.reverse).map fun cut => (cut.2.reverse, cut.1.reverse)

theorem splitOnce_eq_some (h : splitOnce sep text = some (before, after)) :
    text = before ++ sep :: after ∧ sep ∉ before := by
  obtain ⟨c, htext, hc, hgap⟩ := splitFirst_eq_some h
  obtain rfl : c = sep := by simpa using hc
  exact ⟨htext, fun hmem => by simpa using hgap c hmem⟩

theorem splitOnce_append (hbefore : sep ∉ before) :
    splitOnce sep (before ++ sep :: after) = some (before, after) := by
  have hkeep : ∀ c ∈ before, (!decide (c = sep)) = true := by
    intro c hc
    have hne : c ≠ sep := fun he => hbefore (he ▸ hc)
    simp [hne]
  rw [splitOnce, splitFirst, List.dropWhile_append_of_pos hkeep, List.takeWhile_append_of_pos hkeep]
  simp

theorem splitOnce_eq_none (h : sep ∉ text) : splitOnce sep text = none := by
  cases hcut : splitOnce sep text with
  | none => rfl
  | some cut =>
    obtain ⟨htext, -⟩ := splitOnce_eq_some hcut
    exact absurd (by simp [htext]) h

theorem rsplitOnce_eq_some (h : rsplitOnce sep text = some (before, after)) :
    text = before ++ sep :: after ∧ sep ∉ after := by
  rw [rsplitOnce, Option.map_eq_some_iff] at h
  obtain ⟨⟨gap, rest⟩, hcut, hparts⟩ := h
  obtain ⟨htext, hgap⟩ := splitOnce_eq_some hcut
  obtain ⟨rfl, rfl⟩ := Prod.mk.inj hparts
  refine ⟨?_, fun hmem => hgap (List.mem_reverse.mp hmem)⟩
  rw [← List.reverse_reverse text, htext]
  simp

theorem rsplitOnce_append (hafter : sep ∉ after) :
    rsplitOnce sep (before ++ sep :: after) = some (before, after) := by
  have hreverse : (before ++ sep :: after).reverse = after.reverse ++ sep :: before.reverse := by
    simp
  rw [rsplitOnce, hreverse, splitOnce_append (by simpa using hafter)]
  simp

theorem rsplitOnce_eq_none (h : sep ∉ text) : rsplitOnce sep text = none := by
  rw [rsplitOnce, splitOnce_eq_none (by simpa using h)]
  rfl

theorem rsplitOnce_isSome (h : sep ∈ text) : (rsplitOnce sep text).isSome = true := by
  obtain ⟨before, after, hreverse, hbefore⟩ :=
    List.eq_append_cons_of_mem (List.mem_reverse.mpr h)
  rw [rsplitOnce, hreverse, splitOnce_append hbefore]
  rfl

end Separators

/-- Unicode `White_Space`, as the trimming functions of a standard string library use it. -/
def isWhitespace (c : Char) : Bool :=
  c.val ∈ [0x20, 0x85, 0xA0, 0x1680, 0x2028, 0x2029, 0x202F, 0x205F, 0x3000] ∨
    (0x09 ≤ c.val ∧ c.val ≤ 0x0D) ∨ (0x2000 ≤ c.val ∧ c.val ≤ 0x200A)

/-- The characters of a byte string, if it is valid UTF-8. -/
def fromUtf8 (bytes : List UInt8) : Option (List Char) :=
  (String.fromUTF8? bytes.toByteArray).map String.toList

end Wafer.Lib
