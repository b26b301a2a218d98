import Mathlib.Data.List.TakeWhile

/-!
# Scanners

Small readers at the front of a list: at most one element, one element or more,
an element that has to be there. A list in which every element is encoded by some
symbols is scanned symbol by symbol with the same result, as long as a test on
symbols agrees with one on elements.

## Main definitions

- `takeIf`, `takeSome`, `expect` — the scanners
- `Stops` — a list goes on with no element of a test
- `Agrees` — a test on the symbols of an encoding agrees with one on elements

## Main results

- `Agrees.dropWhile_flatMap`, `Agrees.takeSome_flatMap` — scanning an encoded list
-/

namespace Wafer.Lib

section Scanners

variable {α : Type*} {p : α → Bool} {text taken rest : List α}

/-- At most one element. -/
def takeIf (p : α → Bool) : List α → List α × List α
  | [] => ([], [])
  | c :: rest => if p c then ([c], rest) else ([], c :: rest)

/-- One element or more. -/
def takeSome (p : α → Bool) (text : List α) : Option (List α × List α) :=
  if (text.takeWhile p).isEmpty then none else some (text.takeWhile p, text.dropWhile p)

/-- The text behind an element that has to be there. -/
def expect (p : α → Bool) : List α → Option (List α)
  | [] => none
  | c :: rest => if p c then some rest else none

/-- The text does not go on with an element of the test. -/
def Stops (p : α → Bool) (text : List α) : Prop := ∀ c ∈ text.head?, p c = false

theorem Stops.mono {q : α → Bool} (h : Stops q text) (hpq : ∀ c, p c = true → q c = true) :
    Stops p text := by
  intro c hc
  have hq := h c hc
  by_contra hp
  rw [hpq c (by simpa using hp)] at hq
  cases hq

theorem takeIf_sound (h : takeIf p text = (taken, rest)) :
    text = taken ++ rest ∧ (taken = [] ∨ ∃ c, taken = [c] ∧ p c = true) := by
  cases text with
  | nil =>
    cases h
    exact ⟨rfl, .inl rfl⟩
  | cons c text =>
    rw [takeIf] at h
    split at h
    next hc =>
      cases h
      exact ⟨rfl, .inr ⟨c, rfl, hc⟩⟩
    next =>
      cases h
      exact ⟨rfl, .inl rfl⟩

theorem takeIf_cons {c : α} (hc : p c = true) : takeIf p (c :: rest) = ([c], rest) := if_pos hc

theorem takeIf_stops (h : Stops p text) : takeIf p text = ([], text) := by
  cases text with
  | nil => rfl
  | cons c rest => exact if_neg (Bool.eq_false_iff.mp (h c rfl))

theorem takeSome_sound (h : takeSome p text = some (taken, rest)) :
    text = taken ++ rest ∧ taken ≠ [] ∧ ∀ c ∈ taken, p c = true := by
  unfold takeSome at h
  split at h
  next => cases h
  next hne =>
    cases h
    refine ⟨List.takeWhile_append_dropWhile.symm, ?_, fun c hc => List.mem_takeWhile_imp hc⟩
    simpa using hne

/-- The elements up to the first one that fails the test. -/
theorem takeWhile_stops (hp : ∀ c ∈ taken, p c = true) (h : Stops p rest) :
    (taken ++ rest).takeWhile p = taken ∧ (taken ++ rest).dropWhile p = rest := by
  rw [List.takeWhile_append_of_pos hp, List.dropWhile_append_of_pos hp]
  cases rest with
  | nil => exact ⟨List.append_nil taken, rfl⟩
  | cons c rest =>
    have hc : ¬ p c = true := Bool.eq_false_iff.mp (h c rfl)
    rw [List.takeWhile_cons_of_neg hc, List.dropWhile_cons_of_neg hc]
    exact ⟨List.append_nil taken, rfl⟩

theorem takeSome_stops (hne : taken ≠ []) (hp : ∀ c ∈ taken, p c = true) (h : Stops p rest) :
    takeSome p (taken ++ rest) = some (taken, rest) := by
  obtain ⟨htake, hdrop⟩ := takeWhile_stops hp h
  rw [takeSome, htake, hdrop, if_neg (by simpa using hne)]

theorem expect_eq_some : expect p text = some rest ↔ ∃ c, text = c :: rest ∧ p c = true := by
  cases text with
  | nil => simp [expect]
  | cons c text =>
    rw [expect]
    split
    next hc =>
      constructor
      · rintro ⟨⟩
        exact ⟨c, rfl, hc⟩
      · rintro ⟨_, heq, -⟩
        rw [(List.cons.inj heq).2]
    next hc =>
      constructor
      · rintro ⟨⟩
      · rintro ⟨_, heq, hp⟩
        rw [(List.cons.inj heq).1] at hc
        exact absurd hp hc

theorem expect_cons {c : α} (hc : p c = true) : expect p (c :: rest) = some rest := if_pos hc

theorem expect_stops (h : Stops p text) : expect p text = none := by
  cases text with
  | nil => rfl
  | cons c text => exact if_neg (Bool.eq_false_iff.mp (h c rfl))

end Scanners

/-! ## Encoded lists -/

/-- A test on symbols agrees with one on elements: an element with it is one symbol with it, and an
element without it begins with a symbol without it. -/
structure Agrees {α β : Type*} (encode : α → List β) (p : β → Bool) (q : α → Bool) : Prop where
  hit : ∀ a, q a = true → ∃ b, encode a = [b] ∧ p b = true
  miss : ∀ a, q a = false → ∃ b symbols, encode a = b :: symbols ∧ p b = false

namespace Agrees

variable {α β : Type*} {encode : α → List β} {p : β → Bool} {q : α → Bool}

/-- The scan is the same as that of the elements. -/
abbrev both (encode : α → List β) (s : List α × List α) : List β × List β :=
  (s.1.flatMap encode, s.2.flatMap encode)

theorem while_flatMap (h : Agrees encode p q) (text : List α) :
    (text.flatMap encode).takeWhile p = (text.takeWhile q).flatMap encode ∧
      (text.flatMap encode).dropWhile p = (text.dropWhile q).flatMap encode := by
  induction text with
  | nil => exact ⟨rfl, rfl⟩
  | cons a text ih =>
    cases ha : q a with
    | true =>
      obtain ⟨b, hb, hp⟩ := h.hit a ha
      rw [List.takeWhile_cons_of_pos ha, List.dropWhile_cons_of_pos ha]
      simp only [List.flatMap_cons, hb, List.singleton_append]
      rw [List.takeWhile_cons_of_pos hp, List.dropWhile_cons_of_pos hp, ih.1]
      exact ⟨rfl, ih.2⟩
    | false =>
      obtain ⟨b, symbols, hb, hp⟩ := h.miss a ha
      rw [List.takeWhile_cons_of_neg (by simp [ha]), List.dropWhile_cons_of_neg (by simp [ha])]
      simp only [List.flatMap_cons, hb, List.cons_append]
      rw [List.takeWhile_cons_of_neg (by simp [hp]), List.dropWhile_cons_of_neg (by simp [hp])]
      exact ⟨rfl, rfl⟩

theorem dropWhile_flatMap (h : Agrees encode p q) (text : List α) :
    (text.flatMap encode).dropWhile p = (text.dropWhile q).flatMap encode :=
  (h.while_flatMap text).2

theorem takeIf_flatMap (h : Agrees encode p q) (text : List α) :
    takeIf p (text.flatMap encode) = both encode (takeIf q text) := by
  cases text with
  | nil => rfl
  | cons a text =>
    cases ha : q a with
    | true =>
      obtain ⟨b, hb, hp⟩ := h.hit a ha
      rw [takeIf_cons ha, List.flatMap_cons, hb, List.singleton_append, takeIf_cons hp, both,
        List.flatMap_singleton, hb]
    | false =>
      obtain ⟨b, symbols, hb, hp⟩ := h.miss a ha
      have hstops : Stops q (a :: text) := by simpa [Stops] using ha
      have hstops' : Stops p ((a :: text).flatMap encode) := by
        simpa [Stops, hb] using hp
      rw [takeIf_stops hstops, takeIf_stops hstops']
      rfl

theorem takeSome_flatMap (h : Agrees encode p q) (text : List α) :
    takeSome p (text.flatMap encode) = (takeSome q text).map (both encode) := by
  obtain ⟨htake, hdrop⟩ := h.while_flatMap text
  rw [takeSome, takeSome, htake, hdrop]
  cases hwhile : text.takeWhile q with
  | nil => rfl
  | cons a taken =>
    have ha : q a = true := by
      have hmem : a ∈ text.takeWhile q := by simp [hwhile]
      exact List.mem_takeWhile_imp hmem
    obtain ⟨b, hb, -⟩ := h.hit a ha
    rw [if_neg (by simp [hb]), if_neg (by simp)]
    rfl

theorem expect_flatMap (h : Agrees encode p q) (text : List α) :
    expect p (text.flatMap encode) = (expect q text).map (List.flatMap encode) := by
  cases text with
  | nil => rfl
  | cons a text =>
    cases ha : q a with
    | true =>
      obtain ⟨b, hb, hp⟩ := h.hit a ha
      rw [List.flatMap_cons, hb, List.singleton_append, expect, expect, if_pos hp, if_pos ha]
      rfl
    | false =>
      obtain ⟨b, symbols, hb, hp⟩ := h.miss a ha
      rw [List.flatMap_cons, hb, List.cons_append, expect, expect, if_neg (by simp [hp]),
        if_neg (by simp [ha])]
      rfl

end Agrees

end Wafer.Lib
