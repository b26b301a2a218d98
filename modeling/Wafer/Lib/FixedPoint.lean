import Mathlib.Data.List.DropRight
import Mathlib.Tactic.FieldSimp
import Mathlib.Tactic.Ring
import Wafer.Lib.JsonText

/-!
# Printed decimals

A sign, the digits of a natural number, a point and decimals: the text is a JSON
number, and its value is the number and the decimals over a power of ten.
Decimals may be padded with zeros in front, and zeros at their end do not count.

## Main definitions

- `FixedPoint.decimal` — the text of a decimal number
- `FixedPoint.Spells` — a JSON number and its value

## Main results

- `FixedPoint.spells_decimal` — the value of a printed decimal
- `FixedPoint.value_trimmed`, `value_padded` — zeros at the end and in front
-/

namespace Wafer.Lib

namespace FixedPoint

open JsonText Literal

/-- A JSON number of the value `q`. -/
def Spells (text : List Char) (q : ℚ) : Prop :=
  isNumber text = true ∧ ∃ l, Literal.parse text = some l ∧
    l.value? = some ((q : WithTop ℚ) : WithBot (WithTop ℚ))

/-- The sign, `n`, a point and the decimals. -/
def decimal (negative : Bool) (n : ℕ) (decimals : List Char) : List Char :=
  (if negative then ['-'] else []) ++ (Nat.toDigits 10 n ++ '.' :: decimals)

/-- What decimals are worth. -/
def fractionOf (decimals : List Char) : ℚ := digitsValue decimals / 10 ^ decimals.length

variable {decimals : List Char} {n width : ℕ}

theorem digitsValue_append (front back : List Char) :
    digitsValue (front ++ back) = digitsValue front * 10 ^ back.length + digitsValue back := by
  induction back using List.reverseRecOn with
  | nil => simp [digitsValue]
  | append_singleton back c ih =>
    rw [← List.append_assoc, digitsValue_concat, digitsValue_concat, ih, List.length_append,
      List.length_singleton, pow_succ]
    ring

theorem digitsValue_zeros (k : ℕ) : digitsValue (List.replicate k '0') = 0 := by
  induction k with
  | zero => rfl
  | succ k ih =>
    rw [List.replicate_succ', digitsValue_concat, ih]
    rfl

/-- Zeros in front do not change the number. -/
theorem value_padded (n k : ℕ) :
    digitsValue (List.replicate k '0' ++ Nat.toDigits 10 n) = n := by
  rw [digitsValue_append, digitsValue_zeros, digitsValue_toDigits, zero_mul, zero_add]

/-- Zeros at the end do not change what decimals are worth. -/
theorem value_trimmed (decimals : List Char) :
    fractionOf (decimals.rdropWhile (· = '0')) = fractionOf decimals := by
  induction decimals using List.reverseRecOn with
  | nil => rfl
  | append_singleton decimals c ih =>
    by_cases hc : c = '0'
    · subst hc
      rw [List.rdropWhile_concat_pos _ _ _ (by decide), ih, fractionOf, fractionOf,
        digitsValue_concat, List.length_append, List.length_singleton, pow_succ]
      have hzero : '0'.toNat - 48 = 0 := rfl
      rw [hzero, add_zero]
      push_cast
      field_simp
    · rw [List.rdropWhile_concat_neg _ _ _ (by simpa using hc)]

/-- The digits in front of the point, and the point with what follows it. -/
theorem split_decimal (n : ℕ) (decimals : List Char) :
    (Nat.toDigits 10 n ++ '.' :: decimals).takeWhile Char.isDigit = Nat.toDigits 10 n ∧
      (Nat.toDigits 10 n ++ '.' :: decimals).dropWhile Char.isDigit = '.' :: decimals := by
  constructor
  · rw [List.takeWhile_append_of_pos isDigit_toDigits, List.takeWhile_cons_of_neg (by decide),
      List.append_nil]
  · rw [List.dropWhile_append_of_pos isDigit_toDigits, List.dropWhile_cons_of_neg (by decide)]

theorem fraction_point (hdigits : ∀ c ∈ decimals, c.isDigit = true) :
    fraction ('.' :: decimals) = (decimals, []) := by
  rw [fraction, List.takeWhile_eq_self_iff.mpr hdigits, List.dropWhile_eq_nil_iff.mpr hdigits]

theorem isUnsigned_decimal (n : ℕ) (hne : decimals ≠ [])
    (hdigits : ∀ c ∈ decimals, c.isDigit = true) :
    isUnsigned (Nat.toDigits 10 n ++ '.' :: decimals) = true := by
  obtain ⟨htake, hdrop⟩ := split_decimal n decimals
  rw [isUnsigned, htake, hdrop, isFraction, fraction_point hdigits]
  simp only [Bool.and_eq_true, bne_iff_ne, Bool.or_eq_true, beq_iff_eq]
  refine ⟨⟨toDigits_ne_nil n, ?_⟩, rfl, .inr hne⟩
  by_cases h0 : (Nat.toDigits 10 n).head? = some '0'
  · exact .inr (head?_toDigits n h0)
  · exact .inl h0

theorem number?_decimal (n : ℕ) (hdigits : ∀ c ∈ decimals, c.isDigit = true) :
    number? (Nat.toDigits 10 n ++ '.' :: decimals) =
      some (digitsValue (Nat.toDigits 10 n ++ decimals), 0 - (decimals.length : ℤ)) := by
  obtain ⟨htake, hdrop⟩ := split_decimal n decimals
  simp only [number?, htake, hdrop, fraction_point hdigits]
  rw [if_neg (by simp)]
  rfl

theorem value?_number (negative : Bool) (significand : ℕ) (exponent : ℤ) :
    (number negative significand exponent).value? =
      some (((if negative then -((significand : ℚ) * 10 ^ exponent)
        else (significand : ℚ) * 10 ^ exponent : ℚ) : WithTop ℚ) : WithBot (WithTop ℚ)) := rfl

/-- The value of a printed decimal. -/
theorem spells_decimal (negative : Bool) (n : ℕ) (hne : decimals ≠ [])
    (hdigits : ∀ c ∈ decimals, c.isDigit = true) :
    Spells (decimal negative n decimals)
      (if negative then -(n + fractionOf decimals) else n + fractionOf decimals) := by
  have hunsigned := isUnsigned_decimal n hne hdigits
  have hvalue : ((digitsValue (Nat.toDigits 10 n ++ decimals) : ℕ) : ℚ) *
      10 ^ (0 - (decimals.length : ℤ)) = n + fractionOf decimals := by
    rw [digitsValue_append, digitsValue_toDigits, zero_sub, zpow_neg, zpow_natCast, fractionOf]
    push_cast
    field_simp
  have hparse : ∀ sign, unsigned sign (Nat.toDigits 10 n ++ '.' :: decimals) =
      some (number sign (digitsValue (Nat.toDigits 10 n ++ decimals)) (0 - decimals.length)) := by
    intro sign
    rw [unsigned, number?_decimal n hdigits]
  cases negative with
  | true =>
    refine ⟨hunsigned, _, hparse true, ?_⟩
    rw [value?_number, hvalue]
  | false =>
    have htext : decimal false n decimals = Nat.toDigits 10 n ++ '.' :: decimals := rfl
    obtain ⟨c, rest, hcons⟩ := List.exists_cons_of_ne_nil (toDigits_ne_nil n)
    have hc : c.isDigit = true := isDigit_toDigits (n := n) c (by simp [hcons])
    have hsign : c ≠ '-' ∧ c ≠ '+' := by
      constructor
      · rintro rfl
        exact absurd hc (by decide)
      · rintro rfl
        exact absurd hc (by decide)
    rw [hcons, List.cons_append] at hunsigned htext
    refine ⟨?_, number false (digitsValue (Nat.toDigits 10 n ++ decimals))
      (0 - decimals.length), ?_, ?_⟩
    · rw [htext, isNumber]
      · exact hunsigned
      · intro _ he
        exact hsign.1 (List.cons.inj he).1
    · rw [htext, Literal.parse]
      · rw [← List.cons_append, ← hcons]
        exact hparse false
      · intro _ he
        exact hsign.1 (List.cons.inj he).1
      · intro _ he
        exact hsign.2 (List.cons.inj he).1
    · rw [value?_number, hvalue]

/-- A text spells one value. -/
theorem Spells.unique {text : List Char} {p q : ℚ} (hp : Spells text p) (hq : Spells text q) :
    p = q := by
  obtain ⟨-, l, hl, hlp⟩ := hp
  obtain ⟨-, l', hl', hlq⟩ := hq
  obtain rfl := Option.some.inj (hl.symm.trans hl')
  have hvalue := Option.some.inj (hlp.symm.trans hlq)
  exact WithTop.coe_injective (WithBot.coe_injective hvalue)

end FixedPoint

end Wafer.Lib
