import Mathlib.Data.Rat.Floor
import Mathlib.Tactic.IntervalCases
import Mathlib.Tactic.Linarith
import Mathlib.Tactic.NormNum
import Wafer.Lib.FixedPoint
import Wafer.Types.Measurement

/-!
# The result format plugin

How the transform guest writes a score: the whole part, a point, and the
fraction rounded to four decimals. Scores are exact rationals, and a whole part
is a `u64`.

## Main definitions

- `ResultFormat.pushU64`, `formatF32Fixed`, `writeF32`
- `ResultFormat.fracOf` — the fraction in ten thousandths

## Main results

- `ResultFormat.formatF32Fixed_eq` — the text as a printed decimal
- `ResultFormat.accurate_iff` — which scores are written accurately
-/

namespace Wafer.ResultFormat

open Lib FixedPoint JsonText

/-- The cast of a float that is no negative one to `u64`. -/
def asU64 (q : ℚ) : ℕ := min ⌊q⌋.toNat u64Max

/-- The digits of `n` from the last one on, in a buffer of `size` places. -/
def digitsInto : ℕ → ℕ → List Char
  | 0, _ => []
  | size + 1, n => if 0 < n then Char.ofNat (n % 10 + 48) :: digitsInto size (n / 10) else []

def pushU64 (out : List Char) (n : ℕ) : List Char :=
  if n = 0 then out ++ ['0'] else out ++ (digitsInto 20 n).reverse

/-- `format!("{frac:04}")`. -/
def padded (frac : ℕ) : List Char :=
  List.replicate (4 - (Nat.toDigits 10 frac).length) '0' ++ Nat.toDigits 10 frac

def formatF32Fixed (value : ℚ) : List Char :=
  let negative := decide (value < 0)
  let absVal := if negative then -value else value
  let integerPart := asU64 absVal
  let frac := asU64 ((absVal - integerPart) * 10000 + 1 / 2)
  let result := pushU64 (if negative then ['-'] else []) integerPart
  if frac = 0 then result ++ ['.', '0']
  else result ++ '.' :: (padded frac).rdropWhile (· = '0')

def writeF32 (out : List Char) (value : ℚ) : List Char := out ++ formatF32Fixed value

/-! ## Digits -/

theorem digit_eq {d : ℕ} (h : d < 10) : Char.ofNat (d + 48) = Nat.digitChar d := by
  interval_cases d <;> rfl

theorem digitsInto_reverse {size n : ℕ} (hn : 0 < n) (hsize : n < 10 ^ size) :
    (digitsInto size n).reverse = Nat.toDigits 10 n := by
  induction size generalizing n with
  | zero => omega
  | succ size ih =>
    have hdigit := digit_eq (Nat.mod_lt n (by decide : 0 < 10))
    rw [digitsInto, if_pos hn, List.reverse_cons, hdigit]
    by_cases h : n < 10
    · have hzero : n / 10 = 0 := Nat.div_eq_of_lt h
      have hnone : digitsInto size 0 = [] := by
        cases size
        · rfl
        · rfl
      rw [hzero, hnone, Nat.toDigits_of_lt_base h, Nat.mod_eq_of_lt h]
      rfl
    · have hle : 10 ≤ n := Nat.le_of_not_lt h
      rw [ih (Nat.div_pos hle (by decide)) (Nat.div_lt_of_lt_mul (by rwa [← pow_succ'])),
        Nat.toDigits_of_base_le (by decide) hle]

theorem pushU64_eq {out : List Char} {n : ℕ} (h : n ≤ u64Max) :
    pushU64 out n = out ++ Nat.toDigits 10 n := by
  unfold pushU64
  split
  next hzero => rw [hzero, Nat.toDigits_zero]
  next hpos =>
    have hsize : n < 10 ^ 20 := by
      have hmax : u64Max < 10 ^ 20 := by decide
      exact Nat.lt_of_le_of_lt h hmax
    rw [digitsInto_reverse (Nat.pos_of_ne_zero hpos) hsize]

/-! ## The two parts of a score -/

/-- The whole part of a magnitude. -/
def wholeOf (a : ℚ) : ℕ := ⌊a⌋.toNat

/-- The rounded fraction of a magnitude, in ten thousandths. -/
def fracOf (a : ℚ) : ℕ := ⌊Int.fract a * 10000 + 1 / 2⌋.toNat

/-- The decimals a fraction is written with. -/
def decimalsOf (frac : ℕ) : List Char :=
  if frac = 0 then ['0'] else (padded frac).rdropWhile (· = '0')

theorem wholeOf_cast {a : ℚ} (h : 0 ≤ a) : (wholeOf a : ℚ) = ⌊a⌋ := by
  have hfloor : 0 ≤ ⌊a⌋ := Int.floor_nonneg.mpr h
  exact_mod_cast Int.toNat_of_nonneg hfloor

theorem fracOf_cast (a : ℚ) : (fracOf a : ℚ) = ⌊Int.fract a * 10000 + 1 / 2⌋ := by
  have hfract := Int.fract_nonneg a
  have hfloor : 0 ≤ ⌊Int.fract a * 10000 + 1 / 2⌋ := Int.floor_nonneg.mpr (by linarith)
  exact_mod_cast Int.toNat_of_nonneg hfloor

/-- The rounded fraction is within half a ten thousandth. -/
theorem fracOf_near (a : ℚ) :
    (fracOf a : ℚ) ≤ Int.fract a * 10000 + 1 / 2 ∧
      Int.fract a * 10000 + 1 / 2 < fracOf a + 1 := by
  rw [fracOf_cast]
  exact ⟨Int.floor_le _, Int.lt_floor_add_one _⟩

theorem fracOf_le (a : ℚ) : fracOf a ≤ 10000 := by
  have hfract := Int.fract_lt_one a
  have hnear := (fracOf_near a).1
  have hlt : (fracOf a : ℚ) < 10001 := by linarith
  exact Nat.lt_succ_iff.mp (by exact_mod_cast hlt)

/-- Rounding reaches the next whole number in the last half of a ten thousandth. -/
theorem fracOf_eq_iff (a : ℚ) : fracOf a = 10000 ↔ 99995 / 100000 ≤ Int.fract a := by
  obtain ⟨hle, hlt⟩ := fracOf_near a
  constructor
  · intro h
    rw [h] at hle
    push_cast at hle
    linarith
  · intro h
    have hbound : (10000 : ℚ) < fracOf a + 1 := by linarith
    have hbelow : 10000 ≤ fracOf a := Nat.lt_succ_iff.mp (by exact_mod_cast hbound)
    exact Nat.le_antisymm (fracOf_le a) hbelow

theorem asU64_eq {q : ℚ} (h : q < 2 ^ 64) : asU64 q = ⌊q⌋.toNat := by
  refine min_eq_left ?_
  have hfloor : ⌊q⌋ < 2 ^ 64 := Int.floor_lt.mpr (by exact_mod_cast h)
  have hmax : (u64Max : ℤ) = 2 ^ 64 - 1 := by decide
  omega

/-- The text as a printed decimal. -/
theorem formatF32Fixed_eq {v : ℚ} (h : |v| < 2 ^ 63) :
    formatF32Fixed v =
      decimal (decide (v < 0)) (wholeOf |v|) (decimalsOf (fracOf |v|)) := by
  have habs : (if decide (v < 0) then -v else v) = |v| := by
    by_cases hneg : v < 0
    · simp [hneg, abs_of_neg hneg]
    · simp [hneg, abs_of_nonneg (not_lt.mp hneg)]
  have hwhole : asU64 |v| = wholeOf |v| := asU64_eq (by linarith)
  have hfract : |v| - wholeOf |v| = Int.fract |v| := by
    rw [wholeOf_cast (abs_nonneg v)]
    rfl
  have hfrac : asU64 (Int.fract |v| * 10000 + 1 / 2) = fracOf |v| := by
    refine asU64_eq ?_
    have hlt := Int.fract_lt_one |v|
    linarith
  have hpush : wholeOf |v| ≤ u64Max := by
    rw [← hwhole]
    exact min_le_right _ _
  simp only [formatF32Fixed, habs, hwhole, hfract, hfrac, pushU64_eq hpush, decimal, decimalsOf]
  by_cases hzero : fracOf |v| = 0
  · rw [if_pos hzero, if_pos hzero, List.append_assoc]
  · rw [if_neg hzero, if_neg hzero, List.append_assoc]

/-! ## What the decimals are worth -/

theorem length_padded {frac : ℕ} (h : frac < 10000) : (padded frac).length = 4 := by
  have hlen : (Nat.toDigits 10 frac).length ≤ 4 :=
    (Nat.length_toDigits_le_iff (by decide) (by decide)).mpr (by omega)
  rw [padded, List.length_append, List.length_replicate]
  omega

theorem fractionOf_decimalsOf {frac : ℕ} (h : frac < 10000) :
    fractionOf (decimalsOf frac) = frac / 10000 := by
  unfold decimalsOf
  split
  next hzero =>
    subst hzero
    norm_num [fractionOf, Literal.digitsValue]
  next =>
    rw [value_trimmed, fractionOf, length_padded h, padded, value_padded]
    norm_num

theorem decimalsOf_next : decimalsOf 10000 = ['1'] := by decide

theorem fractionOf_tenth : fractionOf ['1'] = 1 / 10 := by
  have hdigit : Literal.digitsValue ['1'] = 1 := rfl
  norm_num [fractionOf, hdigit]

theorem isDigit_padded {frac : ℕ} : ∀ c ∈ padded frac, c.isDigit = true := by
  intro c hc
  rcases List.mem_append.mp hc with hzero | hdigit
  · rw [List.eq_of_mem_replicate hzero]
    rfl
  · exact isDigit_toDigits c hdigit

theorem isDigit_decimalsOf (frac : ℕ) : ∀ c ∈ decimalsOf frac, c.isDigit = true := by
  intro c hc
  unfold decimalsOf at hc
  split at hc
  next =>
    rw [List.mem_singleton.mp hc]
    rfl
  next => exact isDigit_padded c ((List.rdropWhile_prefix _ _).subset hc)

theorem decimalsOf_ne_nil {frac : ℕ} : decimalsOf frac ≠ [] := by
  unfold decimalsOf
  split
  next => exact List.cons_ne_nil _ _
  next hpos =>
    intro hnil
    have hzeros : ∀ c ∈ padded frac, c = '0' := by
      intro c hc
      simpa using List.rdropWhile_eq_nil_iff.mp hnil c hc
    have hvalue : Literal.digitsValue (padded frac) = 0 := by
      rw [List.eq_replicate_of_mem hzeros, digitsValue_zeros]
    rw [padded, value_padded] at hvalue
    exact hpos hvalue

/-! ## Accuracy -/

/-- What the text of a magnitude is worth. -/
def written (a : ℚ) : ℚ := wholeOf a + fractionOf (decimalsOf (fracOf a))

/-- The text is a JSON number, its value the magnitude written under the sign. -/
theorem spells_formatF32Fixed {v : ℚ} (h : |v| < 2 ^ 63) :
    Spells (formatF32Fixed v) (if v < 0 then -written |v| else written |v|) := by
  rw [formatF32Fixed_eq h]
  have hspells := spells_decimal (decide (v < 0)) (wholeOf |v|) decimalsOf_ne_nil
    (isDigit_decimalsOf (fracOf |v|))
  simpa only [decide_eq_true_eq, written] using hspells

/-- A sign changes no distance. -/
theorem signed_distance (v q : ℚ) : |(if v < 0 then -q else q) - v| = |q - abs v| := by
  split
  next hneg =>
    rw [abs_of_neg hneg, ← abs_neg]
    congr 1
    ring
  next hpos => rw [abs_of_nonneg (not_lt.mp hpos)]

theorem written_sub {a : ℚ} (h : 0 ≤ a) :
    written a - a = fractionOf (decimalsOf (fracOf a)) - Int.fract a := by
  rw [written, wholeOf_cast h, Int.fract]
  ring

/-- What is written is near the magnitude unless rounding reaches the next whole number. -/
theorem written_near_iff {a : ℚ} (h : 0 ≤ a) :
    |written a - a| ≤ 1 / 20000 ↔ Int.fract a < 99995 / 100000 := by
  rw [written_sub h]
  obtain ⟨hle, hlt⟩ := fracOf_near a
  constructor
  · intro hnear
    by_contra hreach
    rw [(fracOf_eq_iff a).mpr (not_lt.mp hreach), decimalsOf_next, fractionOf_tenth] at hnear
    have hfar := (abs_le.mp hnear).1
    linarith
  · intro hbelow
    have hne : fracOf a ≠ 10000 := fun he => not_le.mpr hbelow ((fracOf_eq_iff a).mp he)
    have hfrac : fracOf a < 10000 := lt_of_le_of_ne (fracOf_le a) hne
    rw [fractionOf_decimalsOf hfrac, abs_le]
    constructor
    · linarith
    · linarith

/-- A score is written as a JSON number within half a ten thousandth exactly when its fraction does
not round to the next whole number. -/
theorem accurate_iff (v : ℚ) (h : |v| < 2 ^ 63) :
    (∃ q, Spells (formatF32Fixed v) q ∧ |q - v| ≤ 1 / 20000) ↔
      Int.fract |v| < 99995 / 100000 := by
  rw [← written_near_iff (abs_nonneg v), ← signed_distance v]
  constructor
  · rintro ⟨q, hq, hnear⟩
    rwa [hq.unique (spells_formatF32Fixed h)] at hnear
  · intro hnear
    exact ⟨_, spells_formatF32Fixed h, hnear⟩

theorem accurate_half : |(1 / 2 : ℚ)| < 2 ^ 63 ∧
    ∃ q, Spells (formatF32Fixed (1 / 2)) q ∧ |q - 1 / 2| ≤ 1 / 20000 := by
  have hbound : |(1 / 2 : ℚ)| < 2 ^ 63 := by norm_num
  have hfract : Int.fract |(1 / 2 : ℚ)| < 99995 / 100000 := by norm_num
  exact ⟨hbound, (accurate_iff (1 / 2) hbound).mpr hfract⟩

/-- A score just below one is written as a tenth. -/
theorem nearOne_inaccurate : |(1 - 1 / 2 ^ 20 : ℚ)| < 2 ^ 63 ∧
    formatF32Fixed (1 - 1 / 2 ^ 20) = ['0', '.', '1'] ∧
    ¬ ∃ q, Spells (formatF32Fixed (1 - 1 / 2 ^ 20)) q ∧ |q - (1 - 1 / 2 ^ 20)| ≤ 1 / 20000 := by
  have htext : formatF32Fixed (1 - 1 / 2 ^ 20) = ['0', '.', '1'] := by decide +kernel
  have htenth : Spells ['0', '.', '1'] (1 / 10) := by
    have hspells := spells_decimal false 0 (List.cons_ne_nil '1' []) (by simp)
    rwa [fractionOf_tenth, if_neg Bool.false_ne_true, Nat.cast_zero, zero_add] at hspells
  refine ⟨by norm_num [abs_of_pos], htext, ?_⟩
  rintro ⟨q, hq, hnear⟩
  rw [htext] at hq
  rw [hq.unique htenth] at hnear
  norm_num [abs_le] at hnear

end Wafer.ResultFormat
