import Mathlib.Algebra.Order.Ring.Int
import Mathlib.Algebra.Ring.Int.Defs
import Mathlib.Data.Int.ModEq
import Mathlib.Data.List.Induction
import Mathlib.Tactic.Positivity
import Mathlib.Tactic.Ring

/-!
# Big-endian integers

Bytes as the digits of an integer to the base 256, the highest one first, read
without a sign or in two's complement, and words that take in one byte after the
other by a shift and an or.

## Main definitions

- `BigEndian.unsigned`, `BigEndian.signed` — the integer of some bytes
- `BigEndian.encode` — the bytes of an integer
- `BigEndian.pushByte` — a word takes in one byte

## Main results

- `BigEndian.unsigned_encode`, `signed_encode` — encoded integers are read back
- `BigEndian.toNat_pushBytes` — the word of some bytes
- `BigEndian.signed_eq_iff` — when the two readings agree
-/

namespace Wafer.Lib

namespace BigEndian

def unsigned (bytes : List UInt8) : ℕ := bytes.foldl (fun n b => n * 256 + b.toNat) 0

/-- The integer in two's complement. -/
def signed (bytes : List UInt8) : ℤ := Int.bmod (unsigned bytes) (256 ^ bytes.length)

/-- The last `width` bytes of an integer. -/
def encode : ℕ → ℤ → List UInt8
  | 0, _ => []
  | width + 1, n => encode width (n / 256) ++ [UInt8.ofNat (n % 256).toNat]

def pushByte {w : ℕ} (v : BitVec w) (b : UInt8) : BitVec w := v <<< 8 ||| BitVec.ofNat w b.toNat

variable {width w : ℕ} {n : ℤ} {bytes : List UInt8}

/-! ## Bytes as digits -/

@[simp]
theorem unsigned_concat (bytes : List UInt8) (b : UInt8) :
    unsigned (bytes ++ [b]) = unsigned bytes * 256 + b.toNat := by
  rw [unsigned, List.foldl_append]
  rfl

theorem unsigned_lt (bytes : List UInt8) : unsigned bytes < 256 ^ bytes.length := by
  induction bytes using List.reverseRecOn with
  | nil => exact Nat.one_pos
  | append_singleton bytes b ih =>
    have hb : b.toNat < 256 := b.toNat_lt
    rw [unsigned_concat, List.length_append, List.length_singleton, pow_succ]
    omega

theorem unsigned_cons (b : UInt8) (bytes : List UInt8) :
    unsigned (b :: bytes) = b.toNat * 256 ^ bytes.length + unsigned bytes := by
  induction bytes using List.reverseRecOn with
  | nil => simp [unsigned]
  | append_singleton bytes c ih =>
    rw [← List.cons_append, unsigned_concat, ih, unsigned_concat, List.length_append,
      List.length_singleton, pow_succ]
    ring

/-- The two readings agree on a number in the lower half. -/
theorem signed_eq_iff (hne : bytes ≠ []) :
    signed bytes = unsigned bytes ↔ 2 * unsigned bytes < 256 ^ bytes.length := by
  have hlt := unsigned_lt bytes
  obtain ⟨half, hhalf⟩ : 2 ∣ 256 ^ bytes.length :=
    Dvd.dvd.trans (by decide) (dvd_pow_self 256 (List.length_pos_iff.mpr hne).ne')
  have hmod : ((unsigned bytes : ℕ) : ℤ) % ((256 ^ bytes.length : ℕ) : ℤ) = unsigned bytes :=
    Int.emod_eq_of_lt (Int.natCast_nonneg _) (by exact_mod_cast hlt)
  rw [signed, Int.bmod_eq_emod, hmod]
  split
  next h => omega
  next h => omega

/-- A number is in the lower half exactly when its first byte is. -/
theorem lower_half_iff (b : UInt8) (bytes : List UInt8) :
    2 * unsigned (b :: bytes) < 256 ^ (b :: bytes).length ↔ b.toNat < 128 := by
  have hlt := unsigned_lt bytes
  rw [unsigned_cons, List.length_cons, pow_succ]
  constructor
  · intro h
    by_contra hb
    have hle := Nat.mul_le_mul_right (256 ^ bytes.length) (Nat.le_of_not_lt hb)
    omega
  · intro h
    have hle := Nat.mul_le_mul_right (256 ^ bytes.length) (Nat.le_of_lt_succ h)
    omega

/-! ## Encoded integers -/

@[simp]
theorem length_encode (width : ℕ) (n : ℤ) : (encode width n).length = width := by
  induction width generalizing n with
  | zero => rfl
  | succ width ih => rw [encode, List.length_append, ih, List.length_singleton]

theorem emod_byte (n m : ℤ) : n % (256 * m) = n % 256 + 256 * (n / 256 % m) := by
  rw [Int.emod_def n (256 * m), Int.emod_def (n / 256) m, Int.emod_def n 256,
    ← Int.ediv_ediv_of_nonneg (by decide)]
  ring

/-- The bytes are those of the integer modulo the power of their number. -/
theorem unsigned_encode (width : ℕ) (n : ℤ) :
    (unsigned (encode width n) : ℤ) = n % 256 ^ width := by
  induction width generalizing n with
  | zero => simp [encode, unsigned]
  | succ width ih =>
    have hbyte : 0 ≤ n % 256 ∧ n % 256 < 256 :=
      ⟨Int.emod_nonneg n (by decide), Int.emod_lt_of_pos n (by decide)⟩
    have hlast : (UInt8.ofNat (n % 256).toNat).toNat = (n % 256).toNat :=
      UInt8.toNat_ofNat_of_lt' (by
        change (n % 256).toNat < 256
        omega)
    rw [encode, unsigned_concat, hlast]
    push_cast
    rw [ih, Int.toNat_of_nonneg hbyte.1, pow_succ', emod_byte]
    ring

/-- An integer in the unsigned range is read back. -/
theorem unsigned_encode_of_lt (h0 : 0 ≤ n) (h : n < 256 ^ width) :
    (unsigned (encode width n) : ℤ) = n := by
  rw [unsigned_encode, Int.emod_eq_of_lt h0 h]

/-- An integer in the signed range is read back. -/
theorem signed_encode (hle : -256 ^ width ≤ 2 * n) (hlt : 2 * n < 256 ^ width) :
    signed (encode width n) = n := by
  have hcast : ((256 ^ width : ℕ) : ℤ) = 256 ^ width := by push_cast; rfl
  rw [signed, length_encode, unsigned_encode, ← hcast, Int.emod_bmod]
  refine Int.bmod_eq_of_le_mul_two ?_ ?_
  · rw [hcast, mul_comm]
    exact hle
  · rw [hcast, mul_comm]
    exact hlt

/-! ## Words -/

theorem toNat_pushByte (v : BitVec w) (b : UInt8) (hw : 8 ≤ w) :
    (pushByte v b).toNat = (v.toNat * 256 + b.toNat) % 2 ^ w := by
  have hb : b.toNat < 2 ^ 8 := b.toNat_lt
  have hpow : 2 ^ w = 2 ^ (w - 8) * 2 ^ 8 := by rw [← pow_add, Nat.sub_add_cancel hw]
  have hbyte : b.toNat < 2 ^ w := by
    have hle : 2 ^ 8 ≤ 2 ^ w := Nat.pow_le_pow_right (by decide) hw
    omega
  -- the shifted word keeps its lowest `w - 8` bits, and the byte has the eight below
  have hshift : (v.toNat <<< 8) % 2 ^ w = (v.toNat % 2 ^ (w - 8)) <<< 8 := by
    rw [Nat.shiftLeft_eq, Nat.shiftLeft_eq, hpow, Nat.mul_mod_mul_right]
  rw [pushByte, BitVec.toNat_or, BitVec.toNat_shiftLeft, BitVec.toNat_ofNat, hshift,
    Nat.mod_eq_of_lt hbyte, ← Nat.shiftLeft_add_eq_or_of_lt hb, Nat.shiftLeft_eq]
  have hhigh : (v.toNat * 256 + b.toNat) / 2 ^ 8 = v.toNat := by omega
  have hlow : (v.toNat * 256 + b.toNat) % 2 ^ 8 = b.toNat := by omega
  rw [hpow, mul_comm (2 ^ (w - 8)), Nat.mod_mul, hhigh, hlow]
  ring

/-- The word of some bytes is their number, as far as the word reaches. -/
theorem toNat_pushBytes (bytes : List UInt8) (hw : 8 ≤ w) :
    (bytes.foldl pushByte (0 : BitVec w)).toNat = unsigned bytes % 2 ^ w := by
  induction bytes using List.reverseRecOn with
  | nil => simp [unsigned]
  | append_singleton bytes b ih =>
    rw [List.foldl_append, List.foldl_cons, List.foldl_nil, toNat_pushByte _ _ hw, ih,
      unsigned_concat, Nat.add_mod, Nat.mul_mod, Nat.mod_mod, ← Nat.mul_mod, ← Nat.add_mod]

theorem pow_bytes (k : ℕ) : 256 ^ k = 2 ^ (8 * k) := by
  rw [pow_mul]
  rfl

/-- As many bytes as the word has are read in two's complement. -/
theorem toInt_pushBytes_full (hlen : 8 * bytes.length = w) (hne : bytes ≠ []) :
    (bytes.foldl pushByte (0 : BitVec w)).toInt = signed bytes := by
  have hpos := List.length_pos_iff.mpr hne
  have hlt := unsigned_lt bytes
  rw [pow_bytes, hlen] at hlt
  rw [BitVec.toInt_eq_toNat_bmod, toNat_pushBytes bytes (by omega), Nat.mod_eq_of_lt hlt, signed,
    pow_bytes, hlen]

/-- Fewer bytes than the word has are read without a sign. -/
theorem toInt_pushBytes_short (hlen : 8 * bytes.length < w) (hw : 8 ≤ w) :
    (bytes.foldl pushByte (0 : BitVec w)).toInt = unsigned bytes := by
  have hlt := unsigned_lt bytes
  rw [pow_bytes] at hlt
  have hpow : 2 * 2 ^ (8 * bytes.length) ≤ 2 ^ w := by
    rw [← pow_succ']
    exact Nat.pow_le_pow_right (by decide) hlen
  have hnat := toNat_pushBytes bytes hw
  rw [Nat.mod_eq_of_lt (by omega)] at hnat
  rw [BitVec.toInt_eq_toNat_of_lt (by omega), hnat]

end BigEndian

end Wafer.Lib
