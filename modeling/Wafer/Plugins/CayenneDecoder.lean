import Mathlib.Data.List.Forall2
import Mathlib.Data.Nat.Bitwise
import Mathlib.Data.Rat.Cast.Defs
import Wafer.Lib.BigEndian

/-!
# The CayenneLPP decoder plugin

The transform guest's decoder of sensor records: a channel, a type and the bytes
of its fields, big-endian. Twelve types are standard, others are configured with
a size and a scale. Values are exact, and `usize` has 32 bits in the guest.

## Main definitions

- `CayenneDecoder.decodeCayenneLpp` — the readings of a payload
- `CayenneDecoder.StandardType`, `Field` — the layout of the standard records

## Main results

- `CayenneDecoder.decodeRecord_standard` — a standard record is read by its fields
- `CayenneDecoder.decodeRecord_sized`, `decodeRecord_wraps` — how a record is read
- `CayenneDecoder.decodeFrom_unfold` — the loop, pass by pass
-/

namespace Wafer.CayenneDecoder

open Lib BigEndian

inductive SensorValue
  | single (v : ℚ)
  | triple (x y z : ℚ)
  deriving DecidableEq, Repr

structure SensorReading where
  channel : UInt8
  typeName : String
  value : SensorValue
  unit : String
  deriving DecidableEq, Repr

structure CustomType where
  name : String
  size : UInt32
  scale : ℚ
  deriving DecidableEq, Repr

abbrev ExtraTypes := UInt8 → Option CustomType

/-- Decoding without readings: a `ProcessError`, or an index that stops the guest. -/
inductive Failure
  | badInput (message : String)
  | outOfBounds
  deriving DecidableEq, Repr

def truncated : Failure := .badInput "truncated"

/-! ## Bytes of the payload -/

def byteAt (data : List UInt8) (i : ℕ) : Except Failure UInt8 :=
  match data[i]? with
  | some b => .ok b
  | none => .error .outOfBounds

/-- `&data[low..high]`. -/
def slice (data : List UInt8) (low high : ℕ) : Except Failure (List UInt8) :=
  if low ≤ high ∧ high ≤ data.length then .ok ((data.drop low).take (high - low))
  else .error .outOfBounds

/-- A sum in the guest. Positions in a payload stay far below the width, only a configured size
can pass it. -/
def usizeAdd (a b : ℕ) : ℕ := (a + b) % 2 ^ 32

/-- `i16::from_be_bytes` of two bytes. -/
def readI16 (data : List UInt8) (pos : ℕ) : Except Failure ℤ := do
  let high ← byteAt data pos
  let low ← byteAt data (pos + 1)
  return signed [high, low]

/-- `u16::from_be_bytes` of two bytes. -/
def readU16 (data : List UInt8) (pos : ℕ) : Except Failure ℕ := do
  let high ← byteAt data pos
  let low ← byteAt data (pos + 1)
  return unsigned [high, low]

def readI24Be (bytes : List UInt8) : Except Failure ℤ := do
  let b0 ← byteAt bytes 0
  let b1 ← byteAt bytes 1
  let b2 ← byteAt bytes 2
  let raw : BitVec 32 :=
    BitVec.ofNat 32 b0.toNat <<< 16 ||| BitVec.ofNat 32 b1.toNat <<< 8 ||| BitVec.ofNat 32 b2.toNat
  if raw &&& 0x800000#32 ≠ 0#32 then return (raw ||| ~~~0xFFFFFF#32).toInt
  else return raw.toInt

def readSignedBytes (bytes : List UInt8) : ℤ :=
  match bytes with
  | [b0] => signed [b0]
  | [b0, b1] => signed [b0, b1]
  | [b0, b1, b2, b3] => signed [b0, b1, b2, b3]
  | _ => (bytes.foldl pushByte (0 : BitVec 64)).toInt

/-! ## The decoder -/

/-- Name, unit and size of a standard type. -/
def standardType (typeId : UInt8) : Option (String × String × ℕ) :=
  match typeId with
  | 0x00 => some ("digital_input", "", 1)
  | 0x01 => some ("digital_output", "", 1)
  | 0x02 => some ("analog_input", "V", 2)
  | 0x03 => some ("analog_output", "V", 2)
  | 0x65 => some ("luminosity", "lux", 2)
  | 0x66 => some ("presence", "", 1)
  | 0x67 => some ("temperature", "°C", 2)
  | 0x68 => some ("humidity", "%", 1)
  | 0x71 => some ("accelerometer", "g", 6)
  | 0x73 => some ("barometer", "hPa", 2)
  | 0x86 => some ("gyroscope", "°/s", 6)
  | 0x88 => some ("gps", "", 9)
  | _ => none

/-- Three `i16` over one scale. -/
def readAxes (data : List UInt8) (pos : ℕ) (scale : ℚ) : Except Failure SensorValue := do
  let x ← readI16 data pos
  let y ← readI16 data (pos + 2)
  let z ← readI16 data (pos + 4)
  return .triple (x / scale) (y / scale) (z / scale)

def standardValue (typeId : UInt8) (data : List UInt8) (pos : ℕ) : Except Failure SensorValue :=
  match typeId with
  | 0x00 | 0x01 | 0x66 => do
    let raw ← byteAt data pos
    return .single raw.toNat
  | 0x02 | 0x03 => do
    let raw ← readI16 data pos
    return .single (raw / 100)
  | 0x65 => do
    let raw ← readU16 data pos
    return .single raw
  | 0x67 => do
    let raw ← readI16 data pos
    return .single (raw / 10)
  | 0x68 => do
    let raw ← byteAt data pos
    return .single (raw.toNat / 2)
  | 0x71 => readAxes data pos 1000
  | 0x86 => readAxes data pos 100
  | 0x73 => do
    let raw ← readU16 data pos
    return .single (raw / 10)
  | 0x88 => do
    let lat ← readI24Be (← slice data pos (pos + 3))
    let lon ← readI24Be (← slice data (pos + 3) (pos + 6))
    let alt ← readI24Be (← slice data (pos + 6) (pos + 9))
    return .triple (lat / 10000) (lon / 10000) (alt / 100)
  | _ => .ok (.single 0)

/-- The reading, and the position behind it. -/
def decodeStandardType (typeId channel : UInt8) (data : List UInt8) (pos : ℕ) :
    Except Failure (Option (SensorReading × ℕ)) :=
  match standardType typeId with
  | none => .ok none
  | some (name, unit, size) =>
    if data.length < pos + size then .error truncated
    else do
      let value ← standardValue typeId data pos
      return some (⟨channel, name, value, unit⟩, pos + size)

/-- A record of a type that is no standard one. Nothing is read behind an unknown type. -/
def decodeOther (extraTypes : ExtraTypes) (typeId channel : UInt8) (data : List UInt8) (pos : ℕ) :
    Except Failure (SensorReading × Option ℕ) :=
  match extraTypes typeId with
  | some custom =>
    let stop := usizeAdd pos custom.size.toNat
    if data.length < stop then .error truncated
    else do
      let raw := readSignedBytes (← slice data pos stop)
      return (⟨channel, custom.name, .single (raw * custom.scale), ""⟩, some stop)
  | none => .ok (⟨channel, "unknown", .single typeId.toNat, ""⟩, none)

/-- One pass of the loop: a reading, and where the next pass begins unless it is the last. -/
def decodeRecord (extraTypes : ExtraTypes) (data : List UInt8) (pos : ℕ) :
    Except Failure (SensorReading × Option ℕ) :=
  if data.length < pos + 2 then .error truncated
  else do
    let channel ← byteAt data pos
    let typeId ← byteAt data (pos + 1)
    match ← decodeStandardType typeId channel data (pos + 2) with
    | some (reading, next) => return (reading, some next)
    | none => decodeOther extraTypes typeId channel data (pos + 2)

def decodeLoop (extraTypes : ExtraTypes) (data : List UInt8) :
    ℕ → ℕ → Except Failure (List SensorReading)
  | 0, _ => .ok []
  | passes + 1, pos =>
    if pos < data.length then
      match decodeRecord extraTypes data pos with
      | .error e => .error e
      | .ok (reading, none) => .ok [reading]
      | .ok (reading, some next) => (decodeLoop extraTypes data passes next).map (reading :: ·)
    else .ok []

/-- Every pass but the last moves on, so the loop takes no more passes than there are bytes. -/
def decodeCayenneLpp (data : List UInt8) (extraTypes : ExtraTypes) :
    Except Failure (List SensorReading) :=
  decodeLoop extraTypes data data.length 0

/-! ## Reading at a position -/

variable {extra : ExtraTypes} {data front body rest : List UInt8} {pos next : ℕ}
  {channel typeId : UInt8} {reading : SensorReading}

@[simp]
theorem ok_bind {α β : Type} (a : α) (f : α → Except Failure β) : (.ok a >>= f) = f a := rfl

theorem pos_lt_of_drop {b : UInt8} (hbody : data.drop pos = b :: body) : pos < data.length := by
  have hlen := congrArg List.length hbody
  rw [List.length_drop, List.length_cons] at hlen
  omega

theorem byteAt_ok {i : ℕ} {b : UInt8} (h : data[i]? = some b) : byteAt data i = .ok b := by
  rw [byteAt, h]

/-- The byte some places behind a position. -/
theorem byteAt_drop {i : ℕ} {b : UInt8} (hbody : data.drop pos = body) (h : body[i]? = some b) :
    byteAt data (pos + i) = .ok b := by
  refine byteAt_ok ?_
  rw [← List.getElem?_drop, hbody, h]

theorem slice_drop {i j : ℕ} (hbody : data.drop pos = body) (hpos : pos ≤ data.length)
    (hij : i ≤ j) (hj : j ≤ body.length) :
    slice data (pos + i) (pos + j) = .ok ((body.drop i).take (j - i)) := by
  have hlen := congrArg List.length hbody
  rw [List.length_drop] at hlen
  rw [slice, ← List.drop_drop, hbody, Nat.add_sub_add_left, if_pos ⟨by omega, by omega⟩]

theorem readI16_drop {i : ℕ} {high low : UInt8} (hbody : data.drop pos = body)
    (hhigh : body[i]? = some high) (hlow : body[i + 1]? = some low) :
    readI16 data (pos + i) = .ok (signed [high, low]) := by
  rw [readI16, byteAt_drop hbody hhigh, Nat.add_assoc, byteAt_drop hbody hlow]
  rfl

theorem readU16_drop {i : ℕ} {high low : UInt8} (hbody : data.drop pos = body)
    (hhigh : body[i]? = some high) (hlow : body[i + 1]? = some low) :
    readU16 data (pos + i) = .ok (unsigned [high, low]) := by
  rw [readU16, byteAt_drop hbody hhigh, Nat.add_assoc, byteAt_drop hbody hlow]
  rfl

/-- Three bytes by shifts and ors. -/
theorem toNat_three (b0 b1 b2 : UInt8) :
    (BitVec.ofNat 32 b0.toNat <<< 16 ||| BitVec.ofNat 32 b1.toNat <<< 8 |||
      BitVec.ofNat 32 b2.toNat).toNat = unsigned [b0, b1, b2] := by
  have h0 : b0.toNat < 256 := b0.toNat_lt
  have h1 : b1.toNat < 2 ^ 8 := b1.toNat_lt
  have h2 : b2.toNat < 2 ^ 8 := b2.toNat_lt
  have hmiddle : b1.toNat <<< 8 + b2.toNat < 2 ^ 16 := by
    rw [Nat.shiftLeft_eq]
    omega
  have hvalue : unsigned [b0, b1, b2] = b0.toNat <<< 16 + (b1.toNat <<< 8 + b2.toNat) := by
    rw [Nat.shiftLeft_eq, Nat.shiftLeft_eq]
    simp only [unsigned, List.foldl_cons, List.foldl_nil]
    omega
  rw [hvalue, Nat.shiftLeft_add_eq_or_of_lt hmiddle, Nat.shiftLeft_add_eq_or_of_lt h2,
    BitVec.or_assoc]
  simp only [BitVec.toNat_or, BitVec.toNat_shiftLeft, BitVec.toNat_ofNat, Nat.shiftLeft_eq]
  rw [Nat.mod_eq_of_lt (a := b0.toNat) (by omega), Nat.mod_eq_of_lt (a := b1.toNat) (by omega),
    Nat.mod_eq_of_lt (a := b2.toNat) (by omega), Nat.mod_eq_of_lt (by omega),
    Nat.mod_eq_of_lt (by omega)]

theorem sign_bit_iff {raw : BitVec 32} (hlt : raw.toNat < 2 ^ 24) :
    raw &&& 0x800000#32 ≠ 0#32 ↔ 2 ^ 23 ≤ raw.toNat := by
  have hand : (raw &&& 0x800000#32).toNat = (raw.toNat.testBit 23).toNat * 2 ^ 23 := by
    rw [BitVec.toNat_and]
    exact Nat.and_two_pow raw.toNat 23
  have hbit : raw.toNat.testBit 23 = decide (2 ^ 23 ≤ raw.toNat) := by
    rw [Nat.testBit_eq_decide_div_mod_eq]
    exact decide_eq_decide.mpr (by omega)
  rw [ne_eq, ← BitVec.toNat_inj, hand, hbit]
  simp

theorem toInt_extended {raw : BitVec 32} (hlt : raw.toNat < 2 ^ 24) :
    (raw ||| ~~~0xFFFFFF#32).toInt = raw.toNat - 2 ^ 24 := by
  have hor : (raw ||| ~~~0xFFFFFF#32).toNat = 255 * 2 ^ 24 + raw.toNat := by
    have hmask : (~~~0xFFFFFF#32).toNat = 255 <<< 24 := by decide
    rw [BitVec.toNat_or, hmask, Nat.or_comm, ← Nat.shiftLeft_add_eq_or_of_lt hlt, Nat.shiftLeft_eq]
  rw [BitVec.toInt_eq_toNat_cond, hor, if_neg (by omega)]
  push_cast
  ring

/-- The sign of a 24-bit integer is extended. -/
theorem readI24Be_eq (b0 b1 b2 : UInt8) : readI24Be [b0, b1, b2] = .ok (signed [b0, b1, b2]) := by
  have hlt := unsigned_lt [b0, b1, b2]
  have hraw := toNat_three b0 b1 b2
  simp only [List.length_cons, List.length_nil] at hlt
  generalize hword : BitVec.ofNat 32 b0.toNat <<< 16 ||| BitVec.ofNat 32 b1.toNat <<< 8 |||
    BitVec.ofNat 32 b2.toNat = raw at hraw
  have hsigned : signed [b0, b1, b2] = Int.bmod raw.toNat (2 ^ 24) := by
    have hlen : [b0, b1, b2].length = 3 := rfl
    rw [hraw, signed, pow_bytes, hlen]
  have hdef : readI24Be [b0, b1, b2] =
      if raw &&& 0x800000#32 ≠ 0#32 then .ok (raw ||| ~~~0xFFFFFF#32).toInt else .ok raw.toInt := by
    rw [← hword]
    rfl
  rw [hdef, hsigned, Int.bmod_eq_emod, Int.emod_eq_of_lt (by omega) (by omega)]
  split
  next hneg =>
    have hle := (sign_bit_iff (by omega)).mp hneg
    rw [toInt_extended (by omega), if_pos (by omega)]
    rfl
  next hpos =>
    have hsmall : raw.toNat < 2 ^ 23 :=
      Nat.lt_of_not_le fun hle => hpos ((sign_bit_iff (by omega)).mpr hle)
    rw [BitVec.toInt_eq_toNat_of_lt (by omega), if_neg (by omega), Nat.cast_zero, sub_zero]

/-! ## Standard records -/

/-- A field of a record: its bytes, whether it has a sign, and its scale. -/
structure Field where
  width : ℕ
  isSigned : Bool
  scale : ℚ

namespace Field

def integer (f : Field) (bytes : List UInt8) : ℤ :=
  if f.isSigned then signed bytes else unsigned bytes

/-- The integers a field has room for. -/
def Fits (f : Field) (n : ℤ) : Prop :=
  if f.isSigned then -256 ^ f.width ≤ 2 * n ∧ 2 * n < 256 ^ f.width else 0 ≤ n ∧ n < 256 ^ f.width

theorem integer_encode {f : Field} {n : ℤ} (h : f.Fits n) :
    f.integer (BigEndian.encode f.width n) = n := by
  unfold Fits at h
  unfold integer
  split at h
  next hs =>
    rw [if_pos hs]
    exact signed_encode h.1 h.2
  next hs =>
    rw [if_neg hs]
    exact unsigned_encode_of_lt h.1 h.2

/-- The integers of fields one behind the other. -/
def integers : List Field → List UInt8 → List ℤ
  | [], _ => []
  | f :: fields, bytes => f.integer (bytes.take f.width) :: integers fields (bytes.drop f.width)

/-- The bytes of fields one behind the other. -/
def encodeAll (fields : List Field) (raws : List ℤ) : List UInt8 :=
  (List.zipWith (fun f n => BigEndian.encode f.width n) fields raws).flatten

theorem integers_encodeAll {fields : List Field} {raws : List ℤ}
    (h : List.Forall₂ Fits fields raws) : integers fields (encodeAll fields raws) = raws := by
  induction h with
  | nil => rfl
  | @cons f n fields raws hfits _ ih =>
    have hbytes : encodeAll (f :: fields) (n :: raws) =
        BigEndian.encode f.width n ++ encodeAll fields raws := rfl
    rw [hbytes, integers, List.take_left' (length_encode f.width n),
      List.drop_left' (length_encode f.width n), integer_encode hfits, ih]

theorem length_encodeAll {fields : List Field} {raws : List ℤ}
    (h : List.Forall₂ Fits fields raws) :
    (encodeAll fields raws).length = (fields.map width).sum := by
  induction h with
  | nil => rfl
  | @cons f n fields raws _ _ ih =>
    have hbytes : encodeAll (f :: fields) (n :: raws) =
        BigEndian.encode f.width n ++ encodeAll fields raws := rfl
    rw [hbytes, List.length_append, length_encode, ih]
    rfl

end Field

inductive StandardType
  | digitalInput
  | digitalOutput
  | analogInput
  | analogOutput
  | luminosity
  | presence
  | temperature
  | humidity
  | accelerometer
  | barometer
  | gyroscope
  | gps
  deriving DecidableEq, Repr

namespace StandardType

def code : StandardType → UInt8
  | digitalInput => 0x00
  | digitalOutput => 0x01
  | analogInput => 0x02
  | analogOutput => 0x03
  | luminosity => 0x65
  | presence => 0x66
  | temperature => 0x67
  | humidity => 0x68
  | accelerometer => 0x71
  | barometer => 0x73
  | gyroscope => 0x86
  | gps => 0x88

def name : StandardType → String
  | digitalInput => "digital_input"
  | digitalOutput => "digital_output"
  | analogInput => "analog_input"
  | analogOutput => "analog_output"
  | luminosity => "luminosity"
  | presence => "presence"
  | temperature => "temperature"
  | humidity => "humidity"
  | accelerometer => "accelerometer"
  | barometer => "barometer"
  | gyroscope => "gyroscope"
  | gps => "gps"

def unit : StandardType → String
  | analogInput | analogOutput => "V"
  | luminosity => "lux"
  | temperature => "°C"
  | humidity => "%"
  | accelerometer => "g"
  | barometer => "hPa"
  | gyroscope => "°/s"
  | _ => ""

def fields : StandardType → List Field
  | digitalInput | digitalOutput | presence => [⟨1, false, 1⟩]
  | analogInput | analogOutput => [⟨2, true, 100⟩]
  | luminosity => [⟨2, false, 1⟩]
  | temperature => [⟨2, true, 10⟩]
  | humidity => [⟨1, false, 2⟩]
  | accelerometer => [⟨2, true, 1000⟩, ⟨2, true, 1000⟩, ⟨2, true, 1000⟩]
  | barometer => [⟨2, false, 10⟩]
  | gyroscope => [⟨2, true, 100⟩, ⟨2, true, 100⟩, ⟨2, true, 100⟩]
  | gps => [⟨3, true, 10000⟩, ⟨3, true, 10000⟩, ⟨3, true, 100⟩]

def size (t : StandardType) : ℕ := (t.fields.map Field.width).sum

/-- The value of raw integers: each over its scale. -/
def value (t : StandardType) (raws : List ℤ) : SensorValue :=
  match List.zipWith (fun f (n : ℤ) => (n : ℚ) / f.scale) t.fields raws with
  | [v] => .single v
  | [x, y, z] => .triple x y z
  | _ => .single 0

theorem standardType_code (t : StandardType) :
    standardType t.code = some (t.name, t.unit, t.size) := by
  cases t <;> rfl

theorem exists_code {known : String × String × ℕ} (h : standardType typeId = some known) :
    ∃ t : StandardType, t.code = typeId := by
  unfold standardType at h
  split at h
  · exact ⟨digitalInput, rfl⟩
  · exact ⟨digitalOutput, rfl⟩
  · exact ⟨analogInput, rfl⟩
  · exact ⟨analogOutput, rfl⟩
  · exact ⟨luminosity, rfl⟩
  · exact ⟨presence, rfl⟩
  · exact ⟨temperature, rfl⟩
  · exact ⟨humidity, rfl⟩
  · exact ⟨accelerometer, rfl⟩
  · exact ⟨barometer, rfl⟩
  · exact ⟨gyroscope, rfl⟩
  · exact ⟨gps, rfl⟩
  · cases h

theorem readAxes_drop {b0 b1 b2 b3 b4 b5 : UInt8} (scale : ℚ)
    (hbody : data.drop pos = [b0, b1, b2, b3, b4, b5] ++ rest) :
    readAxes data pos scale = .ok (.triple (signed [b0, b1] / scale) (signed [b2, b3] / scale)
      (signed [b4, b5] / scale)) := by
  have hx : readI16 data pos = .ok (signed [b0, b1]) := readI16_drop (i := 0) hbody rfl rfl
  rw [readAxes, hx, readI16_drop hbody rfl rfl, readI16_drop hbody rfl rfl]
  rfl

theorem exists_of_length_six (h : payload.length = 6) :
    ∃ b0 b1 b2 b3 b4 b5, payload = [b0, b1, b2, b3, b4, b5] :=
  match payload, h with
  | [b0, b1, b2, b3, b4, b5], _ => ⟨b0, b1, b2, b3, b4, b5, rfl⟩

theorem exists_of_length_nine (h : payload.length = 9) :
    ∃ b0 b1 b2 b3 b4 b5 b6 b7 b8, payload = [b0, b1, b2, b3, b4, b5, b6, b7, b8] :=
  match payload, h with
  | [b0, b1, b2, b3, b4, b5, b6, b7, b8], _ => ⟨b0, b1, b2, b3, b4, b5, b6, b7, b8, rfl⟩

/-- The value the decoder reads is that of the fields. -/
theorem standardValue_code (t : StandardType) {payload : List UInt8}
    (hbody : data.drop pos = payload ++ rest) (hlen : payload.length = t.size) :
    standardValue t.code data pos = .ok (t.value (Field.integers t.fields payload)) := by
  cases t
  case digitalInput | digitalOutput | presence | humidity =>
    obtain ⟨b0, rfl⟩ := List.length_eq_one_iff.mp hlen
    have hread : byteAt data pos = .ok b0 := byteAt_drop (i := 0) hbody rfl
    have hone : unsigned [b0] = b0.toNat := by simp [unsigned]
    simp [code, standardValue, hread, value, fields, Field.integers, Field.integer, hone]
  case analogInput | analogOutput | temperature =>
    obtain ⟨b0, b1, rfl⟩ := List.length_eq_two.mp hlen
    have hread : readI16 data pos = .ok (signed [b0, b1]) := readI16_drop (i := 0) hbody rfl rfl
    simp [code, standardValue, hread, value, fields, Field.integers, Field.integer]
  case luminosity | barometer =>
    obtain ⟨b0, b1, rfl⟩ := List.length_eq_two.mp hlen
    have hread : readU16 data pos = .ok (unsigned [b0, b1]) := readU16_drop (i := 0) hbody rfl rfl
    simp [code, standardValue, hread, value, fields, Field.integers, Field.integer]
  case accelerometer | gyroscope =>
    obtain ⟨b0, b1, b2, b3, b4, b5, rfl⟩ := exists_of_length_six hlen
    simp [code, standardValue, readAxes_drop _ hbody, value, fields, Field.integers, Field.integer]
  case gps =>
    obtain ⟨b0, b1, b2, b3, b4, b5, b6, b7, b8, rfl⟩ := exists_of_length_nine hlen
    have hpos : pos ≤ data.length := Nat.le_of_lt (pos_lt_of_drop hbody)
    have hlong : 9 ≤ ([b0, b1, b2, b3, b4, b5, b6, b7, b8] ++ rest).length := by simp
    have hlat : slice data pos (pos + 3) = .ok [b0, b1, b2] :=
      slice_drop (i := 0) hbody hpos (by decide) (by omega)
    have hlon : slice data (pos + 3) (pos + 6) = .ok [b3, b4, b5] :=
      slice_drop hbody hpos (by decide) (by omega)
    have halt : slice data (pos + 6) (pos + 9) = .ok [b6, b7, b8] :=
      slice_drop hbody hpos (by decide) (by omega)
    simp [code, standardValue, hlat, hlon, halt, readI24Be_eq, value, fields, Field.integers,
      Field.integer]

/-- A standard record with enough bytes is read by its fields, and with fewer it is an error. -/
theorem decodeStandardType_code (t : StandardType) (hbody : data.drop pos = body)
    (hpos : pos ≤ data.length) :
    decodeStandardType t.code channel data pos =
      if body.length < t.size then .error truncated
      else .ok (some (⟨channel, t.name, t.value (Field.integers t.fields (body.take t.size)),
        t.unit⟩, pos + t.size)) := by
  have hlen := congrArg List.length hbody
  rw [List.length_drop] at hlen
  unfold decodeStandardType
  rw [standardType_code]
  by_cases hshort : body.length < t.size
  · rw [if_pos hshort]
    exact if_pos (by omega)
  · have hsplit : data.drop pos = body.take t.size ++ body.drop t.size := by
      rw [hbody, List.take_append_drop]
    have hsize : (body.take t.size).length = t.size := by
      rw [List.length_take]
      omega
    rw [if_neg hshort, standardValue_code t hsplit hsize]
    exact if_neg (by omega)

end StandardType

/-! ## One record -/

theorem decodeStandardType_other (h : standardType typeId = none) :
    decodeStandardType typeId channel data pos = .ok none := by
  rw [decodeStandardType, h]

theorem decodeRecord_short (hlt : data.length < pos + 2) :
    decodeRecord extra data pos = .error truncated := if_pos hlt

theorem decodeRecord_header (hbody : data.drop pos = channel :: typeId :: body) :
    decodeRecord extra data pos = (do
      match ← decodeStandardType typeId channel data (pos + 2) with
      | some (reading, next) => return (reading, some next)
      | none => decodeOther extra typeId channel data (pos + 2)) := by
  have hlen := congrArg List.length hbody
  rw [List.length_drop, List.length_cons, List.length_cons] at hlen
  have hchannel : byteAt data pos = .ok channel := byteAt_drop (i := 0) hbody rfl
  have htype : byteAt data (pos + 1) = .ok typeId := byteAt_drop hbody rfl
  rw [decodeRecord, if_neg (by omega), hchannel, htype]
  rfl

theorem drop_header (hbody : data.drop pos = channel :: typeId :: body) :
    data.drop (pos + 2) = body ∧ pos + 2 ≤ data.length := by
  have hlen := congrArg List.length hbody
  rw [List.length_drop, List.length_cons, List.length_cons] at hlen
  refine ⟨?_, by omega⟩
  rw [← List.drop_drop, hbody]
  rfl

theorem decodeRecord_standard (t : StandardType)
    (hbody : data.drop pos = channel :: t.code :: body) :
    decodeRecord extra data pos =
      if body.length < t.size then .error truncated
      else .ok (⟨channel, t.name, t.value (Field.integers t.fields (body.take t.size)), t.unit⟩,
        some (pos + 2 + t.size)) := by
  obtain ⟨hdrop, hpos⟩ := drop_header hbody
  rw [decodeRecord_header hbody, t.decodeStandardType_code hdrop hpos]
  split
  next => rfl
  next => rfl

theorem decodeRecord_other (hbody : data.drop pos = channel :: typeId :: body)
    (hother : standardType typeId = none) :
    decodeRecord extra data pos = decodeOther extra typeId channel data (pos + 2) := by
  rw [decodeRecord_header hbody, decodeStandardType_other hother]
  rfl

/-- A configured type whose size stays within the width of `usize`. -/
theorem decodeOther_custom {custom : CustomType} (hcustom : extra typeId = some custom)
    (hbody : data.drop pos = body) (hpos : pos ≤ data.length)
    (hwidth : pos + custom.size.toNat < 2 ^ 32) :
    decodeOther extra typeId channel data pos =
      if body.length < custom.size.toNat then .error truncated
      else .ok (⟨channel, custom.name, .single
        (readSignedBytes (body.take custom.size.toNat) * custom.scale), ""⟩,
        some (pos + custom.size.toNat)) := by
  have hlen := congrArg List.length hbody
  rw [List.length_drop] at hlen
  have hstop : usizeAdd pos custom.size.toNat = pos + custom.size.toNat := Nat.mod_eq_of_lt hwidth
  unfold decodeOther
  rw [hcustom]
  by_cases hshort : body.length < custom.size.toNat
  · rw [if_pos hshort]
    refine if_pos ?_
    rw [hstop]
    omega
  · have hslice : slice data pos (pos + custom.size.toNat) =
        .ok (body.take custom.size.toNat) :=
      slice_drop (i := 0) hbody hpos (Nat.zero_le _) (Nat.le_of_not_lt hshort)
    rw [if_neg hshort]
    simp only [hstop, hslice, ok_bind]
    exact if_neg (by omega)

/-- A size that passes the width of `usize` brings the end in front of the beginning. -/
theorem decodeOther_wrap {custom : CustomType} (hcustom : extra typeId = some custom)
    (hpos : pos ≤ data.length) (hwrap : 2 ^ 32 ≤ pos + custom.size.toNat) :
    decodeOther extra typeId channel data pos = .error .outOfBounds := by
  have hsize : custom.size.toNat < 2 ^ 32 := custom.size.toNat_lt
  have hstop : usizeAdd pos custom.size.toNat < pos := by
    have hmod := Nat.mod_lt (pos + custom.size.toNat) (by decide : 0 < 2 ^ 32)
    by_cases hfar : pos < 2 ^ 32
    · rw [usizeAdd, Nat.mod_eq_sub_mod hwrap, Nat.mod_eq_of_lt (by omega)]
      omega
    · exact Nat.lt_of_lt_of_le hmod (Nat.le_of_not_lt hfar)
  unfold decodeOther
  rw [hcustom]
  simp only [slice]
  rw [if_neg (by omega), if_neg (by omega)]
  rfl

/-- The bytes of a record behind its header. -/
def recordSize (extraTypes : ExtraTypes) (typeId : UInt8) : Option ℕ :=
  match standardType typeId with
  | some (_, _, size) => some size
  | none => (extraTypes typeId).map fun custom => custom.size.toNat

/-- The record is of a configured type, and its end passes the width of `usize`. -/
def Wraps (extraTypes : ExtraTypes) (typeId : UInt8) (pos : ℕ) : Prop :=
  standardType typeId = none ∧
    ∃ custom, extraTypes typeId = some custom ∧ 2 ^ 32 ≤ pos + custom.size.toNat

theorem decodeRecord_wraps (hbody : data.drop pos = channel :: typeId :: body)
    (hwraps : Wraps extra typeId (pos + 2)) :
    decodeRecord extra data pos = .error .outOfBounds := by
  obtain ⟨hother, custom, hcustom, hwrap⟩ := hwraps
  rw [decodeRecord_other hbody hother]
  exact decodeOther_wrap hcustom (drop_header hbody).2 hwrap

theorem decodeRecord_unknown (hbody : data.drop pos = channel :: typeId :: body)
    (hsize : recordSize extra typeId = none) :
    ∃ reading, decodeRecord extra data pos = .ok (reading, none) := by
  unfold recordSize at hsize
  split at hsize
  next => cases hsize
  next hother =>
    have hcustom := Option.map_eq_none_iff.mp hsize
    refine ⟨⟨channel, "unknown", .single typeId.toNat, ""⟩, ?_⟩
    rw [decodeRecord_other hbody hother, decodeOther, hcustom]

/-- A record is read when its bytes are there. -/
theorem decodeRecord_sized {size : ℕ} (hbody : data.drop pos = channel :: typeId :: body)
    (hsize : recordSize extra typeId = some size) (hwraps : ¬ Wraps extra typeId (pos + 2)) :
    (body.length < size ∧ decodeRecord extra data pos = .error truncated) ∨
      (size ≤ body.length ∧
        ∃ reading, decodeRecord extra data pos = .ok (reading, some (pos + 2 + size))) := by
  have hcases : ∃ reading, decodeRecord extra data pos =
      if body.length < size then .error truncated else .ok (reading, some (pos + 2 + size)) := by
    unfold recordSize at hsize
    split at hsize
    next known hstandard =>
      obtain ⟨t, rfl⟩ := StandardType.exists_code hstandard
      rw [t.standardType_code] at hstandard
      cases hstandard
      cases hsize
      exact ⟨_, decodeRecord_standard t hbody⟩
    next hother =>
      obtain ⟨custom, hcustom, rfl⟩ := Option.map_eq_some_iff.mp hsize
      obtain ⟨hdrop, hpos⟩ := drop_header hbody
      have hwidth : pos + 2 + custom.size.toNat < 2 ^ 32 :=
        Nat.lt_of_not_le fun hle => hwraps ⟨hother, custom, hcustom, hle⟩
      rw [decodeRecord_other hbody hother]
      exact ⟨_, decodeOther_custom hcustom hdrop hpos hwidth⟩
  obtain ⟨reading, hcases⟩ := hcases
  by_cases hshort : body.length < size
  · exact .inl ⟨hshort, by rw [hcases, if_pos hshort]⟩
  · exact .inr ⟨Nat.le_of_not_lt hshort, reading, by rw [hcases, if_neg hshort]⟩

theorem exists_header (hpos : pos + 2 ≤ data.length) :
    ∃ channel typeId body, data.drop pos = channel :: typeId :: body := by
  have hlen : (data.drop pos).length = data.length - pos := List.length_drop
  match hdrop : data.drop pos with
  | [] =>
    rw [hdrop, List.length_nil] at hlen
    omega
  | [_] =>
    rw [hdrop, List.length_singleton] at hlen
    omega
  | channel :: typeId :: body => exact ⟨channel, typeId, body, rfl⟩

/-- The next record lies behind this one. -/
theorem decodeRecord_next (h : decodeRecord extra data pos = .ok (reading, some next)) :
    pos < next := by
  by_cases hshort : data.length < pos + 2
  · rw [decodeRecord_short hshort] at h
    cases h
  · obtain ⟨channel, typeId, body, hbody⟩ := exists_header (Nat.le_of_not_lt hshort)
    by_cases hwraps : Wraps extra typeId (pos + 2)
    · rw [decodeRecord_wraps hbody hwraps] at h
      cases h
    · cases hsize : recordSize extra typeId with
      | none =>
        obtain ⟨_, hunknown⟩ := decodeRecord_unknown hbody hsize
        rw [hunknown] at h
        cases h
      | some size =>
        obtain ⟨-, hcut⟩ | ⟨-, _, hread⟩ := decodeRecord_sized hbody hsize hwraps
        · rw [hcut] at h
          cases h
        · rw [hread] at h
          cases h
          omega

/-! ## The loop -/

/-- What is decoded from a position on. -/
def decodeFrom (extraTypes : ExtraTypes) (data : List UInt8) (pos : ℕ) :
    Except Failure (List SensorReading) :=
  decodeLoop extraTypes data (data.length - pos) pos

/-- More passes than there are bytes change nothing. -/
theorem decodeLoop_passes (passes : ℕ) (hpasses : data.length - pos ≤ passes) :
    decodeLoop extra data passes pos = decodeFrom extra data pos := by
  suffices h : ∀ passes passes' pos, data.length - pos ≤ passes → data.length - pos ≤ passes' →
      decodeLoop extra data passes pos = decodeLoop extra data passes' pos from
    h _ _ _ hpasses le_rfl
  intro passes
  induction passes with
  | zero =>
    intro passes' pos hle _
    cases passes' with
    | zero => rfl
    | succ passes' => exact (if_neg (by omega)).symm
  | succ passes ih =>
    intro passes' pos hle hle'
    by_cases hpos : pos < data.length
    · obtain ⟨passes', rfl⟩ : ∃ k, passes' = k + 1 := ⟨passes' - 1, by omega⟩
      rw [decodeLoop, decodeLoop, if_pos hpos, if_pos hpos]
      split
      next => rfl
      next => rfl
      next reading next hread =>
        have hnext := decodeRecord_next hread
        rw [ih passes' next (by omega) (by omega)]
    · cases passes' with
      | zero => exact if_neg hpos
      | succ passes' => rw [decodeLoop, decodeLoop, if_neg hpos, if_neg hpos]

theorem decodeCayenneLpp_eq (data : List UInt8) (extra : ExtraTypes) :
    decodeCayenneLpp data extra = decodeFrom extra data 0 := rfl

theorem decodeFrom_end (hpos : data.length ≤ pos) : decodeFrom extra data pos = .ok [] := by
  rw [decodeFrom, Nat.sub_eq_zero_of_le hpos, decodeLoop]

section Pass

variable (hpos : pos < data.length)
include hpos

theorem decodeFrom_unfold :
    decodeFrom extra data pos =
      match decodeRecord extra data pos with
      | .error e => .error e
      | .ok (reading, none) => .ok [reading]
      | .ok (reading, some next) => (decodeFrom extra data next).map (reading :: ·) := by
  have hpasses : data.length - pos = (data.length - pos - 1) + 1 := by omega
  rw [decodeFrom, hpasses, decodeLoop, if_pos hpos]
  split
  next => rfl
  next => rfl
  next reading next hread =>
    have hnext := decodeRecord_next hread
    rw [decodeLoop_passes _ (by omega)]

theorem decodeFrom_error {e : Failure} (hread : decodeRecord extra data pos = .error e) :
    decodeFrom extra data pos = .error e := by
  rw [decodeFrom_unfold hpos, hread]

theorem decodeFrom_last (hread : decodeRecord extra data pos = .ok (reading, none)) :
    decodeFrom extra data pos = .ok [reading] := by
  rw [decodeFrom_unfold hpos, hread]

theorem decodeFrom_next (hread : decodeRecord extra data pos = .ok (reading, some next)) :
    decodeFrom extra data pos = (decodeFrom extra data next).map (reading :: ·) := by
  rw [decodeFrom_unfold hpos, hread]

/-- A pass that comes to the end read on behind each record. -/
theorem decodeFrom_ok {readings : List SensorReading}
    (hread : decodeRecord extra data pos = .ok (reading, some next))
    (hok : decodeFrom extra data pos = .ok readings) :
    ∃ behind, readings = reading :: behind ∧ decodeFrom extra data next = .ok behind := by
  rw [decodeFrom_next hpos hread] at hok
  cases hnext : decodeFrom extra data next with
  | error e =>
    rw [hnext] at hok
    cases hok
  | ok behind =>
    rw [hnext] at hok
    exact ⟨behind, (Except.ok.inj hok).symm, rfl⟩

end Pass

end Wafer.CayenneDecoder
