import Wafer.Plugins.CayenneDecoder

/-!
# Records of the CayenneLPP decoder

Payloads as records one behind the other: the bytes of standard records decode
to their readings, and the records of configured types are followed from one
boundary to the next.

## Main definitions

- `CayenneDecoder.Record` — a standard record, its bytes and its reading
- `CayenneDecoder.Boundary` — where the records of a payload begin
- `CayenneDecoder.CustomRecord` — a record of a configured type in a payload

## Main results

- `CayenneDecoder.decode_encode` — decoding undoes encoding, and which prefixes decode
- `CayenneDecoder.safe_iff` — when configured types decode safely and with their sign
-/

namespace Wafer.CayenneDecoder

open Lib BigEndian

variable {extra : ExtraTypes} {data rest : List UInt8} {pos : ℕ}

/-! ## Encoded records -/

/-- A standard record: its channel, its type and integers its fields have room for. -/
structure Record where
  channel : UInt8
  type : StandardType
  raws : List ℤ
  fits : List.Forall₂ Field.Fits type.fields raws

namespace Record

def payload (r : Record) : List UInt8 := Field.encodeAll r.type.fields r.raws

def encode (r : Record) : List UInt8 := r.channel :: r.type.code :: r.payload

def reading (r : Record) : SensorReading :=
  ⟨r.channel, r.type.name, r.type.value r.raws, r.type.unit⟩

theorem length_payload (r : Record) : r.payload.length = r.type.size :=
  Field.length_encodeAll r.fits

/-- A record is decoded to its reading. -/
theorem decodeRecord_encode (r : Record) (hbody : data.drop pos = r.encode ++ rest) :
    decodeRecord extra data pos = .ok (r.reading, some (pos + r.encode.length)) := by
  have hlen := r.length_payload
  have hheader : data.drop pos = r.channel :: r.type.code :: (r.payload ++ rest) := hbody
  have hnext : pos + r.encode.length = pos + 2 + r.type.size := by
    rw [encode, List.length_cons, List.length_cons, hlen]
    omega
  rw [decodeRecord_standard r.type hheader, if_neg, List.take_left' hlen, payload,
    Field.integers_encodeAll r.fits, hnext]
  · rfl
  · rw [List.length_append, hlen]
    omega

/-- A record that is cut off is an error. -/
theorem decodeRecord_cut (extra : ExtraTypes) (r : Record) (hcut : data.drop pos <+: r.encode)
    (hne : data.drop pos ≠ r.encode) : decodeRecord extra data pos = .error truncated := by
  obtain ⟨rest, hrest⟩ := hcut
  by_cases hshort : data.length < pos + 2
  · exact decodeRecord_short hshort
  · obtain ⟨channel, typeId, body, hbody⟩ := exists_header (Nat.le_of_not_lt hshort)
    rw [hbody] at hrest hne
    simp only [encode, List.cons_append, List.cons.injEq] at hrest
    obtain ⟨rfl, rfl, hrest⟩ := hrest
    rw [decodeRecord_standard r.type hbody, if_pos]
    rw [← r.length_payload, ← hrest, List.length_append]
    refine Nat.lt_add_of_pos_right (List.length_pos_iff.mpr ?_)
    rintro rfl
    rw [List.append_nil] at hrest
    exact hne (by rw [hrest]; rfl)

end Record

/-- Records are decoded in order, then what follows them. -/
theorem decodeFrom_records (records : List Record)
    (hbody : data.drop pos = records.flatMap Record.encode ++ rest) :
    decodeFrom extra data pos =
      (decodeFrom extra data (pos + (records.flatMap Record.encode).length)).map
        (records.map Record.reading ++ ·) := by
  induction records generalizing pos with
  | nil =>
    cases hfrom : decodeFrom extra data pos with
    | error e => rw [List.flatMap_nil, List.length_nil, Nat.add_zero, hfrom]; rfl
    | ok readings => rw [List.flatMap_nil, List.length_nil, Nat.add_zero, hfrom]; rfl
  | cons r records ih =>
    rw [List.flatMap_cons, List.append_assoc] at hbody
    have hpos : pos < data.length := pos_lt_of_drop hbody
    have hdrop : data.drop (pos + r.encode.length) = records.flatMap Record.encode ++ rest := by
      rw [← List.drop_drop, hbody, List.drop_left]
    rw [decodeFrom_next hpos (r.decodeRecord_encode hbody), ih hdrop, List.flatMap_cons,
      List.length_append, ← Nat.add_assoc]
    cases decodeFrom extra data (pos + r.encode.length + (records.flatMap Record.encode).length) with
    | error e => rfl
    | ok readings => rfl

/-- The bytes of records decode to their readings. -/
theorem decode_records (extra : ExtraTypes) (records : List Record) :
    decodeCayenneLpp (records.flatMap Record.encode) extra = .ok (records.map Record.reading) := by
  have hbody : (records.flatMap Record.encode).drop 0 = records.flatMap Record.encode ++ [] := by
    rw [List.drop_zero, List.append_nil]
  rw [decodeCayenneLpp_eq, decodeFrom_records records hbody, Nat.zero_add,
    decodeFrom_end le_rfl]
  exact congrArg Except.ok (List.append_nil _)

/-- A prefix of records is a number of whole records and a cut of the next. -/
theorem prefix_records {records : List Record} {p : List UInt8}
    (hp : p <+: records.flatMap Record.encode) :
    (∃ n, p = (records.take n).flatMap Record.encode) ∨
      ∃ n, ∃ r : Record, ∃ cut, p = (records.take n).flatMap Record.encode ++ cut ∧ cut ≠ [] ∧
        cut <+: r.encode ∧ cut ≠ r.encode := by
  induction records generalizing p with
  | nil => exact .inl ⟨0, List.prefix_nil.mp hp⟩
  | cons r records ih =>
    rw [List.flatMap_cons] at hp
    rcases List.prefix_or_prefix_of_prefix hp (List.prefix_append _ _) with hcut | ⟨p, rfl⟩
    · by_cases hnil : p = []
      · exact .inl ⟨0, hnil⟩
      by_cases hwhole : p = r.encode
      · refine .inl ⟨1, ?_⟩
        rw [hwhole, List.take_succ_cons, List.take_zero, List.flatMap_cons, List.flatMap_nil,
          List.append_nil]
      · exact .inr ⟨0, r, p, rfl, hnil, hcut, hwhole⟩
    · rcases ih ((List.prefix_append_right_inj _).mp hp) with ⟨n, rfl⟩ | ⟨n, next, cut, rfl, hcut⟩
      · exact .inl ⟨n + 1, by rw [List.take_succ_cons, List.flatMap_cons]⟩
      · refine .inr ⟨n + 1, next, cut, ?_, hcut⟩
        rw [List.take_succ_cons, List.flatMap_cons, List.append_assoc]

/-- Whole records and a cut of the next are an error. -/
theorem decode_cut (extra : ExtraTypes) (records : List Record) {r : Record} {cut : List UInt8}
    (hne : cut ≠ []) (hcut : cut <+: r.encode) (hpart : cut ≠ r.encode) :
    decodeCayenneLpp (records.flatMap Record.encode ++ cut) extra = .error truncated := by
  have hdrop : (records.flatMap Record.encode ++ cut).drop
      (0 + (records.flatMap Record.encode).length) = cut := by
    rw [Nat.zero_add, List.drop_left]
  have hpos : 0 + (records.flatMap Record.encode).length <
      (records.flatMap Record.encode ++ cut).length := by
    rw [Nat.zero_add, List.length_append]
    exact Nat.lt_add_of_pos_right (List.length_pos_iff.mpr hne)
  have hread := r.decodeRecord_cut extra (by rw [hdrop]; exact hcut)
    (by rw [hdrop]; exact hpart)
  rw [decodeCayenneLpp_eq, decodeFrom_records records (List.drop_zero), decodeFrom_error hpos hread]
  rfl

/-- The bytes of records decode to their readings in order, and a prefix of the bytes decodes
exactly when it ends where a record does. -/
theorem decode_encode (extra : ExtraTypes) (records : List Record) :
    decodeCayenneLpp (records.flatMap Record.encode) extra = .ok (records.map Record.reading) ∧
      ∀ p, p <+: records.flatMap Record.encode →
        ((∃ readings, decodeCayenneLpp p extra = .ok readings) ↔
          ∃ n, p = (records.take n).flatMap Record.encode) ∧
        ((∃ readings, decodeCayenneLpp p extra = .ok readings) ∨
          decodeCayenneLpp p extra = .error truncated) := by
  refine ⟨decode_records extra records, fun p hp => ?_⟩
  rcases prefix_records hp with ⟨n, rfl⟩ | ⟨n, r, cut, rfl, hne, hcut, hpart⟩
  · have hwhole := decode_records extra (records.take n)
    exact ⟨⟨fun _ => ⟨n, rfl⟩, fun _ => ⟨_, hwhole⟩⟩, .inl ⟨_, hwhole⟩⟩
  · have herror := decode_cut extra (records.take n) hne hcut hpart
    refine ⟨⟨?_, ?_⟩, .inr herror⟩
    · rintro ⟨readings, hok⟩
      rw [herror] at hok
      cases hok
    · rintro ⟨m, hm⟩
      have hwhole := decode_records extra (records.take m)
      rw [← hm, herror] at hwhole
      cases hwhole

/-- A position south of the equator, and a temperature behind it. -/
def outdoors : List Record :=
  [⟨2, .gps, [-337000, 1512000, -100],
      by simp only [StandardType.fields, List.forall₂_cons, Field.Fits]; simp⟩,
    ⟨3, .temperature, [-12],
      by simp only [StandardType.fields, List.forall₂_cons, Field.Fits]; simp⟩]

theorem decode_outdoors :
    decodeCayenneLpp (outdoors.flatMap Record.encode) (fun _ => none) =
        .ok [⟨2, "gps", .triple (-337 / 10) (756 / 5) (-1), ""⟩,
          ⟨3, "temperature", .single (-6 / 5), "°C"⟩] ∧
      decodeCayenneLpp ((outdoors.flatMap Record.encode).take 13) (fun _ => none) =
        .error truncated := by
  obtain ⟨hwhole, hprefix⟩ := decode_encode (fun _ => none) outdoors
  have hreadings : outdoors.map Record.reading =
      [⟨2, "gps", .triple (-337 / 10) (756 / 5) (-1), ""⟩,
        ⟨3, "temperature", .single (-6 / 5), "°C"⟩] := by
    decide +kernel
  refine ⟨by rw [hwhole, hreadings], ?_⟩
  obtain ⟨hboundary, hcut⟩ := hprefix _ (List.take_prefix 13 _)
  refine hcut.resolve_left fun hok => ?_
  obtain ⟨n, hn⟩ := hboundary.mp hok
  -- records end behind 0, 11 and 15 bytes
  match n with
  | 0 => revert hn; decide +kernel
  | 1 => revert hn; decide +kernel
  | n + 2 =>
    have hall : outdoors.take (n + 2) = outdoors := List.take_of_length_le (Nat.le_add_left 2 n)
    rw [hall] at hn
    revert hn
    decide +kernel

/-! ## Configured types -/

/-- The size of a configured type takes the signed bytes to be unsigned ones. -/
def Unsigned (size : ℕ) : Prop := size = 3 ∨ size = 5 ∨ size = 6 ∨ size = 7

theorem readSignedBytes_fold {bytes : List UInt8} (h1 : bytes.length ≠ 1) (h2 : bytes.length ≠ 2)
    (h4 : bytes.length ≠ 4) :
    readSignedBytes bytes = (bytes.foldl pushByte (0 : BitVec 64)).toInt := by
  unfold readSignedBytes
  split
  next => exact absurd rfl h1
  next => exact absurd rfl h2
  next => exact absurd rfl h4
  next => rfl

/-- One, two, four and eight bytes are read with their sign, the other widths without. -/
theorem readSignedBytes_iff {b : UInt8} {bytes : List UInt8} (hlen : (b :: bytes).length ≤ 8) :
    readSignedBytes (b :: bytes) = signed (b :: bytes) ↔
      ¬ (Unsigned (b :: bytes).length ∧ 128 ≤ b.toNat) := by
  have hne := List.cons_ne_nil b bytes
  by_cases hunsigned : Unsigned (b :: bytes).length
  · have hwidth : 8 * (b :: bytes).length < 64 := by
      unfold Unsigned at hunsigned
      omega
    have hread : readSignedBytes (b :: bytes) = unsigned (b :: bytes) := by
      unfold Unsigned at hunsigned
      rw [readSignedBytes_fold (by omega) (by omega) (by omega)]
      exact toInt_pushBytes_short hwidth (by decide)
    rw [hread, eq_comm, signed_eq_iff hne, lower_half_iff]
    constructor
    · rintro hlow ⟨-, hhigh⟩
      omega
    · intro hnot
      exact Nat.lt_of_not_le fun hhigh => hnot ⟨hunsigned, hhigh⟩
  · have hread : readSignedBytes (b :: bytes) = signed (b :: bytes) := by
      by_cases hfull : (b :: bytes).length = 8
      · rw [readSignedBytes_fold (by omega) (by omega) (by omega)]
        exact toInt_pushBytes_full (by omega) hne
      · have hshort : bytes.length = 0 ∨ bytes.length = 1 ∨ bytes.length = 3 := by
          unfold Unsigned at hunsigned
          rw [List.length_cons] at hlen hunsigned hfull
          omega
        rcases hshort with h0 | h1 | h3
        · rw [List.length_eq_zero_iff.mp h0]
          rfl
        · obtain ⟨b1, rfl⟩ := List.length_eq_one_iff.mp h1
          rfl
        · obtain ⟨b1, b2, b3, rfl⟩ := List.length_eq_three.mp h3
          rfl
    exact ⟨fun _ hboth => hunsigned hboth.1, fun _ => hread⟩

/-- Where the records of a payload begin, one behind the other, and how many are before. -/
inductive Boundary (extra : ExtraTypes) (data : List UInt8) : ℕ → ℕ → Prop
  | start : Boundary extra data 0 0
  | next {index pos size : ℕ} {channel typeId : UInt8} {body : List UInt8}
      (boundary : Boundary extra data index pos)
      (header : data.drop pos = channel :: typeId :: body)
      (sized : recordSize extra typeId = some size) (fits : size ≤ body.length) :
      Boundary extra data (index + 1) (pos + 2 + size)

/-- A record of a configured type in a payload: where it begins, and the bytes behind its header. -/
structure CustomRecord (extra : ExtraTypes) (data : List UInt8) where
  index : ℕ
  pos : ℕ
  channel : UInt8
  typeId : UInt8
  body : List UInt8
  custom : CustomType
  boundary : Boundary extra data index pos
  header : data.drop pos = channel :: typeId :: body
  other : standardType typeId = none
  configured : extra typeId = some custom

namespace CustomRecord

variable (r : CustomRecord extra data)

def size : ℕ := r.custom.size.toNat

/-- The bytes of the value, as far as the payload has them. -/
def bytes : List UInt8 := r.body.take r.size

/-- The payload has all bytes of the value. -/
def Complete : Prop := r.size ≤ r.body.length

/-- The end of the record is a position of the guest. -/
def InRange : Prop := r.pos + 2 + r.size < 2 ^ 32

/-- The first byte of the value has its highest bit set. -/
def Negative : Prop := ∃ b ∈ r.body.head?, 128 ≤ b.toNat

/-- The reading of a raw value of the record. -/
def reading (raw : ℤ) : SensorReading :=
  ⟨r.channel, r.custom.name, .single (raw * r.custom.scale), ""⟩

/-- A complete record is decoded to what `readSignedBytes` makes of its bytes, over the scale. -/
theorem decodeRecord_custom (hrange : r.InRange) (hcomplete : r.Complete) :
    decodeRecord extra data r.pos =
      .ok (r.reading (readSignedBytes r.bytes), some (r.pos + 2 + r.size)) := by
  obtain ⟨hdrop, hpos⟩ := drop_header r.header
  rw [decodeRecord_other r.header r.other, decodeOther_custom r.configured hdrop hpos hrange]
  exact if_neg (Nat.not_lt.mpr hcomplete)

theorem wraps_of_not_inRange (h : ¬ r.InRange) : Wraps extra r.typeId (r.pos + 2) :=
  ⟨r.other, r.custom, r.configured, Nat.le_of_not_lt h⟩

theorem read_iff (hsize : 1 ≤ r.size) (hsize' : r.size ≤ 8) (hcomplete : r.Complete) :
    readSignedBytes r.bytes = signed r.bytes ↔ ¬ (Unsigned r.size ∧ r.Negative) := by
  have hlen : r.bytes.length = r.size := by
    rw [bytes, List.length_take]
    exact Nat.min_eq_left hcomplete
  obtain ⟨b, body, hbody⟩ : ∃ b body, r.body = b :: body :=
    List.exists_cons_of_length_pos (Nat.lt_of_lt_of_le hsize hcomplete)
  obtain ⟨size, hsucc⟩ : ∃ k, r.size = k + 1 := ⟨r.size - 1, by omega⟩
  have hbytes : r.bytes = b :: body.take size := by
    rw [bytes, hbody, hsucc, List.take_succ_cons]
  have hnegative : r.Negative ↔ 128 ≤ b.toNat := by
    simp [Negative, hbody]
  rw [hbytes] at hlen ⊢
  rw [readSignedBytes_iff (by omega), hlen, hnegative]

end CustomRecord

/-- Every record of a configured type ends within the guest's positions. -/
def InRange (extra : ExtraTypes) (data : List UInt8) : Prop :=
  ∀ r : CustomRecord extra data, r.InRange

/-- Records within the guest's positions are decoded, or the payload is cut off. -/
theorem decodeFrom_inRange {index : ℕ} (hrange : InRange extra data)
    (hpos : Boundary extra data index pos) :
    (∃ readings, decodeFrom extra data pos = .ok readings) ∨
      decodeFrom extra data pos = .error truncated := by
  -- on the bytes that are left
  induction hleft : data.length - pos using Nat.strong_induction_on generalizing index pos with
  | _ left ih =>
    by_cases hend : data.length ≤ pos
    · exact .inl ⟨[], decodeFrom_end hend⟩
    have hlt := Nat.lt_of_not_le hend
    by_cases hshort : data.length < pos + 2
    · exact .inr (decodeFrom_error hlt (decodeRecord_short hshort))
    obtain ⟨channel, typeId, body, hbody⟩ := exists_header (Nat.le_of_not_lt hshort)
    cases hsize : recordSize extra typeId with
    | none =>
      obtain ⟨reading, hread⟩ := decodeRecord_unknown hbody hsize
      exact .inl ⟨[reading], decodeFrom_last hlt hread⟩
    | some size =>
      have hwraps : ¬ Wraps extra typeId (pos + 2) := by
        rintro ⟨hother, custom, hcustom, hwrap⟩
        have hin := hrange ⟨index, pos, channel, typeId, body, custom, hpos, hbody, hother, hcustom⟩
        exact Nat.not_lt.mpr hwrap hin
      obtain ⟨-, hread⟩ | ⟨hfits, reading, hread⟩ := decodeRecord_sized hbody hsize hwraps
      · exact .inr (decodeFrom_error hlt hread)
      · rw [decodeFrom_next hlt hread]
        rcases ih _ (by omega) (hpos.next hbody hsize hfits) rfl with ⟨readings, hok⟩ | herror
        · exact .inl ⟨reading :: readings, by rw [hok]; rfl⟩
        · exact .inr (by rw [herror]; rfl)

/-- An index out of bounds at a boundary stops the decoding of the whole payload. -/
theorem decode_outOfBounds {index : ℕ} (hpos : Boundary extra data index pos)
    (hfail : decodeFrom extra data pos = .error .outOfBounds) :
    decodeCayenneLpp data extra = .error .outOfBounds := by
  induction hpos with
  | start => exact hfail
  | @next _ pos size channel typeId body _ hbody hsize hfits ih =>
    refine ih ?_
    have hlt := pos_lt_of_drop hbody
    by_cases hwraps : Wraps extra typeId (pos + 2)
    · exact decodeFrom_error hlt (decodeRecord_wraps hbody hwraps)
    · obtain ⟨hshort, -⟩ | ⟨-, reading, hread⟩ := decodeRecord_sized hbody hsize hwraps
      · omega
      · rw [decodeFrom_next hlt hread, hfail]
        rfl

/-- The readings of a payload are those before a boundary and those from it on. -/
theorem decode_boundary {index : ℕ} {readings : List SensorReading}
    (hpos : Boundary extra data index pos) (hok : decodeCayenneLpp data extra = .ok readings) :
    ∃ before behind, readings = before ++ behind ∧ before.length = index ∧
      decodeFrom extra data pos = .ok behind := by
  induction hpos with
  | start => exact ⟨[], readings, rfl, rfl, hok⟩
  | @next index pos size channel typeId body _ hbody hsize hfits ih =>
    obtain ⟨before, behind, rfl, hlen, hfrom⟩ := ih
    have hlt := pos_lt_of_drop hbody
    by_cases hwraps : Wraps extra typeId (pos + 2)
    · rw [decodeFrom_error hlt (decodeRecord_wraps hbody hwraps)] at hfrom
      cases hfrom
    · obtain ⟨hshort, -⟩ | ⟨-, reading, hread⟩ := decodeRecord_sized hbody hsize hwraps
      · omega
      · obtain ⟨behind', rfl, hnext⟩ := decodeFrom_ok hlt hread hfrom
        exact ⟨before ++ [reading], behind', by simp, by simp [hlen], hnext⟩

/-- A record that is read has its reading in the list, behind those of the records before. -/
theorem CustomRecord.getElem?_readings {readings : List SensorReading} {reading : SensorReading}
    {next : ℕ} (r : CustomRecord extra data)
    (hread : decodeRecord extra data r.pos = .ok (reading, some next))
    (hok : decodeCayenneLpp data extra = .ok readings) : readings[r.index]? = some reading := by
  obtain ⟨before, behind, rfl, hlen, hfrom⟩ := decode_boundary r.boundary hok
  obtain ⟨behind', rfl, -⟩ := decodeFrom_ok (pos_lt_of_drop r.header) hread hfrom
  rw [← hlen, List.getElem?_append_right le_rfl, Nat.sub_self, List.getElem?_cons_zero]

theorem decode_inRange_iff :
    ((∃ readings, decodeCayenneLpp data extra = .ok readings) ∨
      decodeCayenneLpp data extra = .error truncated) ↔ InRange extra data := by
  constructor
  · intro hsafe r
    by_contra hrange
    have hfail := decodeFrom_error (pos_lt_of_drop r.header)
      (decodeRecord_wraps r.header (r.wraps_of_not_inRange hrange))
    have hout := decode_outOfBounds r.boundary hfail
    rcases hsafe with ⟨readings, hok⟩ | herror
    · rw [hout] at hok
      cases hok
    · rw [hout] at herror
      cases herror
  · intro hrange
    exact decodeFrom_inRange hrange .start

/-- The record is read in two's complement: its raw value is the signed integer of its bytes, the
decoder's pass over it gives that value times the scale, and so do the readings of the payload. -/
def CustomRecord.ReadSigned (r : CustomRecord extra data) : Prop :=
  readSignedBytes r.bytes = signed r.bytes ∧
    decodeRecord extra data r.pos =
      .ok (r.reading (signed r.bytes), some (r.pos + 2 + r.size)) ∧
    ∀ readings, decodeCayenneLpp data extra = .ok readings →
      readings[r.index]? = some (r.reading (signed r.bytes))

/-- A payload is decoded or cut off, and the complete values of its configured records of up to
eight bytes are read in two's complement. -/
def DecodesSafely (extra : ExtraTypes) (data : List UInt8) : Prop :=
  ((∃ readings, decodeCayenneLpp data extra = .ok readings) ∨
    decodeCayenneLpp data extra = .error truncated) ∧
  ∀ r : CustomRecord extra data, 1 ≤ r.size → r.size ≤ 8 → r.Complete → r.ReadSigned

/-- Configured types are decoded safely and with their sign exactly when their records end within
the guest's positions and none of three, five, six or seven bytes is negative. -/
theorem safe_iff (extra : ExtraTypes) (data : List UInt8) :
    DecodesSafely extra data ↔ ∀ r : CustomRecord extra data,
      r.InRange ∧ ¬ (r.Complete ∧ Unsigned r.size ∧ r.Negative) := by
  rw [DecodesSafely, decode_inRange_iff]
  constructor
  · rintro ⟨hrange, hread⟩ r
    refine ⟨hrange r, ?_⟩
    rintro ⟨hcomplete, hunsigned, hnegative⟩
    have hsize : 1 ≤ r.size ∧ r.size ≤ 8 := by
      unfold Unsigned at hunsigned
      omega
    exact (r.read_iff hsize.1 hsize.2 hcomplete).mp (hread r hsize.1 hsize.2 hcomplete).1
      ⟨hunsigned, hnegative⟩
  · intro h
    refine ⟨fun r => (h r).1, fun r hone height hcomplete => ?_⟩
    have hraw : readSignedBytes r.bytes = signed r.bytes := by
      refine (r.read_iff hone height hcomplete).mpr ?_
      rintro ⟨hunsigned, hnegative⟩
      exact (h r).2 ⟨hcomplete, hunsigned, hnegative⟩
    have hread := r.decodeRecord_custom (h r).1 hcomplete
    rw [hraw] at hread
    exact ⟨hraw, hread, fun readings hok => r.getElem?_readings hread hok⟩

/-- One configured type. -/
def extraType (size : UInt32) : ExtraTypes := fun typeId =>
  if typeId = 200 then some ⟨"custom", size, 1⟩ else none

/-- A size near the width of `usize` stops the guest, and three bytes of minus one are read as a
positive number. -/
theorem custom_unsafe : ¬ DecodesSafely (extraType 4294967295) [1, 200] ∧
    ¬ DecodesSafely (extraType 3) [1, 200, 255, 255, 255] := by
  constructor
  · rintro ⟨hsafe, -⟩
    have hout : decodeCayenneLpp [1, 200] (extraType 4294967295) = .error .outOfBounds := by
      decide +kernel
    rw [hout] at hsafe
    rcases hsafe with ⟨readings, hok⟩ | herror
    · cases hok
    · cases herror
  · rintro ⟨-, hread⟩
    obtain ⟨-, -, hreadings⟩ :=
      hread ⟨0, 0, 1, 200, [255, 255, 255], ⟨"custom", 3, 1⟩, .start, rfl, rfl, rfl⟩
        (by decide) (by decide) (by unfold CustomRecord.Complete; decide)
    have hout : decodeCayenneLpp [1, 200, 255, 255, 255] (extraType 3) =
        .ok [⟨1, "custom", .single 16777215, ""⟩] := by
      decide +kernel
    have hminus := hreadings _ hout
    revert hminus
    decide +kernel

end Wafer.CayenneDecoder
