import Wafer.Queue.Envelope
import Wafer.Lib.HashMap

/-!
# Serializable envelopes

What a dead-letter record keeps of a message, and the message read back from
it. The record holds the metadata in a hash map, whose traversal order is a
parameter.

## Main results

- `SerializableEnvelope.mem_roundTrip_metadata` — each key comes back with its last value
- `SerializableEnvelope.restores_iff` — the messages that come back unchanged
-/

namespace Wafer

open Lib

/-- Serializable representation of a `RuntimeEnvelope`. -/
structure SerializableEnvelope where
  id : String
  timestamp : Nat
  source : String
  metadata : HashMap String String
  payload : List UInt8
  retryCount : Nat
  bench : Option BenchStamps

/-- The header, the payload and the retry count of the two envelopes are the same. -/
def RuntimeEnvelope.Restores (restored envelope : RuntimeEnvelope) : Prop :=
  restored.header = envelope.header ∧ restored.payload = envelope.payload ∧
    restored.retryCount = envelope.retryCount

namespace SerializableEnvelope

variable {order : IterOrder String String} {envelope : RuntimeEnvelope}

def ofRuntime (envelope : RuntimeEnvelope) : SerializableEnvelope where
  id := envelope.header.id
  timestamp := envelope.header.timestamp
  source := envelope.header.source
  metadata := HashMap.collect envelope.header.metadata
  payload := envelope.payload
  retryCount := envelope.retryCount
  bench := envelope.header.bench

def toRuntime (order : IterOrder String String) (env : SerializableEnvelope) : RuntimeEnvelope where
  header :=
    { id := env.id
      timestamp := env.timestamp
      source := env.source
      -- the record has no content type: the default one is put in its place
      contentType := "application/octet-stream"
      metadata := env.metadata.intoIter order
      bench := env.bench }
  payload := env.payload
  lineage := {}
  retryCount := env.retryCount

/-- The message read back from the record of `envelope`. -/
def roundTrip (order : IterOrder String String) (envelope : RuntimeEnvelope) : RuntimeEnvelope :=
  (ofRuntime envelope).toRuntime order

/-- Each key of the metadata comes back once, with its last value. -/
theorem mem_roundTrip_metadata {key value : String} :
    (key, value) ∈ (roundTrip order envelope).header.metadata ↔
      envelope.header.metadata.reverse.lookup key = some value := by
  rw [← HashMap.mem_collect]
  exact (order.perm _).mem_iff

theorem roundTrip_metadata_nodup (order : IterOrder String String) (envelope : RuntimeEnvelope) :
    ((roundTrip order envelope).header.metadata.map Prod.fst).Nodup :=
  HashMap.nodup_intoIter order _

theorem roundTrip_metadata_eq_iff :
    (roundTrip order envelope).header.metadata = envelope.header.metadata ↔
      (envelope.header.metadata.map Prod.fst).Nodup ∧
        order.arrange envelope.header.metadata = envelope.header.metadata := by
  have hiter : (roundTrip order envelope).header.metadata =
      order.arrange (HashMap.collect envelope.header.metadata).entries := rfl
  constructor
  · intro h
    have hkeys := roundTrip_metadata_nodup order envelope
    rw [h] at hkeys
    rw [hiter, HashMap.collect_entries hkeys] at h
    exact ⟨hkeys, h⟩
  · rintro ⟨hkeys, h⟩
    rw [hiter, HashMap.collect_entries hkeys, h]

theorem roundTrip_restores_iff :
    (roundTrip order envelope).Restores envelope ↔
      envelope.header.contentType = "application/octet-stream" ∧
        (envelope.header.metadata.map Prod.fst).Nodup ∧
        order.arrange envelope.header.metadata = envelope.header.metadata := by
  rw [← roundTrip_metadata_eq_iff]
  constructor
  · rintro ⟨hheader, -, -⟩
    exact ⟨(congrArg EnvelopeHeader.contentType hheader).symm,
      congrArg EnvelopeHeader.metadata hheader⟩
  · rintro ⟨hcontent, hmetadata⟩
    refine ⟨?_, rfl, rfl⟩
    -- the other fields of the header are copied
    calc (roundTrip order envelope).header
        = { envelope.header with
            contentType := "application/octet-stream"
            metadata := (roundTrip order envelope).header.metadata } := rfl
      _ = envelope.header := by rw [hmetadata, ← hcontent]

/-- With one traversal order the message comes back unchanged exactly when it has the default
content type, distinct metadata keys, and the order is that of its pairs. Whatever the order, it
does so exactly when the content type is the default one and there is at most one pair. -/
theorem restores_iff (envelope : RuntimeEnvelope) :
    (∀ order, (roundTrip order envelope).Restores envelope ↔
      envelope.header.contentType = "application/octet-stream" ∧
        (envelope.header.metadata.map Prod.fst).Nodup ∧
        order.arrange envelope.header.metadata = envelope.header.metadata) ∧
    ((∀ order, (roundTrip order envelope).Restores envelope) ↔
      envelope.header.contentType = "application/octet-stream" ∧
        envelope.header.metadata.length ≤ 1) := by
  refine ⟨fun order => roundTrip_restores_iff, ?_, ?_⟩
  · intro h
    obtain ⟨hcontent, hkeys, -⟩ := roundTrip_restores_iff.mp (h IterOrder.identity)
    obtain ⟨-, -, hreversed⟩ := roundTrip_restores_iff.mp (h IterOrder.reversed)
    exact ⟨hcontent, length_le_one_of_reverse_eq hkeys.of_map hreversed⟩
  · rintro ⟨hcontent, hlength⟩ order
    refine roundTrip_restores_iff.mpr ⟨hcontent, ?_, ?_⟩
    · refine List.nodup_iff_count_le_one.mpr fun key => ?_
      calc List.count key (envelope.header.metadata.map Prod.fst)
          ≤ (envelope.header.metadata.map Prod.fst).length := List.count_le_length
        _ ≤ 1 := by simpa using hlength
    · -- a list of at most one pair has one order
      have hperm := order.perm envelope.header.metadata
      cases hpairs : envelope.header.metadata with
      | nil => exact (hpairs ▸ hperm).eq_nil
      | cons pair rest =>
        rw [hpairs, List.length_cons] at hlength
        have hrest : rest = [] := List.length_eq_zero_iff.mp (by omega)
        subst hrest
        exact (hpairs ▸ hperm).eq_singleton

def csvEnvelope : RuntimeEnvelope where
  header := ⟨"a1", 1700000000000, "meter", "text/csv", [("unit", "C"), ("unit", "K")], none⟩
  payload := [49, 44, 50]
  lineage := {}
  retryCount := 2

/-- The content type and the first of two pairs with one key are lost. -/
theorem csvEnvelope_not_restored :
    (roundTrip IterOrder.identity csvEnvelope).header.contentType = "application/octet-stream" ∧
      (roundTrip IterOrder.identity csvEnvelope).header.metadata = [("unit", "K")] ∧
      ¬(roundTrip IterOrder.identity csvEnvelope).Restores csvEnvelope := by
  refine ⟨rfl, by decide, ?_⟩
  rintro ⟨hheader, -, -⟩
  exact absurd (congrArg EnvelopeHeader.contentType hheader) (by decide)

end SerializableEnvelope

end Wafer
