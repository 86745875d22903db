import Telemetry.Upload.Batch

namespace Telemetry.Upload

open Codec Event

namespace Batch

def records (b : Batch) : List Record :=
  b.singulars.map .singular ++ (b.aggregates.map .aggregate ++ b.sequences.map .sequence)

theorem records_ofRecords (machine : Uuid) (rs : List Record) (tallies : List Report) :
    (ofRecords machine rs tallies).records.Perm rs := by
  rw [List.perm_iff_count]
  intro x
  induction rs with
  | nil => rfl
  | cons r rs ih =>
    simp only [records, ofRecords, List.count_append] at ih ⊢
    cases r with
    | singular e =>
      simp only [List.filterMap_cons, singularOf?, aggregateOf?, sequenceOf?, List.map_cons,
        List.count_cons]
      omega
    | aggregate e =>
      simp only [List.filterMap_cons, singularOf?, aggregateOf?, sequenceOf?, List.map_cons,
        List.count_cons]
      omega
    | sequence e =>
      simp only [List.filterMap_cons, singularOf?, aggregateOf?, sequenceOf?, List.map_cons,
        List.count_cons]
      omega

theorem records_of_isEmpty {b : Batch} (h : b.isEmpty = true) : b.records = [] := by
  simp only [isEmpty, Bool.and_eq_true, List.isEmpty_iff] at h
  obtain ⟨⟨⟨hs, ha⟩, hq⟩, -⟩ := h
  rw [records, hs, ha, hq]
  rfl

theorem length_records (b : Batch) : b.records.length = b.recordCount := by
  simp only [records, recordCount, List.length_append, List.length_map, Nat.add_assoc]

section Kinds

variable {α : Type} {kind? : Record → Option α} {record : α → Record} {p : Record → Bool}

theorem map_filterMap_eq_filter (h : ∀ r, (kind? r).map record = if p r then some r else none)
    (rs : List Record) : (rs.filterMap kind?).map record = rs.filter p := by
  have hguard : (fun r => (kind? r).map record) = Option.guard p := by
    funext r
    rw [h, Option.guard]
  rw [List.map_filterMap, hguard, List.filterMap_eq_filter]

end Kinds

def eventPart (b : Batch) : Bytes :=
  b.singulars.flatMap Singular.encode ++ b.aggregates.flatMap Aggregate.encode
    ++ b.sequences.flatMap Sequence.encode

theorem length_eventPart (b : Batch) :
    b.eventPart.length = sumOf (fun r => r.cost - 4) b.records := by
  simp only [eventPart, records, List.length_append, length_flatMap_eq_sumOf, sumOf_append, sumOf_map,
    Record.cost, Nat.add_sub_cancel_left, Singular.length_encode, Aggregate.length_encode,
    Sequence.length_encode, Nat.add_assoc]

theorem length_encode (b : Batch) :
    b.encode.length =
      80 + b.eventPart.length + sumOf (fun t => t.encode.length) b.tallies := by
  simp only [encode, eventPart, encodeList, encodeUInt64, encodeInt64, encodeLength,
    List.length_append, length_le, Uuid.length_encode, length_flatMap_eq_sumOf]
  omega

theorem length_encode_ofRecords (machine : Uuid) (records : List Record) (tallies : List Report) :
    (ofRecords machine records tallies).encode.length = 80 + sumOf (fun r => r.cost - 4) records
      + sumOf (fun t => t.encode.length) tallies := by
  rw [length_encode, length_eventPart, sumOf_perm _ (records_ofRecords machine records tallies)]
  rfl

end Batch

end Telemetry.Upload
