import Telemetry.Proofs.Compress.Gzip
import Telemetry.Proofs.Event.Reading
import Telemetry.Proofs.Payload.Canonical
import Telemetry.Proofs.Upload.Contents

namespace Telemetry.Upload

open Codec Compress Event

def Report.Measured (r : Report) : Prop :=
  Text.Utf8.size r.period < capacity 8 ∧ r.payload.Measured

theorem Report.measured_of_length {r : Report} (hs : r.encode.length < capacity 8) : r.Measured := by
  simp only [encode, encodeText, List.length_append, Text.Utf8.length_encode,
    Payload.length_encode] at hs
  exact ⟨by omega, Payload.measured_of_size (by omega)⟩

theorem Report.reads_decoder {r : Report} (h : r.Measured) : Reads decoder r.encode r := by
  simp only [encode, List.append_assoc]
  exact (Reads.uint32 r.user).bind ((Uuid.reads_decoder r.event).bind ((Reads.text h.1).bind
    ((Reads.uint32 r.count).bind (Payload.reads_decoder h.2).map)))

namespace Batch

/-- The lengths inside a batch are below 64 bits. -/
structure Measured (b : Batch) : Prop where
  singulars : Listed Singular.Measured b.singulars
  aggregates : Listed Aggregate.Measured b.aggregates
  sequences : Listed Sequence.Measured b.sequences
  tallies : Listed Report.Measured b.tallies

variable {b : Batch} {machine : Uuid} {records : List Record} {tallies : List Report}
  {number : UInt64} {clock : Clock}

theorem listed_filterMap {α : Type} {kind? : Record → Option α} {valid : α → Prop}
    (h : Listed Record.Measured records)
    (hv : ∀ r ∈ records, ∀ e, kind? r = some e → r.Measured → valid e) :
    Listed valid (records.filterMap kind?) := by
  refine ⟨Nat.lt_of_le_of_lt (List.length_filterMap_le kind? records) h.1, fun e he => ?_⟩
  obtain ⟨r, hr, hkind⟩ := List.mem_filterMap.1 he
  exact hv r hr e hkind (h.2 r hr)

theorem measured_ofRecords (hr : Listed Record.Measured records)
    (ht : Listed Report.Measured tallies) : (ofRecords machine records tallies).Measured := by
  refine ⟨?_, ?_, ?_, ht⟩
  · refine listed_filterMap hr fun r _ e he hm => ?_
    cases r <;> cases he
    exact hm
  · refine listed_filterMap hr fun r _ e he hm => ?_
    cases r <;> cases he
    exact hm
  · refine listed_filterMap hr fun r _ e he hm => ?_
    cases r <;> cases he
    exact hm

theorem measured_of_length (hs : b.encode.length < capacity 8) : b.Measured := by
  simp only [encode, List.length_append] at hs
  have hsingulars : ∀ e : Singular, 0 < e.size := fun e => by
    rw [Singular.size]
    omega
  have haggregates : ∀ e : Aggregate, 0 < e.size := fun e => by
    rw [Aggregate.size]
    omega
  have hsequences : ∀ e : Sequence, 0 < e.size := fun e => by
    rw [Sequence.size]
    omega
  have htallies : ∀ r : Report, 0 < r.encode.length := fun r => by
    simp only [Report.encode, encodeUInt32, List.length_append, length_le]
    omega
  exact ⟨
    listed_of_size (by omega) Singular.length_encode hsingulars fun e => Singular.measured_of_size,
    listed_of_size (by omega) Aggregate.length_encode haggregates fun e => Aggregate.measured_of_size,
    listed_of_size (by omega) Sequence.length_encode hsequences fun e => Sequence.measured_of_size,
    listed_of_size (by omega) (fun _ => rfl) htallies fun r => Report.measured_of_length⟩

theorem reads_decoder (h : b.Measured) : Reads decoder b.encode b := by
  have hsingulars := Reads.list (h.singulars.imp fun e => Singular.reads_decoder)
  have haggregates := Reads.list (h.aggregates.imp fun e => Aggregate.reads_decoder)
  have hsequences := Reads.list (h.sequences.imp fun e => Sequence.reads_decoder)
  have htallies := Reads.list (h.tallies.imp fun r => Report.reads_decoder)
  simp only [encode, List.append_assoc]
  exact (Reads.uint64 b.sendNumber).bind ((Reads.int64 b.relative).bind
    ((Reads.int64 b.absolute).bind ((Uuid.reads_decoder b.machine).bind (hsingulars.bind
      (haggregates.bind (hsequences.bind htallies.map))))))

theorem ofBody_of_decompress (h : b.Measured) {body : Bytes}
    (hbody : Gzip.decompress? body = some b.encode) : ofBody body = .ok b := by
  rw [ofBody, hbody]
  dsimp only
  rw [(reads_decoder h).decode]

theorem ofBody_body (hs : b.encode.length < capacity 8) : ofBody b.body = .ok b :=
  ofBody_of_decompress (measured_of_length hs) (Gzip.decompress_compress b.encode)

/-- A batch says what was recorded: the events of each kind in their order, all of them and no others,
and the counters, under the number and the times of an attempt. -/
structure Says (b : Batch) (machine : Uuid) (records : List Record) (tallies : List Report)
    (number : UInt64) (clock : Clock) : Prop where
  sendNumber : b.sendNumber = number
  relative : b.relative = clock.boot
  absolute : b.absolute = clock.wall
  sender : b.machine = machine
  singulars : b.singulars.map .singular = records.filter (· matches .singular _)
  aggregates : b.aggregates.map .aggregate = records.filter (· matches .aggregate _)
  sequences : b.sequences.map .sequence = records.filter (· matches .sequence _)
  every : b.records.Perm records
  reports : b.tallies = tallies
  recordCount : b.recordCount = records.length
  eventCount : b.eventCount = records.length + tallies.length

theorem says_stamp (machine : Uuid) (records : List Record) (tallies : List Report) (number : UInt64)
    (clock : Clock) :
    ((ofRecords machine records tallies).stamp number clock).Says machine records tallies number
      clock := by
  have hperm := records_ofRecords machine records tallies
  have hcount : (ofRecords machine records tallies).recordCount = records.length := by
    rw [← length_records, hperm.length_eq]
  refine ⟨rfl, rfl, rfl, rfl, ?_, ?_, ?_, hperm, rfl, hcount, congrArg (· + tallies.length) hcount⟩
  · exact map_filterMap_eq_filter (fun r => by cases r <;> rfl) records
  · exact map_filterMap_eq_filter (fun r => by cases r <;> rfl) records
  · exact map_filterMap_eq_filter (fun r => by cases r <;> rfl) records

/-- The batch of an attempt is read from its encoding, from its body, and from whatever else is
decompressed to the encoding; and it says what was recorded. -/
theorem survives_encoding (hr : Listed Record.Measured records) (ht : Listed Report.Measured tallies)
    (machine : Uuid) (number : UInt64) (clock : Clock) :
    let b := (ofRecords machine records tallies).stamp number clock
    b.Says machine records tallies number clock ∧ decoder.decode b.encode = .ok b ∧
      ofBody b.body = .ok b ∧
      ∀ body, Gzip.decompress? body = some b.encode → ofBody body = .ok b := by
  intro b
  have hm : b.Measured :=
    have h : (ofRecords machine records tallies).Measured := measured_ofRecords hr ht
    ⟨h.singulars, h.aggregates, h.sequences, h.tallies⟩
  refine ⟨says_stamp machine records tallies number clock, (reads_decoder hm).decode, ?_,
    fun body => ofBody_of_decompress hm⟩
  exact ofBody_of_decompress hm (Gzip.decompress_compress b.encode)

def mixed : List Record :=
  [.singular ⟨1000, .nil, 5, none⟩,
   .sequence ⟨1000, .nil, [⟨6, some Payload.nested⟩, ⟨7, none⟩]⟩,
   .aggregate ⟨0, .nil, -3, 9, some (.double 0x7ff8000000000001)⟩,
   .singular ⟨1001, .nil, -1, some (.tuple [])⟩]

def closed : List Report :=
  [⟨1000, .nil, "2024-06-29".toList, 4294967295, some (.text "naïve".toList)⟩,
   ⟨1001, .nil, "2024-05".toList, 1, none⟩]

theorem survives_encoding_mixed :
    Listed Record.Measured mixed ∧ Listed Report.Measured closed ∧
      let b := (ofRecords .nil mixed closed).stamp 41 (.start .epoch)
      ofBody b.body = .ok b ∧ b.Says .nil mixed closed 41 (.start .epoch) ∧
        b.singulars.length = 2 ∧ b.recordCount = 4 ∧ b.eventCount = 6 := by
  have hcosts : ∀ r ∈ mixed, r.cost < capacity 8 := by decide
  have hlengths : ∀ r ∈ closed, r.encode.length < capacity 8 := by decide
  have hr : Listed Record.Measured mixed :=
    ⟨by decide, fun r hr => Record.measured_of_cost (hcosts r hr)⟩
  have ht : Listed Report.Measured closed :=
    ⟨by decide, fun r hr => Report.measured_of_length (hlengths r hr)⟩
  obtain ⟨htold, -, hbody, -⟩ := survives_encoding hr ht .nil 41 (.start .epoch)
  exact ⟨hr, ht, hbody, htold, rfl, htold.recordCount, htold.eventCount⟩

end Batch

end Telemetry.Upload
