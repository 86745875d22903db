import Telemetry.Clock
import Telemetry.Compress.Gzip
import Telemetry.Event.Record
import Telemetry.Tally.Row

namespace Telemetry.Upload

open Codec Compress Event

/-- A closed counter as it is reported. -/
structure Report where
  user : UInt32
  event : EventId
  period : List Char
  count : UInt32
  payload : Payload
  deriving DecidableEq, Repr

namespace Report

def ofRow (r : Tally.Row) : Report := ⟨r.user, r.event, r.bucket, r.counter, r.payload⟩

def encode (r : Report) : Bytes :=
  encodeUInt32 r.user ++ r.event.encode ++ encodeText r.period ++ encodeUInt32 r.count
    ++ r.payload.encode

def decoder : Decoder Report := do
  let user ← Decoder.uint32
  let event ← Uuid.decoder
  let period ← Decoder.text
  let count ← Decoder.uint32
  let payload ← Payload.decoder
  return { user, event, period, count, payload }

end Report

structure Batch where
  sendNumber : UInt64
  relative : Int64
  absolute : Int64
  machine : Uuid
  singulars : List Singular
  aggregates : List Aggregate
  sequences : List Sequence
  tallies : List Report
  deriving DecidableEq, Repr

def singularOf? : Record → Option Singular
  | .singular e => some e
  | _ => none

def aggregateOf? : Record → Option Aggregate
  | .aggregate e => some e
  | _ => none

def sequenceOf? : Record → Option Sequence
  | .sequence e => some e
  | _ => none

inductive BatchError
  | decompress
  | deserialize (cause : DecodeError)
  deriving DecidableEq, Repr

def BatchError.message : BatchError → String
  | .decompress => "Failed to decompress batch"
  | .deserialize cause => "Failed to deserialize batch: " ++ cause.message

namespace Batch

/-- The records by kind, each kind in its order; not stamped yet. -/
def ofRecords (machine : Uuid) (records : List Record) (tallies : List Report) : Batch :=
  { sendNumber := 0
    relative := 0
    absolute := 0
    machine := machine
    singulars := records.filterMap singularOf?
    aggregates := records.filterMap aggregateOf?
    sequences := records.filterMap sequenceOf?
    tallies := tallies }

def isEmpty (b : Batch) : Bool :=
  b.singulars.isEmpty && b.aggregates.isEmpty && b.sequences.isEmpty && b.tallies.isEmpty

def recordCount (b : Batch) : Nat :=
  b.singulars.length + b.aggregates.length + b.sequences.length

def eventCount (b : Batch) : Nat := b.recordCount + b.tallies.length

def stamp (b : Batch) (number : UInt64) (clock : Clock) : Batch :=
  { b with sendNumber := number, relative := clock.boot, absolute := clock.wall }

def encode (b : Batch) : Bytes :=
  encodeUInt64 b.sendNumber ++ encodeInt64 b.relative ++ encodeInt64 b.absolute ++ b.machine.encode
    ++ encodeList Singular.encode b.singulars ++ encodeList Aggregate.encode b.aggregates
    ++ encodeList Sequence.encode b.sequences ++ encodeList Report.encode b.tallies

def decoder : Decoder Batch := do
  let sendNumber ← Decoder.uint64
  let relative ← Decoder.int64
  let absolute ← Decoder.int64
  let machine ← Uuid.decoder
  let singulars ← Decoder.list Singular.decoder
  let aggregates ← Decoder.list Aggregate.decoder
  let sequences ← Decoder.list Sequence.decoder
  let tallies ← Decoder.list Report.decoder
  return { sendNumber, relative, absolute, machine, singulars, aggregates, sequences, tallies }

def body (b : Batch) : Bytes := Gzip.compress b.encode

def ofBody (body : Bytes) : Except BatchError Batch :=
  match Gzip.decompress? body with
  | none => .error .decompress
  | some raw =>
    match decoder.decode raw with
    | .ok b => .ok b
    | .error e => .error (.deserialize e)

end Batch

end Telemetry.Upload
