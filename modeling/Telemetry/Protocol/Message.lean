import Telemetry.Error
import Telemetry.Payload.Codec

namespace Telemetry

open Codec

namespace ErrorKind

def tag : ErrorKind → Nat
  | .metricsDisabled => 0
  | .uploadingDisabled => 1
  | .unauthorized => 2
  | .unknownHandle => 3
  | .invalidArgument => 4
  | .storageFailure => 5
  | .uploadFailed => 6
  | .protocol => 7

def ofTag : Nat → ErrorKind
  | 0 => .metricsDisabled
  | 1 => .uploadingDisabled
  | 2 => .unauthorized
  | 3 => .unknownHandle
  | 4 => .invalidArgument
  | 5 => .storageFailure
  | 6 => .uploadFailed
  | _ => .protocol

end ErrorKind

namespace ErrorReply

def encode (r : ErrorReply) : Bytes :=
  encodeTag (r.kind.tag) ++ encodeText r.message.toList
    ++ encodeOption (fun h => encodeUInt64 h.number) r.handle

def decoder : Decoder ErrorReply := do
  let kind ← Decoder.tag 8
  let message ← Decoder.text
  let handle ← Decoder.option Decoder.uint64
  return ⟨ErrorKind.ofTag kind, String.ofList message, handle.map TimerHandle.mk⟩

end ErrorReply

namespace Protocol

def version : UInt32 := 1

/-- A payload as it travels. -/
structure Carried where
  present : Bool
  value : Value
  deriving DecidableEq, Repr

namespace Carried

def ofPayload : Payload → Carried
  | some v => ⟨true, v⟩
  | none => ⟨false, .bool false⟩

def payload (c : Carried) : Payload := Payload.ofParts c.present c.value

@[simp] theorem payload_ofPayload (p : Payload) : (ofPayload p).payload = p := by
  cases p <;> rfl

def encode (c : Carried) : Bytes := encodeBool c.present ++ c.value.encode

def decoder : Decoder Carried := do
  let present ← Decoder.boolean
  let value ← Value.decoder
  return { present, value }

end Carried

structure SequenceEntry where
  stamp : Int64
  carried : Carried
  deriving DecidableEq, Repr

namespace SequenceEntry

def ofPayload (stamp : Int64) (p : Payload) : SequenceEntry := ⟨stamp, .ofPayload p⟩

def point (e : SequenceEntry) : Int64 × Payload := (e.stamp, e.carried.payload)

def encode (e : SequenceEntry) : Bytes := encodeInt64 e.stamp ++ e.carried.encode

def decoder : Decoder SequenceEntry := do
  let stamp ← Decoder.int64
  let carried ← Carried.decoder
  return { stamp, carried }

end SequenceEntry

/-- What a client asks for. The identifier of an event is not checked before it arrives. -/
inductive Request
  | recordSingular (user : UInt32) (event : Bytes) (stamp : Int64) (carried : Carried)
  | recordAggregate (user : UInt32) (event : Bytes) (count stamp : Int64) (carried : Carried)
  | recordSequence (user : UInt32) (event : Bytes) (entries : List SequenceEntry)
  | startTimer (flags : UInt32) (event : Bytes) (carried : Carried)
  | stopTimer (handle : TimerHandle)
  | uploadEvents
  | getEnabled
  | setEnabled (enabled : Bool)
  | getUploading
  | setUploading (enabled : Bool)
  deriving DecidableEq, Repr

namespace Request

def name : Request → String
  | recordSingular .. => "RecordSingularEvent"
  | recordAggregate .. => "RecordAggregateEvent"
  | recordSequence .. => "RecordEventSequence"
  | startTimer .. => "StartAggregateTimer"
  | stopTimer _ => "StopTimer"
  | uploadEvents => "UploadEvents"
  | getEnabled => "GetEnabled"
  | setEnabled _ => "SetEnabled"
  | getUploading => "GetUploadingEnabled"
  | setUploading _ => "SetUploadingEnabled"

def encode : Request → Bytes
  | recordSingular user event stamp carried =>
    encodeTag 0 ++ encodeUInt32 user ++ encodeBytes event ++ encodeInt64 stamp ++ carried.encode
  | recordAggregate user event count stamp carried =>
    encodeTag 1 ++ encodeUInt32 user ++ encodeBytes event ++ encodeInt64 count
      ++ encodeInt64 stamp ++ carried.encode
  | recordSequence user event entries =>
    encodeTag 2 ++ encodeUInt32 user ++ encodeBytes event ++ encodeList SequenceEntry.encode entries
  | startTimer flags event carried =>
    encodeTag 3 ++ encodeUInt32 flags ++ encodeBytes event ++ carried.encode
  | stopTimer handle => encodeTag 4 ++ encodeUInt64 handle.number
  | uploadEvents => encodeTag 5
  | getEnabled => encodeTag 6
  | setEnabled enabled => encodeTag 7 ++ encodeBool enabled
  | getUploading => encodeTag 8
  | setUploading enabled => encodeTag 9 ++ encodeBool enabled

def decoder : Decoder Request := do
  match ← Decoder.tag 10 with
  | 0 =>
    let user ← Decoder.uint32
    let event ← Decoder.counted
    let stamp ← Decoder.int64
    return recordSingular user event stamp (← Carried.decoder)
  | 1 =>
    let user ← Decoder.uint32
    let event ← Decoder.counted
    let count ← Decoder.int64
    let stamp ← Decoder.int64
    return recordAggregate user event count stamp (← Carried.decoder)
  | 2 =>
    let user ← Decoder.uint32
    let event ← Decoder.counted
    return recordSequence user event (← Decoder.list SequenceEntry.decoder)
  | 3 =>
    let flags ← Decoder.uint32
    let event ← Decoder.counted
    return startTimer flags event (← Carried.decoder)
  | 4 => return stopTimer ⟨← Decoder.uint64⟩
  | 5 => return uploadEvents
  | 6 => return getEnabled
  | 7 => return setEnabled (← Decoder.boolean)
  | 8 => return getUploading
  | _ => return setUploading (← Decoder.boolean)

end Request

inductive Response
  | ok
  | timer (handle : TimerHandle)
  | enabled (flag : Bool)
  | uploaded (events tallies : UInt64)
  | error (reply : ErrorReply)
  deriving DecidableEq, Repr

namespace Response

def ofError (e : RecorderError) : Response := .error e.reply

def encode : Response → Bytes
  | ok => encodeTag 0
  | timer handle => encodeTag 1 ++ encodeUInt64 handle.number
  | enabled flag => encodeTag 2 ++ encodeBool flag
  | uploaded events tallies => encodeTag 3 ++ encodeUInt64 events ++ encodeUInt64 tallies
  | error reply => encodeTag 4 ++ reply.encode

def decoder : Decoder Response := do
  match ← Decoder.tag 5 with
  | 0 => return ok
  | 1 => return timer ⟨← Decoder.uint64⟩
  | 2 => return enabled (← Decoder.boolean)
  | 3 =>
    let events ← Decoder.uint64
    return uploaded events (← Decoder.uint64)
  | _ => return error (← ErrorReply.decoder)

def quoted : Response → String
  | ok => "Ok"
  | timer handle =>
    "Timer \x7b handle: TimerHandle(" ++ toString handle.number.toNat ++ ") \x7d"
  | enabled flag => "Enabled(" ++ toString flag ++ ")"
  | uploaded events tallies =>
    "Uploaded \x7b events: " ++ toString events.toNat ++ ", tallies: " ++ toString tallies.toNat
      ++ " \x7d"
  | error _ => ""

end Response

end Protocol

end Telemetry
