import Telemetry.Payload.Codec
import Telemetry.Uuid

namespace Telemetry

open Codec Text

namespace Event

structure Singular where
  user : UInt32
  event : EventId
  stamp : Int64
  payload : Payload
  deriving DecidableEq, Repr

structure Aggregate where
  user : UInt32
  event : EventId
  count : Int64
  stamp : Int64
  payload : Payload
  deriving DecidableEq, Repr

structure Point where
  stamp : Int64
  payload : Payload
  deriving DecidableEq, Repr

structure Sequence where
  user : UInt32
  event : EventId
  points : List Point
  deriving DecidableEq, Repr

inductive Record
  | singular (e : Singular)
  | aggregate (e : Aggregate)
  | sequence (e : Sequence)
  deriving DecidableEq, Repr

def Record.event : Record → EventId
  | .singular e => e.event
  | .aggregate e => e.event
  | .sequence e => e.event

end Event

namespace Value

mutual

def size : Value → Nat
  | bool _ => 5
  | int32 _ => 8
  | uint32 _ => 8
  | int64 _ => 12
  | uint64 _ => 12
  | double _ => 12
  | text s => 12 + Utf8.size s
  | bytes bs => 12 + bs.length
  | array vs => 12 + sizeAll vs
  | tuple vs => 12 + sizeAll vs

def sizeAll : List Value → Nat
  | [] => 0
  | v :: vs => size v + sizeAll vs

end

mutual

theorem length_encode : (v : Value) → (encode v).length = size v
  | bool _ => rfl
  | int32 _ => rfl
  | uint32 _ => rfl
  | int64 _ => rfl
  | uint64 _ => rfl
  | double _ => rfl
  | text s => by
    simp [encode, size, encodeTag, encodeText, encodeLength, Utf8.length_encode]
    omega
  | bytes bs => by
    simp [encode, size, encodeTag, encodeBytes, encodeLength]
    omega
  | array vs => by
    simp [encode, size, encodeTag, encodeLength, length_encodeAll vs]
    omega
  | tuple vs => by
    simp [encode, size, encodeTag, encodeLength, length_encodeAll vs]
    omega

theorem length_encodeAll : (vs : List Value) → (encodeAll vs).length = sizeAll vs
  | [] => rfl
  | v :: vs => by simp [encodeAll, sizeAll, length_encode v, length_encodeAll vs]

end

end Value

namespace Payload

def size : Payload → Nat
  | none => 1
  | some v => 1 + v.size

theorem length_encode (p : Payload) : p.encode.length = p.size := by
  cases p with
  | none => rfl
  | some v => simp [encode, encodeOption, size, Value.length_encode]; omega

end Payload

theorem Uuid.length_encode (u : Uuid) : u.encode.length = 24 := by
  simp [Uuid.encode, u.length_bytes]

namespace Event

namespace Singular

def encode (e : Singular) : Bytes :=
  encodeUInt32 e.user ++ e.event.encode ++ encodeInt64 e.stamp ++ e.payload.encode

def decoder : Decoder Singular := do
  let user ← Decoder.uint32
  let event ← Uuid.decoder
  let stamp ← Decoder.int64
  let payload ← Payload.decoder
  return { user, event, stamp, payload }

def size (e : Singular) : Nat := 36 + e.payload.size

theorem length_encode (e : Singular) : e.encode.length = e.size := by
  simp [encode, size, encodeUInt32, encodeInt64, Uuid.length_encode, Payload.length_encode]
  omega

end Singular

namespace Aggregate

def encode (e : Aggregate) : Bytes :=
  encodeUInt32 e.user ++ e.event.encode ++ encodeInt64 e.count ++ encodeInt64 e.stamp
    ++ e.payload.encode

def decoder : Decoder Aggregate := do
  let user ← Decoder.uint32
  let event ← Uuid.decoder
  let count ← Decoder.int64
  let stamp ← Decoder.int64
  let payload ← Payload.decoder
  return { user, event, count, stamp, payload }

def size (e : Aggregate) : Nat := 44 + e.payload.size

theorem length_encode (e : Aggregate) : e.encode.length = e.size := by
  simp [encode, size, encodeUInt32, encodeInt64, Uuid.length_encode, Payload.length_encode]
  omega

end Aggregate

namespace Point

def encode (p : Point) : Bytes := encodeInt64 p.stamp ++ p.payload.encode

def decoder : Decoder Point := do
  let stamp ← Decoder.int64
  let payload ← Payload.decoder
  return { stamp, payload }

def size (p : Point) : Nat := 8 + p.payload.size

theorem length_encode (p : Point) : p.encode.length = p.size := by
  simp [encode, size, encodeInt64, Payload.length_encode]

end Point

namespace Sequence

def encode (e : Sequence) : Bytes :=
  encodeUInt32 e.user ++ e.event.encode ++ encodeList Point.encode e.points

def decoder : Decoder Sequence := do
  let user ← Decoder.uint32
  let event ← Uuid.decoder
  let points ← Decoder.list Point.decoder
  return { user, event, points }

def size (e : Sequence) : Nat := 36 + sumOf Point.size e.points

theorem length_encode (e : Sequence) : e.encode.length = e.size := by
  have h : (fun p : Point => p.encode.length) = Point.size := funext Point.length_encode
  simp only [encode, size, encodeUInt32, encodeList, encodeLength, List.length_append, length_le,
    Uuid.length_encode, length_flatMap_eq_sumOf, h]
  omega

end Sequence

namespace Record

def encode : Record → Bytes
  | .singular e => encodeTag 0 ++ e.encode
  | .aggregate e => encodeTag 1 ++ e.encode
  | .sequence e => encodeTag 2 ++ e.encode

def decoder : Decoder Record := do
  match ← Decoder.tag 3 with
  | 0 => return .singular (← Singular.decoder)
  | 1 => return .aggregate (← Aggregate.decoder)
  | _ => return .sequence (← Sequence.decoder)

/-- The octets that a record takes up in the buffer and in the cache. -/
def cost : Record → Nat
  | .singular e => 4 + e.size
  | .aggregate e => 4 + e.size
  | .sequence e => 4 + e.size

theorem length_encode (r : Record) : r.encode.length = r.cost := by
  cases r <;>
    simp [encode, cost, encodeTag, Singular.length_encode, Aggregate.length_encode,
      Sequence.length_encode]

end Record

end Event

end Telemetry
