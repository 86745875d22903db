import Telemetry.Calendar.Bucket
import Telemetry.Payload.Codec
import Telemetry.Tally.Counter
import Telemetry.Uuid

namespace Telemetry.Tally

open Calendar Codec

structure Increment where
  event : EventId
  date : Date
  user : UInt32
  payload : Payload
  amount : UInt32
  deriving DecidableEq, Repr

/-- What a counter is kept under: the bucket, the event, the user and the encoded payload. A
stored user may be any integer. -/
structure Key where
  bucket : List Char
  event : EventId
  user : Int
  payload : Bytes
  deriving DecidableEq, Repr

def Increment.dayKeyOf (i : Increment) : Key :=
  ⟨dayKey i.date, i.event, i.user.toNat, i.payload.store⟩

def Increment.monthKeyOf (i : Increment) : Key :=
  ⟨monthKey i.date, i.event.monthly, i.user.toNat, i.payload.store⟩

/-- A row as it is stored. -/
structure Stored where
  id : Nat
  key : Key
  counter : Int
  deriving DecidableEq, Repr

/-- A row as it is read: user and counter brought into range, the payload decoded. -/
structure Row where
  id : Nat
  event : EventId
  bucket : List Char
  user : UInt32
  payload : Payload
  counter : UInt32
  deriving DecidableEq, Repr

def Row.period (r : Row) : Option Period := Period.ofKey? r.bucket

def saturate (n : Int) : UInt32 := UInt32.ofNat (min n.toNat (UInt32.size - 1))

/-- A counter past 64 bits makes its row unreadable. -/
def Stored.readable (r : Stored) : Bool := fits r.counter

def Stored.report? (r : Stored) : Option Row :=
  match Payload.restore r.key.payload with
  | .ok payload =>
    some ⟨r.id, r.key.event, r.key.bucket, saturate r.key.user, payload, saturate r.counter⟩
  | .error _ => none

/-- The order of reports: by event, bucket, user and payload. -/
def Key.le (a b : Key) : Bool :=
  if a.event ≠ b.event then a.event.before b.event
  else if a.bucket ≠ b.bucket then a.bucket < b.bucket
  else if a.user ≠ b.user then a.user < b.user
  else a.payload ≤ b.payload

end Telemetry.Tally
