import Telemetry.Protocol.Frame
import Telemetry.Protocol.Message
import Telemetry.Uuid

namespace Telemetry.Protocol

open Codec

/-- A connection as the client sees it: what has come in and not been read, and whether the other
side has closed it. -/
structure Link where
  incoming : Bytes
  closed : Bool
  deriving DecidableEq, Repr

namespace Link

def connected : Link := ⟨[], false⟩

def deliver (l : Link) (bytes : Bytes) : Link := { l with incoming := l.incoming ++ bytes }

def close (l : Link) : Link := { l with closed := true }

def receive (l : Link) : Except RecorderError Response × Link :=
  match Frame.front l.incoming with
  | .body body rest =>
    let l := { l with incoming := rest }
    match Frame.read Response.decoder body with
    | .ok r => (.ok r, l)
    | .error e => (.error (.protocol e.message), l)
  | .noHeader => (.error (.protocol "connection closed by daemon"), { l with incoming := [] })
  | .tooLarge size =>
    (.error (.protocol (FrameError.message (.tooLarge size))),
      { l with incoming := l.incoming.drop 4 })
  | .cut => (.error (.protocol (FrameError.message .earlyEnd)), { l with incoming := [] })

end Link

namespace Client

def unreachable : RecorderError := .protocol "Failed to connect to"

def frame (r : Request) : Except RecorderError Bytes :=
  match Frame.write r.encode with
  | .ok bytes => .ok bytes
  | .error e => .error (.protocol e.message)

/-- A response that reports an error is that error. -/
def checked : Response → Except RecorderError Response
  | .error reply => .error reply.error
  | r => .ok r

def unexpected (r : Response) : RecorderError := .protocol ("unexpected response " ++ r.quoted)

def unit (r : Response) : Except RecorderError Unit := do
  match ← checked r with
  | .ok => .ok ()
  | other => .error (unexpected other)

def flag (r : Response) : Except RecorderError Bool := do
  match ← checked r with
  | .enabled b => .ok b
  | other => .error (unexpected other)

def handle (r : Response) : Except RecorderError TimerHandle := do
  match ← checked r with
  | .timer h => .ok h
  | other => .error (unexpected other)

def counts (r : Response) : Except RecorderError (UInt64 × UInt64) := do
  match ← checked r with
  | .uploaded events tallies => .ok (events, tallies)
  | other => .error (unexpected other)

def recordSingular (user : UInt32) (event : EventId) (stamp : Int64) (p : Payload) : Request :=
  .recordSingular user event.bytes stamp (.ofPayload p)

def recordAggregate (user : UInt32) (event : EventId) (count stamp : Int64) (p : Payload) :
    Request :=
  .recordAggregate user event.bytes count stamp (.ofPayload p)

def recordSequence (user : UInt32) (event : EventId) (entries : List SequenceEntry) : Request :=
  .recordSequence user event.bytes entries

def startTimer (flags : UInt32) (event : EventId) (p : Payload) : Request :=
  .startTimer flags event.bytes (.ofPayload p)

end Client

structure EventSequence where
  user : UInt32
  event : EventId
  entries : List SequenceEntry
  deriving DecidableEq, Repr

namespace EventSequence

def start (user : UInt32) (event : EventId) (stamp : Int64) (p : Payload) : EventSequence :=
  ⟨user, event, [.ofPayload stamp p]⟩

def progress (s : EventSequence) (stamp : Int64) (p : Payload) : EventSequence :=
  { s with entries := s.entries ++ [.ofPayload stamp p] }

def length (s : EventSequence) : Nat := s.entries.length

def isEmpty (s : EventSequence) : Bool := s.entries.isEmpty

def finish (s : EventSequence) (stamp : Int64) (p : Payload) : Request :=
  Client.recordSequence s.user s.event (s.progress stamp p).entries

end EventSequence

end Telemetry.Protocol
