import Telemetry.Clock
import Telemetry.Index
import Telemetry.Session
import Telemetry.Tally.Row

namespace Telemetry.Timer

open Calendar Tally

/-- Flags given to a start. They only tell timers apart. -/
structure Flags where
  bits : UInt32
  deriving DecidableEq, Repr

structure Key where
  client : ClientId
  event : EventId
  flags : Flags
  deriving DecidableEq, Repr

/-- A running timer. User and payload are those of the start that created it. -/
structure Running where
  user : UInt32
  payload : Payload
  started : Int64
  handles : List TimerHandle
  deriving DecidableEq, Repr

structure Start where
  client : ClientId
  user : UInt32
  event : EventId
  flags : Flags
  payload : Payload
  deriving DecidableEq, Repr

def Start.key (s : Start) : Key := ⟨s.client, s.event, s.flags⟩

/-- The whole seconds from one reading of the boot clock to another: none if the second is not
later, and the largest number of 32 bits if there are more. -/
def seconds (started now : Int64) : UInt32 :=
  let elapsed := (now - started).toInt
  UInt32.ofNat (min (elapsed / 1000000000).toNat (UInt32.size - 1))

def Running.increment (t : Running) (key : Key) (now : Int64) (date : Date) : Increment :=
  ⟨key.event, date, t.user, t.payload, seconds t.started now⟩

structure Registry where
  nextHandle : UInt64
  timers : Index Key Running
  handles : Index TimerHandle Key
  clients : Index ClientId (List Key)
  deriving DecidableEq, Repr

namespace Registry

def empty : Registry := ⟨1, .empty, .empty, .empty⟩

instance : Inhabited Registry := ⟨empty⟩

/-- Starts a timer, or refers once more to the one that runs under the same key. -/
def start (r : Registry) (s : Start) (now : Int64) : TimerHandle × Registry :=
  let handle : TimerHandle := ⟨r.nextHandle⟩
  let refer : Option Running → Running
    | some t => { t with handles := t.handles ++ [handle] }
    | none => ⟨s.user, s.payload, now, [handle]⟩
  (handle,
    { nextHandle := r.nextHandle + 1
      timers := r.timers.alter s.key refer
      handles := r.handles.insert handle s.key
      clients := r.clients.alter s.client fun owned =>
        let keys := owned.getD []
        if s.key ∈ keys then keys else keys ++ [s.key] })

def disown (r : Registry) (key : Key) : Registry :=
  match r.clients.get? key.client with
  | none => r
  | some owned =>
    let rest := owned.filter (· ≠ key)
    if rest.isEmpty then { r with clients := r.clients.erase key.client }
    else { r with clients := r.clients.insert key.client rest }

def remove (r : Registry) (key : Key) (t : Running) : Registry :=
  disown
    { r with
      timers := r.timers.erase key
      handles := t.handles.foldl Index.erase r.handles } key

/-- Releases one handle, which must be the client's own. The increment is that of the timer whose
last handle this was; `none` as the whole result means that there is no such handle. -/
def stop (r : Registry) (client : ClientId) (handle : TimerHandle) (now : Int64) (today : Date) :
    Option (Option Increment × Registry) :=
  match r.handles.get? handle with
  | none => none
  | some key =>
    if key.client ≠ client then none
    else match r.timers.get? key with
      | none => none
      | some t =>
        let left := t.handles.filter (· ≠ handle)
        let r' := { r with handles := r.handles.erase handle }
        if left.isEmpty then
          some (some (t.increment key now today), r'.remove key { t with handles := left })
        else
          some (none, { r' with timers := r'.timers.insert key { t with handles := left } })

def endAll (now : Int64) (today : Date) : List Key → Registry → List Increment × Registry
  | [], r => ([], r)
  | key :: rest, r =>
    match r.timers.get? key with
    | none => endAll now today rest r
    | some t =>
      let (more, r') := endAll now today rest (r.remove key t)
      (t.increment key now today :: more, r')

def disconnect (r : Registry) (client : ClientId) (now : Int64) (today : Date) :
    List Increment × Registry :=
  endAll now today ((r.clients.get? client).getD [])
    { r with clients := r.clients.erase client }

def increments (r : Registry) (now : Int64) (date : Date) : List Increment :=
  r.timers.entries.map fun (key, t) => t.increment key now date

/-- The registry without timers. Handles given out before are not given out again. -/
def cleared (r : Registry) : Registry := { empty with nextHandle := r.nextHandle }

def drain (r : Registry) (now : Int64) (today : Date) : List Increment × Registry :=
  (r.increments now today, r.cleared)

def purge (r : Registry) : Nat × Registry := (r.timers.size, r.cleared)

/-- Ends the running interval of every timer and begins the next one. -/
def split (r : Registry) (now : Int64) (date : Date) : List Increment × Registry :=
  (r.increments now date,
    { r with timers := r.timers.mapValues fun _ t => { t with started := now } })

def count (r : Registry) : Nat := r.timers.size

def handleCount (r : Registry) : Nat := r.handles.size

end Registry

end Telemetry.Timer
