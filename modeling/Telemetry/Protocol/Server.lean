import Telemetry.Daemon.Uploading
import Telemetry.Protocol.Frame
import Telemetry.Protocol.Message

namespace Telemetry.Protocol

open Codec Upload

/-- A daemon and the collector it uploads to. -/
structure Host where
  daemon : Daemon
  collector : Collector
  deriving DecidableEq, Repr

namespace Host

def recorded (h : Host) (s : Session) :
    Except RecorderError (Session × Daemon) → Except RecorderError Response × Session × Host
  | .ok (s, d) => (.ok .ok, s, { h with daemon := d })
  | .error e => (.error e, s, h)

def changed (h : Host) (s : Session) :
    Except RecorderError Daemon → Except RecorderError Response × Session × Host
  | .ok d => (.ok .ok, s, { h with daemon := d })
  | .error e => (.error e, s, h)

def execute (h : Host) (s : Session) :
    Request → Except RecorderError Response × Session × Host
  | .recordSingular user event stamp carried =>
    h.recorded s (h.daemon.recordSingular s user event stamp carried.payload)
  | .recordAggregate user event count stamp carried =>
    h.recorded s (h.daemon.recordAggregate s user event count stamp carried.payload)
  | .recordSequence user event entries =>
    h.recorded s (h.daemon.recordSequence s user event (entries.map SequenceEntry.point))
  | .startTimer flags event carried =>
    match h.daemon.startTimer s ⟨flags⟩ event carried.payload with
    | .ok (handle, d) => (.ok (.timer handle), s, { h with daemon := d })
    | .error e => (.error e, s, h)
  | .stopTimer handle =>
    let (r, d) := h.daemon.stopTimer s handle
    (r.map fun _ => .ok, s, { h with daemon := d })
  | .uploadEvents =>
    let (r, d, c) := h.daemon.upload h.collector .requested
    (r.map fun stats => .uploaded (UInt64.ofNat stats.events) (UInt64.ofNat stats.tallies), s,
      ⟨d, c⟩)
  | .getEnabled => (.ok (.enabled h.daemon.gate.enabled), s, h)
  | .setEnabled enabled => h.changed s (h.daemon.setEnabled s.user enabled)
  | .getUploading => (.ok (.enabled h.daemon.gate.uploadAllowed), s, h)
  | .setUploading enabled => h.changed s (h.daemon.setUploading s.user enabled)

/-- Executes a request and makes its response. -/
def dispatch (h : Host) (s : Session) (r : Request) : Response × Session × Host :=
  match h.execute s r with
  | (.ok response, s, h) => (response, s, h)
  | (.error e, s, h) => (.ofError e, s, h)

def serveBody (h : Host) (s : Session) (body : Bytes) : Response × Session × Host :=
  match Frame.read Request.decoder body with
  | .ok r => h.dispatch s r
  | .error e => (.ofError (.protocol e.message), s, h)

def serveBodies (h : Host) (s : Session) : List Bytes → List Response × Session × Host
  | [] => ([], s, h)
  | body :: rest =>
    let (r, s, h) := h.serveBody s body
    let (rs, s, h) := h.serveBodies s rest
    (r :: rs, s, h)

def hangUp (h : Host) (s : Session) : Host := { h with daemon := h.daemon.disconnect s.client }

/-- A connection over its whole life: the stream is served frame by frame up to its end, or up to a
frame that is too large, and then the session ends. -/
def serve (h : Host) (s : Session) (stream : Bytes) : List Response × Session × Host :=
  let (bodies, _, _) := Frame.split stream
  let (rs, s, h) := h.serveBodies s bodies
  (rs, s, h.hangUp s)

end Host

/-- An open connection: its session, and what came in behind the last whole frame. -/
structure Connection where
  session : Session
  pending : Bytes
  deriving DecidableEq, Repr

namespace Connection

def opened (client : ClientId) (user : UInt32) : Connection := ⟨.fresh client user, []⟩

/-- More comes in. What it completes is served. A frame that is too large ends the connection. -/
def feed (c : Connection) (h : Host) (bytes : Bytes) :
    List Response × Option Connection × Host :=
  let (bodies, last, left) := Frame.split (c.pending ++ bytes)
  let (rs, s, h) := h.serveBodies c.session bodies
  match last with
  | .tooLarge _ => (rs, none, h.hangUp s)
  | _ => (rs, some ⟨s, left⟩, h)

def finish (c : Connection) (h : Host) (bytes : Bytes) : List Response × Host :=
  match c.feed h bytes with
  | (rs, none, h) => (rs, h)
  | (rs, some c, h) => (rs, h.hangUp c.session)

end Connection

/-- The server of a host: its open connections by name, and the next client's number. -/
structure Server where
  host : Host
  nextClient : UInt64
  connections : Index (List Char) Connection
  accepting : Bool
  deriving DecidableEq, Repr

namespace Server

def started (h : Host) : Server := ⟨h, 1, .empty, true⟩

def connect (v : Server) (name : List Char) (user : UInt32) : Server :=
  { v with
    nextClient := v.nextClient + 1
    connections := v.connections.insert name (.opened ⟨v.nextClient⟩ user) }

def feed? (v : Server) (name : List Char) (bytes : Bytes) : Option (List Response × Server) :=
  match v.connections.get? name with
  | none => none
  | some c =>
    match c.feed v.host bytes with
    | (rs, some c, h) => some (rs, { v with host := h, connections := v.connections.insert name c })
    | (rs, none, h) => some (rs, { v with host := h, connections := v.connections.erase name })

def finish? (v : Server) (name : List Char) (bytes : Bytes) : Option (List Response × Server) :=
  match v.connections.get? name with
  | none => none
  | some c =>
    let (rs, h) := c.finish v.host bytes
    some (rs, { v with host := h, connections := v.connections.erase name })

def stop (v : Server) : Server :=
  { v with
    host := v.connections.entries.foldl (fun h (_, c) => h.hangUp c.session) v.host
    connections := .empty
    accepting := false }

def restart (v : Server) : Except StorageError Server :=
  let h := v.stop.host
  h.daemon.restart.map fun d => started { h with daemon := d }

end Server

end Telemetry.Protocol
