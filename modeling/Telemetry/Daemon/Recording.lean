import Telemetry.Daemon.State

namespace Telemetry.Daemon

open Calendar Codec Event Tally Timer

def eventId (bytes : Bytes) : Except RecorderError EventId :=
  match EventId.ofBytes bytes with
  | .ok id => .ok id
  | .error fault => .error (.invalidArgument fault.message)

/-- Puts a record into the buffer; one that is too large is dropped. -/
def push (d : Daemon) (r : Record) : Daemon := { d with buffer := d.buffer.push r }

def recordSingular (d : Daemon) (s : Session) (user : UInt32) (event : Bytes) (stamp : Int64)
    (payload : Payload) : Except RecorderError (Session × Daemon) :=
  d.whileEnabled do
    let event ← eventId event
    let (stamp, guard) := s.guard.apply stamp d.clock.boot
    return ({ s with guard := guard }, d.push (.singular ⟨user, event, stamp, payload⟩))

def recordAggregate (d : Daemon) (s : Session) (user : UInt32) (event : Bytes) (count : Int64)
    (stamp : Int64) (payload : Payload) : Except RecorderError (Session × Daemon) :=
  d.whileEnabled do
    let event ← eventId event
    if count < 0 then
      .error (.invalidArgument
        ("Event count must be non-negative, got " ++ toString count.toInt))
    else
      let (stamp, guard) := s.guard.apply stamp d.clock.boot
      return ({ s with guard := guard }, d.push (.aggregate ⟨user, event, count, stamp, payload⟩))

def stampAll (now : Int64) : StampGuard → List (Int64 × Payload) → List Point × StampGuard
  | g, [] => ([], g)
  | g, (stamp, payload) :: rest =>
    let (stamp, g) := g.apply stamp now
    let (points, g) := stampAll now g rest
    (⟨stamp, payload⟩ :: points, g)

def recordSequence (d : Daemon) (s : Session) (user : UInt32) (event : Bytes)
    (points : List (Int64 × Payload)) : Except RecorderError (Session × Daemon) :=
  d.whileEnabled do
    let event ← eventId event
    if points.isEmpty then
      .error (.invalidArgument "Event sequence must contain at least one event")
    else
      let (points, guard) := stampAll d.clock.boot s.guard points
      return ({ s with guard := guard }, d.push (.sequence ⟨user, event, points⟩))

def startTimer (d : Daemon) (s : Session) (flags : Flags) (event : Bytes) (payload : Payload) :
    Except RecorderError (TimerHandle × Daemon) :=
  d.whileEnabled do
    let event ← eventId event
    let (handle, timers) := d.timers.start ⟨s.client, s.user, event, flags, payload⟩ d.clock.boot
    return (handle, { d with timers := timers })

def commit (d : Daemon) (is : List Increment) : Except RecorderError Daemon :=
  match d.tally.commit is with
  | .ok tally => .ok { d with tally := tally }
  | .error e => .error (.ofStorage e)

/-- Takes a handle from its timer. Whether metrics are enabled is not asked: a revocation has
emptied the registry, and its handles are unknown from then on. -/
def release (d : Daemon) (client : ClientId) (handle : TimerHandle) :
    Except RecorderError (Option Increment × Daemon) :=
  match d.timers.stop client handle d.clock.boot d.clock.today with
  | none => .error (.unknownHandle handle)
  | some (i, timers) => .ok (i, { d with timers := timers })

/-- Counts the time of a timer that ended, unless consent was revoked since `generation` was
noted. -/
def commitSince (d : Daemon) (generation : Nat) (i : Increment) : Except RecorderError Daemon :=
  d.since generation (d.commit [i])

def settled (d : Daemon) : Except RecorderError Daemon → Except RecorderError Unit × Daemon
  | .ok d' => (.ok (), d')
  | .error e => (.error e, d)

/-- Releases a handle in three steps: the number of revocations is noted, the handle is taken from
its timer, and what the timer yields is counted. -/
def stopTimer (d : Daemon) (s : Session) (handle : TimerHandle) :
    Except RecorderError Unit × Daemon :=
  let generation := d.gate.generation
  match d.release s.client handle with
  | .error e => (.error e, d)
  | .ok (none, d) => (.ok (), d)
  | .ok (some i, d) => d.settled (d.commitSince generation i)

def commitEnded (d : Daemon) (is : List Increment) (timers : Registry) :
    Except RecorderError Nat × Daemon :=
  let d := { d with timers := timers }
  match d.commit is with
  | .ok d => (.ok is.length, d)
  | .error e => (.error e, d)

def disconnect (d : Daemon) (client : ClientId) : Daemon :=
  if d.gate.enabled then
    let (is, timers) := d.timers.disconnect client d.clock.boot d.clock.today
    (d.commitEnded is timers).2
  else d

def splitTimers (d : Daemon) (day : Date) : Except RecorderError Nat × Daemon :=
  if d.gate.enabled then
    let (is, timers) := d.timers.split d.clock.boot day
    d.commitEnded is timers
  else (.error .disabled, d)

def commitTimers (d : Daemon) : Except RecorderError Nat × Daemon :=
  if d.gate.enabled then
    let (is, timers) := d.timers.drain d.clock.boot d.clock.today
    d.commitEnded is timers
  else (.error .disabled, d)

/-- Splits the timers if the date has changed since the last look, and counts them. -/
def checkRollover (d : Daemon) : Nat × Daemon :=
  if d.lastDay = d.clock.today then (0, d)
  else
    let (r, d) := { d with lastDay := d.clock.today }.splitTimers d.lastDay
    (r.toOption.getD 0, d)

/-- Moves the buffered records to the cache, and counts those that it took. -/
def flush (d : Daemon) : Except RecorderError Nat × Daemon :=
  if d.gate.enabled then
    let (records, buffer) := d.buffer.take none
    let d := { d with buffer := buffer }
    match d.cache.store records with
    | .ok (n, cache) => (.ok n, { d with cache := cache })
    | .error e => (.error (.ofStorage e), d)
  else (.ok 0, d)

/-- Ends every timer, saves the buffered records, and closes the outbox. Failures do not stop it. -/
def shutdown (d : Daemon) : Daemon := d.commitTimers.2.flush.2.closeOutbox

end Telemetry.Daemon
