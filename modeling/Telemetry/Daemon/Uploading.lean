import Telemetry.Daemon.Recording
import Telemetry.Upload.Collector
import Telemetry.Upload.Http
/-!
Uploading, in steps between which anything may happen to the daemon: a check that notes the number
of revocations, a gathering of what is pending, attempts to send it, and a completion. A step whose
number is out of date does nothing.
-/

namespace Telemetry

open Consent Event Upload

namespace Upload

inductive Trigger
  | scheduled
  | requested
  deriving DecidableEq, Repr

structure Stats where
  events : Nat
  tallies : Nat
  attempts : Nat
  deriving DecidableEq, Repr

def Stats.none : Stats := ⟨0, 0, 0⟩

def Stats.text (s : Stats) (milliseconds : Nat) : String :=
  "UploadStats \x7b events_uploaded: " ++ toString s.events ++ ", tallies_uploaded: "
    ++ toString s.tallies ++ ", attempts: " ++ toString s.attempts ++ ", duration_ms: "
    ++ toString milliseconds ++ " \x7d"

/-- What one upload carries from its gathering to its completion. -/
structure InFlight where
  generation : Nat
  cachedIds : List Nat
  /-- The records that were taken out of the buffer. -/
  buffered : List Record
  rows : List Tally.Row
  batch : Batch
  deriving DecidableEq, Repr

inductive SendFailure
  | revoked
  | gaveUp (attempts : Nat) (last : Option Http.SendError)
  deriving DecidableEq, Repr

def SendFailure.message : SendFailure → String
  | .revoked => "metrics were disabled during upload"
  | .gaveUp attempts last =>
    "gave up after " ++ toString attempts ++ " attempts: "
      ++ (match last with
        | some e => e.message
        | none => "no attempts made")

end Upload

namespace Daemon

def uploadLimit (d : Daemon) : Trigger → Option Nat
  | .scheduled => some d.config.upload.scheduledMaxBytes
  | .requested => none

/-- Notes the number of revocations if an upload may start. If only the permission to upload is
missing, the buffered records are saved. -/
def beginUpload (d : Daemon) : Except RecorderError Nat × Daemon :=
  match d.gate.checkUpload with
  | .ok generation => (.ok generation, d)
  | .error .uploadingDisabled =>
    match d.flush with
    | (.ok _, d) => (.error .uploadingDisabled, d)
    | (.error e, d) => (.error e, d)
  | .error e => (.error e, d)

def closedRows (d : Daemon) : Except StorageError (List Tally.Row) := do
  let days ← d.tally.rowsBefore .day d.clock.today
  let months ← d.tally.rowsBefore .month d.clock.today
  return days ++ months

/-- Gathers what is pending: cached records, then buffered ones within what the limit leaves, and
closed counters. -/
def gather (d : Daemon) (generation : Nat) (limit : Option Nat) :
    Except RecorderError InFlight × Daemon :=
  if d.gate.current generation then
    match d.cache.load limit with
    | .error e => (.error (.ofStorage e), d)
    | .ok (cached, cache) =>
      let cachedBytes := sumOf Cached.cost cached
      let (buffered, buffer) := d.buffer.take (limit.map (· - cachedBytes))
      let d := { d with cache := cache, buffer := buffer }
      match d.closedRows with
      | .error e => (.error (.ofStorage e), d)
      | .ok rows =>
        let records := cached.map Cached.record ++ buffered
        (.ok
          { generation := generation
            cachedIds := cached.map Cached.id
            buffered := buffered
            rows := rows
            batch := .ofRecords d.machine records (rows.map Report.ofRow) }, d)
  else (.error .disabled, d)

/-- Prepares an attempt unless consent was revoked: it takes the next send number, or zero if there
is none to have, and stamps the batch. -/
def beginAttempt (d : Daemon) (f : InFlight) : Option (Batch × Daemon) :=
  if d.gate.generation = f.generation then
    let (number, sendFile) := SendCounter.next d.sendFile
    some (f.batch.stamp (number.toOption.getD 0) d.clock, { d with sendFile := sendFile })
  else none

def completeDelivered (d : Daemon) (f : InFlight) : Daemon :=
  if d.gate.current f.generation then
    match d.cache.remove f.cachedIds with
    | .error _ => d
    | .ok cache =>
      let d := { d with cache := cache }
      match d.tally.settle f.rows with
      | .error _ => d
      | .ok tally => { d with tally := tally }
  else d

/-- Saves the records that were taken out of the buffer and not delivered. -/
def completeFailed (d : Daemon) (f : InFlight) : Daemon :=
  if d.gate.current f.generation then
    match d.cache.store f.buffered with
    | .error _ => d
    | .ok (_, cache) => { d with cache := cache }
  else d

def undergo (d : Daemon) : Meanwhile → Daemon
  | .setEnabled enabled => (d.settled (d.setEnabled 0 enabled)).2
  | .advance nanoseconds => d.advance nanoseconds
  | .count i => (d.settled (d.commit [i])).2
  | .loseTally => { d with tally := d.tally.broken }
  | .loseCache => { d with cache := d.cache.broken }

/-- Attempts to send, at most `left` more of `total`; `last` is why the attempt before failed. -/
def attempts (f : InFlight) (total : Nat) :
    Nat → Option Http.SendError → Daemon → Collector → Except SendFailure Nat × Daemon × Collector
  | 0, last, d, c => (.error (.gaveUp total last), d, c)
  | left + 1, _, d, c =>
    match d.beginAttempt f with
    | none => (.error .revoked, d, c)
    | some (batch, d) =>
      let d := c.course.meanwhile.foldl undergo d
      if c.course.refused then attempts f total left (some (.status 503)) d (c.receive batch)
      else (.ok (total - left), d, c.receive batch)

def deliver (d : Daemon) (c : Collector) (f : InFlight) :
    Except RecorderError Upload.Stats × Daemon × Collector :=
  if f.batch.isEmpty then (.ok .none, d, c)
  else
    match attempts f d.config.upload.maxAttempts d.config.upload.maxAttempts none d c with
    | (.ok n, d, c) =>
      (.ok ⟨f.batch.recordCount, f.batch.tallies.length, n⟩, d.completeDelivered f, c)
    | (.error e, d, c) => (.error (.upload e.message), d.completeFailed f, c)

def prepare (d : Daemon) (trigger : Trigger) : Except RecorderError InFlight × Daemon :=
  match d.beginUpload with
  | (.error e, d) => (.error e, d)
  | (.ok generation, d) => d.gather generation (d.uploadLimit trigger)

/-- One upload, uninterrupted. -/
def upload (d : Daemon) (c : Collector) (trigger : Trigger) :
    Except RecorderError Upload.Stats × Daemon × Collector :=
  match d.prepare trigger with
  | (.error e, d) => (.error e, d, c)
  | (.ok f, d) => d.deliver c f

end Daemon

end Telemetry
