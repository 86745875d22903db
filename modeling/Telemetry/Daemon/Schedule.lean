import Telemetry.Daemon.Uploading

namespace Telemetry.Daemon

open Upload

def uploadInterval (d : Daemon) : Nat :=
  d.config.uploadInterval.getD d.gate.state.environment.uploadInterval

/-- A scheduled upload that has some time, and how much of it was used; none if it was not enough
and the upload stopped in a pause, behind its last attempt. Success is noted, failure is not an
error. -/
def uploadWithin (time : Nat) (d : Daemon) (c : Collector) : Option Nat × Daemon × Collector :=
  match d.prepare .scheduled with
  | (.error _, d) => (some 0, d, c)
  | (.ok f, d) =>
    if f.batch.isEmpty then (some 0, { d with uploaded := true }, c)
    else
      let config := d.config.upload
      let allowed := config.attemptsWithin time
      match attempts f allowed allowed none d c with
      | (.ok n, d, c) =>
        (some (config.waited (n - 1)), { d.completeDelivered f with uploaded := true }, c)
      | (.error .revoked, d, c') =>
        (some (config.waited (c'.attempts - c.attempts)), d.completeFailed f, c')
      | (.error (.gaveUp ..), d, c) =>
        if allowed < config.maxAttempts then (none, d, c)
        else (some (config.waited (allowed - 1)), d.completeFailed f, c)

/-- How far the schedule has come, and when the next look and the next upload are due. -/
structure Agenda where
  now : Nat
  look : Nat
  upload : Nat
  deriving DecidableEq, Repr

/-- Takes up to so many items of the agenda, until `stop`. What is overdue is taken at once. -/
def follow (lookPeriod uploadPeriod stop : Nat) :
    Nat → Agenda → Daemon → Collector → Daemon × Collector
  | 0, _, d, c => (d, c)
  | items + 1, a, d, c =>
    let now := max a.now (min a.look a.upload)
    if stop < now then (d, c)
    else if a.look ≤ a.upload then
      let a := { a with now := now, look := a.look + lookPeriod }
      follow lookPeriod uploadPeriod stop items a d.checkRollover.2 c
    else
      match uploadWithin (stop - now) d c with
      | (none, d, c) => (d, c)
      | (some spent, d, c) =>
        let a := { a with now := now + spent, upload := a.upload + uploadPeriod }
        follow lookPeriod uploadPeriod stop items a d c

def outOfTime : Nat := Int64.maxValue.toNatClampNeg - (1 <<< 30)

/-- Runs the schedule for some seconds, and says whether it ended by itself, as it does where it is
switched off. With a period of zero, or one past all time, it fails before anything is done. -/
def runSchedule (d : Daemon) (c : Collector) (seconds : Nat) : Bool × Daemon × Collector :=
  let lookPeriod := d.config.rolloverInterval
  let uploadPeriod := d.uploadInterval
  let valid (period : Nat) : Bool := 0 < period ∧ period < outOfTime
  if !d.config.scheduled then (true, d, c)
  else if valid lookPeriod && valid uploadPeriod then
    let a : Agenda := ⟨0, 1000 * lookPeriod, 1000 * uploadPeriod⟩
    let items := seconds / lookPeriod + seconds / uploadPeriod
    (false, follow (1000 * lookPeriod) (1000 * uploadPeriod) (1000 * seconds) items a d c)
  else (false, d, c)

end Telemetry.Daemon
