import Telemetry.Consent.Gate
import Telemetry.Event.Cache
import Telemetry.Tally.Store
import Telemetry.Timer.Registry
import Telemetry.Upload.Retry
import Telemetry.Upload.SendCounter

namespace Telemetry

open Consent Event Timer

namespace Daemon

structure Paths where
  cacheDirectory : String
  consentFile : String
  socket : String
  machineIdentity : String
  deriving DecidableEq, Repr

def Paths.standard : Paths :=
  ⟨"/var/cache/event-recorder", "/etc/event-recorder/permissions.conf",
   "/run/event-recorder/recorder.sock", "/etc/machine-id"⟩

def tallyFileName : String := "aggregate-events.db"

def cacheFileName : String := "pending-events.db"

def sendFileName : String := "network_send_file"

structure Config where
  paths : Paths
  serverUrl : Option String
  uploadInterval : Option Nat
  rolloverInterval : Nat
  maxBuffered : Nat
  maxCached : Nat
  authority : Authority
  httpTimeout : Nat
  upload : Upload.Config
  scheduled : Bool
  /-- Whether a revocation discards what was recorded. Only parts wired by hand go without. -/
  discards : Bool
  deriving DecidableEq, Repr

def Config.standard : Config :=
  { paths := .standard
    serverUrl := none
    uploadInterval := none
    rolloverInterval := 60
    maxBuffered := defaultMaxBuffered
    maxCached := defaultMaxCached
    authority := .root
    httpTimeout := 30
    upload := .standard
    scheduled := true
    discards := true }

/-- What outlives the daemon. A table that is gone is `none`. -/
structure Disk where
  blocked : Bool
  consent : Entry
  machine : Entry
  sendCount : Entry
  tally : Option Tally.Table
  cache : Option CacheTable
  deriving DecidableEq, Repr

def Disk.empty : Disk := ⟨false, .missing, .missing, .missing, none, none⟩

end Daemon

structure Daemon where
  config : Daemon.Config
  clock : Clock
  gate : Gate
  timers : Registry
  tally : Tally.Store
  cache : Cache
  buffer : Buffer
  consentFile : Entry
  machineFile : Entry
  sendFile : Entry
  machine : Uuid
  lastDay : Calendar.Date
  uploaded : Bool
  deriving DecidableEq, Repr

namespace Daemon

def discardStored (d : Daemon) : Daemon :=
  { d with
    tally := d.tally.clear.toOption.getD d.tally
    cache := d.cache.clear.toOption.getD d.cache }

/-- Discards everything recorded: timers, buffered events, and the stores. -/
def discard (d : Daemon) : Daemon :=
  discardStored { d with timers := d.timers.purge.2, buffer := d.buffer.clear }

/-- Puts a daemon together on a disk. What was recorded before is discarded if consent is off. -/
def assemble (config : Config) (disk : Disk) (clock : Clock) : Except StorageError Daemon :=
  if disk.blocked then .error .createCacheDirectory
  else
    let d : Daemon :=
      { config := config
        clock := clock
        gate := .opened (.load disk.consent) config.authority
        timers := .empty
        tally := .opened disk.tally
        cache := .opened config.maxCached disk.cache
        buffer := .empty config.maxBuffered
        consentFile := disk.consent
        machineFile := disk.machine
        sendFile := disk.sendCount
        machine := Upload.machineIdentity disk.machine
        lastDay := clock.today
        uploaded := false }
    .ok (if config.discards && !d.gate.enabled then d.discardStored else d)

def flushOutbox (d : Daemon) : Daemon :=
  let (outbox, file) := d.gate.outbox.flush d.consentFile
  { d with gate := { d.gate with outbox := outbox }, consentFile := file }

def closeOutbox (d : Daemon) : Daemon :=
  let (outbox, file) := d.gate.outbox.close d.consentFile
  { d with gate := { d.gate with outbox := outbox }, consentFile := file }

def disk (d : Daemon) : Disk :=
  let d := d.closeOutbox
  { blocked := false
    consent := d.consentFile
    machine := d.machineFile
    sendCount := d.sendFile
    tally := d.tally.table
    cache := d.cache.table }

/-- Drops the daemon and puts it together again on its disk. -/
def restart (d : Daemon) : Except StorageError Daemon := assemble d.config d.disk d.clock

structure Stats where
  enabled : Bool
  uploading : Bool
  runningTimers : Nat
  bufferedEvents : Nat
  bufferedBytes : Nat
  cachedEvents : Nat
  tallyRows : Nat
  deriving DecidableEq, Repr

def stats (d : Daemon) : Stats :=
  { enabled := d.gate.enabled
    uploading := d.gate.uploadAllowed
    runningTimers := d.timers.count
    bufferedEvents := d.buffer.records.length
    bufferedBytes := d.buffer.bytes
    cachedEvents := d.cache.count.toOption.getD 0
    tallyRows := d.tally.count.toOption.getD 0 }

/-- What happens at a change of `enabled`, in one piece: the flags change, a revocation discards
what was recorded, and the new state goes to the consent file. -/
def turn (d : Daemon) (enabled : Bool) : Daemon :=
  let d := { d with gate := d.gate.turn enabled }
  let d := if d.config.discards && !enabled then d.discard else d
  { d with gate := d.gate.announce }

def setEnabled (d : Daemon) (user : UInt32) (enabled : Bool) : Except RecorderError Daemon := do
  d.gate.authorize user .setEnabled
  return if d.gate.enabled = enabled then d else d.turn enabled

def setUploading (d : Daemon) (user : UInt32) (uploading : Bool) :
    Except RecorderError Daemon := do
  let gate ← d.gate.setUploading user uploading
  return { d with gate := gate }

def advance (d : Daemon) (nanoseconds : Nat) : Daemon :=
  { d with clock := d.clock.advance nanoseconds }

def setToday (d : Daemon) (date : Calendar.Date) : Daemon :=
  { d with clock := d.clock.setToday date }

def whileEnabled {α : Type} (d : Daemon) (work : Except RecorderError α) :
    Except RecorderError α :=
  if d.gate.enabled then work else .error .disabled

def since {α : Type} (d : Daemon) (generation : Nat) (work : Except RecorderError α) :
    Except RecorderError α :=
  if d.gate.current generation then work else .error .disabled

end Daemon

end Telemetry
