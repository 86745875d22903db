import Telemetry.Proofs.Daemon.Accounting
import Telemetry.Proofs.Daemon.Departure
import Telemetry.Proofs.Tally.Contents

namespace Telemetry

open Calendar Consent Event Tally Timer Upload

namespace Tally.Table

/-- The second table has the rows of the first in their places, counts what is given on top of them,
and has new rows under new keys alone. -/
structure Accumulates (t t' : Table) (is : List Increment) : Prop where
  rows : ∃ new, t'.map (fun s => (s.id, s.key)) = t.map (fun s => (s.id, s.key)) ++ new ∧
    ∀ r ∈ new, r.2 ∉ t.map Stored.key
  gains : ∀ key, t.Gains t' key (counted is key)

theorem accumulates_commit (t : Table) (is : List Increment) : t.Accumulates (t.commit is) is :=
  ⟨t.rows_commit is, fun key => t.gains_commit is key⟩

end Tally.Table

namespace Daemon

variable {d : Daemon} {t : Tally.Table} {c : CacheTable}

theorem shutdown_eq (hon : d.gate.enabled = true) (ht : d.tally.table = some t)
    (hc : d.cache.table = some c) :
    d.shutdown = { d with
      timers := d.timers.cleared
      tally := { d.tally with
        table := some (t.commit (d.timers.increments d.clock.boot d.clock.today)) }
      buffer := (d.buffer.take none).2
      cache := { d.cache with table := some (c.saved d.cache.limit d.buffer.records) }
      gate := { d.gate with outbox := ⟨[], false⟩ }
      consentFile := d.gate.outbox.waiting.foldl Outbox.write d.consentFile } := by
  have hcommit : d.commitTimers.2 = { d with
      timers := d.timers.cleared
      tally := { d.tally with
        table := some (t.commit (d.timers.increments d.clock.boot d.clock.today)) } } := by
    rw [commitTimers, if_pos hon]
    change (d.commitEnded (d.timers.increments d.clock.boot d.clock.today) d.timers.cleared).2 = _
    rw [snd_commitEnded, Store.commit_eq ht]
    rfl
  have htaken := d.buffer.take_none.1
  have hstore := Cache.store_eq hc (d.buffer.take none).1
  rw [shutdown, hcommit, flush]
  dsimp only
  rw [if_pos hon, hstore, htaken]
  rfl

theorem shutdown_of_idle (hon : d.gate.enabled = true) (ht : d.tally.table = some t)
    (hc : d.cache.table = some c) (htimers : d.timers.cleared = d.timers)
    (hbuffer : d.buffer.clear = d.buffer) (houtbox : d.gate.outbox = ⟨[], false⟩) :
    d.shutdown = d := by
  have hincrements : d.timers.increments d.clock.boot d.clock.today = [] := by
    rw [← htimers]
    rfl
  have hrecords : d.buffer.records = [] := by
    rw [← hbuffer]
    rfl
  have htaken : (d.buffer.take none).2 = d.buffer := by
    rw [← hbuffer]
    rfl
  have htally : ({ d.tally with table := some (t.commit []) } : Tally.Store) = d.tally := by
    rw [Table.commit, List.foldl_nil, ← ht]
  have hcache : ({ d.cache with table := some (c.saved d.cache.limit []) } : Cache) = d.cache := by
    change ({ d.cache with table := some c } : Cache) = d.cache
    rw [← hc]
  have hgate : ({ d.gate with outbox := ⟨[], false⟩ } : Gate) = d.gate := by rw [← houtbox]
  have hfile : d.gate.outbox.waiting.foldl Outbox.write d.consentFile = d.consentFile := by
    rw [houtbox]
    rfl
  rw [shutdown_eq hon ht hc, hincrements, hrecords, htaken, htally, hcache, hgate, hfile, htimers]

/-- The daemon `d'` is what the daemon `d`, with the tables `t` and `c`, leaves behind. -/
structure ShutsDown (d : Daemon) (t : Tally.Table) (c : CacheTable) (d' : Daemon) : Prop where
  once : d.timers.timers.keys.Nodup
  counted : ∃ is t', is.Perm (d.timers.timers.entries.map fun e =>
      e.2.increment e.1 d.clock.boot d.clock.today) ∧
    d.tally.commit is = .ok d'.tally ∧ d'.tally.table = some t' ∧ t.Accumulates t' is
  running : d'.timers.count = 0
  handles : d'.timers.handleCount = 0
  records : d'.buffer.records = []
  bytes : d'.buffer.bytes = 0
  cached : ∃ c' new kept, d'.cache.table = some c' ∧ c'.rows = c.rows ++ new ∧
    new.map CacheRow.record? = kept.map some ∧ Fills d.cache.limit c.size d.buffer.records kept
  again : d'.shutdown = d'

theorem shutsDown_shutdown (hon : d.gate.enabled = true) (ht : d.tally.table = some t)
    (hc : d.cache.table = some c) (hkeys : d.timers.timers.keys.Nodup) (hb : d.buffer.Sound) :
    d.ShutsDown t c d.shutdown := by
  have hs := shutdown_eq hon ht hc
  have hempty : d.shutdown.buffer = d.buffer.clear := by rw [hs, hb.take_none]
  have hfills := fills_fitting d.cache.limit c.size d.buffer.records
  have hsmall : ∀ r ∈ fitting (some d.cache.limit) c.size d.buffer.records,
      r.cost ≤ maxRecordCost := fun r hr => hb.small r (hfills.front.subset hr)
  obtain ⟨new, hrows, hnew⟩ := c.rows_insertAll hsmall
  refine ⟨hkeys, ?_, ?_, ?_, ?_, ?_, ?_, ?_⟩
  · refine ⟨d.timers.increments d.clock.boot d.clock.today, _, .refl _, ?_, ?_,
      t.accumulates_commit _⟩
    · rw [hs]
      exact Store.commit_eq ht _
    · rw [hs]
  · rw [hs]
    rfl
  · rw [hs]
    rfl
  · rw [hempty]
    rfl
  · rw [hempty]
    rfl
  · refine ⟨_, new, _, ?_, hrows, hnew, hfills⟩
    rw [hs]
    rfl
  · refine shutdown_of_idle (d := d.shutdown) (by rw [hs]; exact hon) (by rw [hs]) (by rw [hs]) ?_ ?_ ?_
    · rw [hs]
      rfl
    · rw [hempty]
      rfl
    · rw [hs]

/-- The daemon `d'` begins with the stores and the count of batches that `d` has, and with nothing
under way. What is counted from then on goes on in the same rows. -/
structure Resumes (d d' : Daemon) : Prop where
  tally : d'.tally.table = d.tally.table
  cache : d'.cache.table = d.cache.table
  sendFile : d'.sendFile = d.sendFile
  timers : d'.timers = .empty
  records : d'.buffer.records = []
  counts : ∀ t, d.tally.table = some t → ∀ commits, ∃ t',
    d'.tally.commitAll commits = .ok { d'.tally with table := some t' } ∧
      t.Accumulates t' commits.flatten

theorem exists_resumes (ht : d.tally.table = some t) (hc : d.cache.table = some c) (config : Config)
    (clock : Clock) :
    ∃ d', assemble config d.disk clock = .ok d' ∧ (d'.gate.enabled = true → d.Resumes d') := by
  refine ⟨_, rfl, fun hon => ?_⟩
  split at hon
  · next hoff =>
    rw [Bool.and_eq_true, Bool.not_eq_true'] at hoff
    have habsurd : false = true := hoff.2.symm.trans hon
    cases habsurd
  · next hoff =>
    rw [if_neg hoff]
    have htally : some (d.tally.table.getD []) = d.tally.table := by
      rw [ht]
      rfl
    have hcache : some (d.cache.table.getD .empty) = d.cache.table := by
      rw [hc]
      rfl
    refine ⟨htally, hcache, rfl, rfl, rfl, fun t' ht' commits => ?_⟩
    have hopened : Tally.Store.opened d.tally.table = ⟨some t', false⟩ := by
      rw [ht']
      rfl
    refine ⟨t'.commit commits.flatten, ?_, t'.accumulates_commit _⟩
    change (Tally.Store.opened d.tally.table).commitAll commits = _
    rw [hopened]
    exact Tally.Store.commitAll_eq false t' commits

end Daemon

namespace Site

open Daemon

/-- Whatever an assembled daemon has been through: if its tables are there, a shutdown counts each
running timer once and all in one commit, and moves to the cache as many of the buffered records as
it has room for, in order. A second shutdown does nothing more. The next daemon on the disk has just
that, while metrics are enabled, and counts on in the same rows. -/
theorem shutdown_resumes {config : Daemon.Config} {disk : Disk} {clock : Clock} {d : Daemon}
    (ha : assemble config disk clock = .ok d) (hd : config.discards = true) (acts : List Act)
    (hon : ((opened d).run acts).daemon.gate.enabled = true) {t : Tally.Table} {c : CacheTable}
    (ht : ((opened d).run acts).daemon.tally.table = some t)
    (hc : ((opened d).run acts).daemon.cache.table = some c) :
    let before := ((opened d).run acts).daemon
    before.ShutsDown t c before.shutdown ∧
      ∀ config' clock', ∃ d', assemble config' before.shutdown.disk clock' = .ok d' ∧
        (d'.gate.enabled = true → before.shutdown.Resumes d') := by
  intro before
  have hkeys : before.timers.timers.keys.Nodup := (tidy_run ha hd acts).rostered.keys
  have hdown := shutsDown_shutdown hon ht hc hkeys (sound_buffer_run ha acts)
  obtain ⟨-, _, -, -, htally, -⟩ := hdown.counted
  obtain ⟨_, -, -, hcache, -⟩ := hdown.cached
  exact ⟨hdown, exists_resumes htally hcache⟩

def narrow : Daemon.Config := { Daemon.Config.standard with maxCached := 100 }

def crowded : List Act :=
  let client : Session := .fresh ⟨1⟩ 1000
  let event (n : UInt8) : Codec.Bytes := List.replicate 16 n
  let bare : Protocol.Carried := ⟨false, .bool false⟩
  [.request (.fresh ⟨0⟩ 0) (.setEnabled true),
   .request client (.recordSingular 1000 (event 1) 5 bare), .flush,
   .request client (.startTimer 0 (event 7) bare), .advance 5000000000,
   .request client (.startTimer 0 (event 7) bare), .setToday firstOfJuly, .rollover,
   .request (.fresh ⟨2⟩ 1001) (.startTimer 0 (event 7) bare), .advance 2000000000,
   .request client (.recordSingular 1000 (event 2) 5 bare),
   .request client (.recordSingular 1000 (event 3) 5 bare)]

theorem shutdown_resumes_crowded :
    ∃ d t c, assemble narrow .empty (.start ⟨2024, 6, 30, by decide⟩) = .ok d ∧
      narrow.discards = true ∧
      let before := ((opened d).run crowded).daemon
      before.gate.enabled = true ∧ before.tally.table = some t ∧ before.cache.table = some c ∧
        before.timers.count = 2 ∧ before.timers.handleCount = 3 ∧
        before.buffer.records.length = 2 ∧ c.rows.length = 1 ∧
        before.ShutsDown t c before.shutdown ∧
        before.shutdown.cache.count = .ok 2 ∧ before.shutdown.tally.count = .ok 6 ∧
        ∃ d', assemble narrow before.shutdown.disk (.start ⟨2024, 7, 2, by decide⟩) = .ok d' ∧
          d'.gate.enabled = true ∧ before.shutdown.Resumes d' := by
  have ha : assemble narrow .empty (.start ⟨2024, 6, 30, by decide⟩) = .ok _ := rfl
  obtain ⟨hdown, hresumes⟩ := shutdown_resumes ha rfl crowded (by decide) rfl rfl
  refine ⟨_, _, _, ha, rfl, by decide, rfl, rfl, by decide, by decide, by decide, by decide, hdown,
    by decide +kernel, by decide +kernel, ?_⟩
  obtain ⟨d', hd', hnext⟩ := hresumes narrow (.start ⟨2024, 7, 2, by decide⟩)
  have hon : d'.gate.enabled = true := by
    have h := congrArg (fun r => r.toOption.map (·.gate.enabled)) hd'
    exact Option.some.inj (h.symm.trans (by decide +kernel))
  exact ⟨d', hd', hon, hnext hon⟩

end Site

end Telemetry
