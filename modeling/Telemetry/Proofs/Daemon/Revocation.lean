import Telemetry.Proofs.Daemon.Invariant

namespace Telemetry

open Calendar Consent Event Protocol Timer Upload

/-- The rows of the counters; none if their table is gone. -/
def Tally.Store.rows (s : Tally.Store) : Tally.Table := s.table.getD []

/-- The rows of the pending events; none if their table is gone. -/
def Event.Cache.rows (c : Cache) : List CacheRow := (c.table.map CacheTable.rows).getD []

theorem Event.Cache.rows_of_table {c : Cache} {t : CacheTable} (h : c.table = some t) :
    c.rows = t.rows := by
  rw [rows, h]
  rfl

theorem Event.Cache.rows_of_lost {c : Cache} (h : c.table = none) : c.rows = [] := by
  rw [rows, h]
  rfl

namespace Daemon

structure HoldsNothing (d : Daemon) : Prop where
  timers : d.timers.count = 0
  handles : d.timers.handleCount = 0
  records : d.buffer.records = []
  bytes : d.buffer.bytes = 0
  counters : d.tally.rows = []
  cached : d.cache.rows = []

/-- A revocation discards, and nothing is there while metrics are disabled. -/
structure Discreet (d : Daemon) : Prop where
  discards : d.config.discards = true
  holdsNothing : d.gate.enabled = false → d.HoldsNothing

theorem rows_discardStored (d : Daemon) :
    d.discardStored.tally.rows = [] ∧ d.discardStored.cache.rows = [] := by
  have ht : (d.tally.clear.toOption.getD d.tally).rows = [] := by
    cases h : d.tally.table <;> simp [Tally.Store.clear, Tally.Store.rows, h, Except.toOption]
  have hc : (d.cache.clear.toOption.getD d.cache).rows = [] := by
    cases h : d.cache.table <;> simp [Cache.clear, Cache.rows, h, Except.toOption]
  exact ⟨ht, hc⟩

theorem holdsNothing_discard (d : Daemon) : d.discard.HoldsNothing := by
  obtain ⟨ht, hc⟩ := rows_discardStored { d with timers := d.timers.purge.2, buffer := d.buffer.clear }
  exact ⟨rfl, rfl, rfl, rfl, ht, hc⟩

theorem Discreet.of_assemble {config : Config} {disk : Disk} {clock : Clock} {d : Daemon}
    (h : assemble config disk clock = .ok d) (hd : config.discards = true) : d.Discreet := by
  rw [assemble] at h
  split at h
  · cases h
  · simp only [hd, Bool.true_and, Except.ok.injEq] at h
    split at h
    · subst h
      obtain ⟨ht, hc⟩ := rows_discardStored _
      exact ⟨hd, fun _ => ⟨rfl, rfl, rfl, rfl, ht, hc⟩⟩
    · next hon =>
      subst h
      refine ⟨hd, fun hoff => absurd hoff ?_⟩
      simpa using hon

theorem Discreet.turn {d : Daemon} (h : d.Discreet) (enabled : Bool) : (d.turn enabled).Discreet := by
  cases enabled with
  | true =>
    refine ⟨?_, fun hoff => ?_⟩
    · simp [Daemon.turn, h.discards]
    · simp [Daemon.turn, h.discards, Gate.announce, Gate.turn, Gate.enabled] at hoff
  | false =>
    have hn := holdsNothing_discard { d with gate := d.gate.turn false }
    have he : d.turn false =
        { ({ d with gate := d.gate.turn false } : Daemon).discard with
          gate := ({ d with gate := d.gate.turn false } : Daemon).discard.gate.announce } := by
      simp [Daemon.turn, h.discards]
    rw [he]
    exact ⟨h.discards, fun _ => ⟨hn.timers, hn.handles, hn.records, hn.bytes, hn.counters, hn.cached⟩⟩

theorem Discreet.of_enabled {d d' : Daemon} (h : d.Discreet) (hc : d'.config = d.config)
    (hon : d'.gate.enabled = true) : d'.Discreet :=
  ⟨by rw [hc]; exact h.discards, fun hoff => by rw [hon] at hoff; cases hoff⟩

theorem Discreet.effect {d d' : Daemon} (h : d.Discreet) (he : Effect d d') : d'.Discreet := by
  cases he with
  | quiet =>
    refine ⟨h.discards, fun hoff => ?_⟩
    have hn := h.holdsNothing hoff
    exact ⟨hn.timers, hn.handles, hn.records, hn.bytes, hn.counters, hn.cached⟩
  | timed timers tally lastDay ht =>
    refine ⟨h.discards, fun hoff => ?_⟩
    change d.gate.enabled = false at hoff
    have hn := h.holdsNothing hoff
    rcases ht with hon | ⟨hh, -⟩
    · rw [hoff] at hon
      cases hon
    · rw [hn.handles] at hh
      cases hh
  | permitted uploading outbox hon => exact h.of_enabled rfl hon
  | turned enabled => exact h.turn enabled

theorem Discreet.flush {d : Daemon} (h : d.Discreet) : d.flush.2.Discreet := by
  rw [Daemon.flush]
  split
  · next hon =>
    dsimp only
    split <;> exact h.of_enabled rfl hon
  · exact h

theorem enabled_of_current {g : Gate} {generation : Nat} (h : g.current generation = true) :
    g.enabled = true ∧ g.generation = generation := by
  simpa [Gate.current] using h

theorem Discreet.gather {d : Daemon} (h : d.Discreet) (generation : Nat) (limit : Option Nat) :
    (d.gather generation limit).2.Discreet := by
  rw [Daemon.gather]
  split
  · next hcur =>
    have hon := (enabled_of_current hcur).1
    split
    · exact h
    · dsimp only
      split <;> exact h.of_enabled rfl hon
  · exact h

theorem Discreet.completeDelivered {d : Daemon} (h : d.Discreet) (f : InFlight) :
    (d.completeDelivered f).Discreet := by
  rw [Daemon.completeDelivered]
  split
  · next hcur =>
    have hon := (enabled_of_current hcur).1
    split
    · exact h
    · dsimp only
      split <;> exact h.of_enabled rfl hon
  · exact h

theorem Discreet.completeFailed {d : Daemon} (h : d.Discreet) (f : InFlight) :
    (d.completeFailed f).Discreet := by
  rw [Daemon.completeFailed]
  split
  · next hcur =>
    have hon := (enabled_of_current hcur).1
    split
    · exact h
    · exact h.of_enabled rfl hon
  · exact h

theorem Discreet.restart {d d' : Daemon} (h : d.Discreet) (hr : d.restart = .ok d') : d'.Discreet :=
  .of_assemble hr h.discards

theorem invariant_discreet : Invariant Discreet where
  effect h he := h.effect he
  push h hon _ := h.of_enabled rfl hon
  flush h := h.flush
  gather h := h.gather
  completeDelivered h := h.completeDelivered
  completeFailed h := h.completeFailed
  restart h hr := h.restart hr
  loseTally := by
    intro d h
    refine ⟨h.discards, fun hoff => ?_⟩
    have hn := h.holdsNothing hoff
    exact ⟨hn.timers, hn.handles, hn.records, hn.bytes, rfl, hn.cached⟩
  loseCache := by
    intro d h
    refine ⟨h.discards, fun hoff => ?_⟩
    have hn := h.holdsNothing hoff
    exact ⟨hn.timers, hn.handles, hn.records, hn.bytes, hn.counters, rfl⟩

theorem Discreet.shutdown {d : Daemon} (h : d.Discreet) : d.shutdown.Discreet :=
  invariant_discreet.shutdown h

theorem Discreet.beginUpload {d : Daemon} (h : d.Discreet) : d.beginUpload.2.Discreet :=
  invariant_discreet.beginUpload h

end Daemon

namespace Site

open Daemon

theorem discreet_request {w : Site} (h : w.daemon.Discreet) (s : Session) (r : Request) :
    (w.request s r).daemon.Discreet := kept_request invariant_discreet h s r

theorem discreet_step (w : Site) (a : Act) (h : w.daemon.Discreet) :
    (w.step a).daemon.Discreet := kept_step invariant_discreet w a h

theorem discreet_run {w : Site} (h : w.daemon.Discreet) (acts : List Act) :
    (w.run acts).daemon.Discreet := kept_run invariant_discreet h acts

/-- Whatever an assembled daemon has been through, it holds nothing while metrics are disabled. -/
theorem holdsNothing_of_disabled {config : Daemon.Config} {disk : Disk} {clock : Clock} {d : Daemon}
    (ha : assemble config disk clock = .ok d) (hd : config.discards = true) (acts : List Act)
    (hoff : ((opened d).run acts).daemon.gate.enabled = false) :
    ((opened d).run acts).daemon.HoldsNothing :=
  (discreet_run (w := opened d) (Discreet.of_assemble ha hd) acts).holdsNothing hoff

def readyToGather : List Act :=
  [.request (.fresh ⟨0⟩ 0) (.setEnabled true), .request (.fresh ⟨0⟩ 0) (.setUploading true),
   .request (.fresh ⟨1⟩ 1000)
     (.recordSingular 1000 (List.replicate 16 1) 5 ⟨false, .bool false⟩),
   .check .requested]

def busyWhileSending : List Act :=
  readyToGather ++
    [.gather, .attempt, .request (.fresh ⟨1⟩ 1000)
      (.recordSingular 1000 (List.replicate 16 2) 5 ⟨true, .int32 7⟩), .flush,
     .request (.fresh ⟨1⟩ 1000) (.recordSingular 1000 (List.replicate 16 4) 6 ⟨false, .bool false⟩),
     .request (.fresh ⟨1⟩ 1000) (.startTimer 0 (List.replicate 16 3) ⟨false, .bool false⟩),
     .advance 5000000000, .setToday ⟨1970, 1, 2, by decide⟩, .rollover]

def revokedWhileSending : List Act :=
  busyWhileSending ++ [.request (.fresh ⟨0⟩ 0) (.setEnabled false)]

/-- The host holds something everywhere before the revocation, nothing right after it, and nothing
once the upload has ended and the daemon has been started again. -/
theorem holdsNothing_revokedWhileSending :
    ∃ d, assemble .standard .empty (.start .epoch) = .ok d ∧
      Daemon.Config.standard.discards = true ∧
      let before := ((opened d).run busyWhileSending).daemon
      let after := ((opened d).run revokedWhileSending).daemon
      let later := ((opened d).run (revokedWhileSending ++
        [.answer false, .complete, .shutdown, .restart])).daemon
      (before.gate.enabled = true ∧ before.timers.count = 1 ∧ before.timers.handleCount = 1 ∧
        before.buffer.records.length = 1 ∧ before.tally.rows.length = 2 ∧
        before.cache.rows.length = 1) ∧
        (after.gate.enabled = false ∧ after.HoldsNothing) ∧
        later.gate.enabled = false ∧ later.HoldsNothing := by
  have ha : assemble .standard .empty (.start .epoch) = .ok _ := rfl
  have hd : Daemon.Config.standard.discards = true := rfl
  refine ⟨_, ha, hd, by decide +kernel, ⟨by decide +kernel, ?_⟩, by decide +kernel, ?_⟩
  · exact holdsNothing_of_disabled ha hd revokedWhileSending (by decide +kernel)
  · exact holdsNothing_of_disabled ha hd _ (by decide +kernel)

end Site

end Telemetry
