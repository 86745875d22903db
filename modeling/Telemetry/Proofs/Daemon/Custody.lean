import Telemetry.Proofs.Daemon.Staleness
import Telemetry.Proofs.Event.Custody
import Telemetry.Proofs.Upload.Contents

namespace Telemetry

open Consent Event Protocol Upload

namespace Daemon

/-- The cache is there and in order, and no buffered record is too large. -/
structure Kept (d : Daemon) (t : CacheTable) : Prop where
  discreet : d.Discreet
  table : d.cache.table = some t
  sound : t.Sound
  small : d.buffer.Small

/-- Nothing recorded is moved, and nothing is revoked. -/
structure Still (d d' : Daemon) : Prop where
  buffer : d'.buffer = d.buffer
  cache : d'.cache = d.cache
  current : ∀ generation, d.gate.current generation = true → d'.gate.current generation = true

variable {d d' : Daemon} {t t' : CacheTable}

theorem Still.refl (d : Daemon) : Still d d := ⟨rfl, rfl, fun _ h => h⟩

theorem Kept.still (h : d.Kept t) (hs : Still d d') (hd : d'.Discreet) : d'.Kept t :=
  ⟨hd, hs.cache ▸ h.table, h.sound, hs.buffer ▸ h.small⟩

theorem Still.of_effect (he : Effect d d')
    (hkeep : d.gate.enabled = true → d'.gate.enabled = true) : Still d d' := by
  cases he with
  | quiet => exact ⟨rfl, rfl, fun _ h => h⟩
  | timed => exact ⟨rfl, rfl, fun _ h => h⟩
  | permitted => exact ⟨rfl, rfl, fun _ h => h⟩
  | turned enabled he =>
    cases enabled with
    | false =>
      have hon : d.gate.enabled = true := by simpa using he
      have hoff : (d.turn false).gate.enabled = false := by
        rw [gate_turn]
        rfl
      rw [hkeep hon] at hoff
      cases hoff
    | true =>
      have hsame : (d.turn true).buffer = d.buffer ∧ (d.turn true).cache = d.cache := by
        simp [turn]
      refine ⟨hsame.1, hsame.2, fun g hg => ?_⟩
      exact absurd (enabled_of_current hg).1 he

theorem Kept.rows (h : d.Kept t) : d.cache.rows = t.rows := Cache.rows_of_table h.table

theorem Kept.flush (h : d.Kept t)
    (hroom : d.buffer.records ≠ [] → t.size + totalCost d.buffer.records ≤ d.cache.limit) :
    ∃ t', d.flush.2.Kept t' ∧ t.Grows t' d.buffer.records ∧ d.flush.2.buffer.records = [] := by
  have hd := h.discreet.flush
  rw [Daemon.flush] at hd ⊢
  cases hon : d.gate.enabled with
  | false =>
    have hempty := (h.discreet.holdsNothing hon).records
    rw [hempty]
    simp only [Bool.false_eq_true, if_false]
    exact ⟨t, h, .refl t, hempty⟩
  | true =>
    obtain ⟨htaken, hleft⟩ := d.buffer.take_none
    obtain ⟨n, t', hstore, hgrows⟩ := Cache.exists_store h.table h.small hroom
    have hsmall := (Buffer.small_take h.small none).2
    simp only [hon, if_true, htaken, hstore] at hd ⊢
    exact ⟨t', ⟨hd, rfl, hgrows.sound h.sound, hsmall⟩, hgrows, hleft⟩

/-- What an upload carries: cached records that are still in the table, and the buffered part. -/
structure Aboard (d : Daemon) (t : CacheTable) (f : InFlight) : Prop where
  current : d.gate.current f.generation = true
  numbers : ∀ i ∈ f.cachedIds, i < t.nextId
  small : ∀ r ∈ f.buffered, r.cost ≤ maxRecordCost
  batch : f.batch.records.Perm (recordsOf (t.rows.filter (·.id ∈ f.cachedIds)) ++ f.buffered)

theorem Aboard.grows {f : InFlight} {saved : List Record} (h : Aboard d t f)
    (hcur : ∀ generation, d.gate.current generation = true → d'.gate.current generation = true)
    (hg : t.Grows t' saved) : Aboard d' t' f := by
  refine ⟨hcur _ h.current, fun i hi => Nat.lt_of_lt_of_le (h.numbers i hi) hg.le, h.small, ?_⟩
  rw [(hg.divide h.numbers).1]
  exact h.batch

theorem Kept.gather (h : d.Kept t) {rows : List Tally.Row} (hrows : d.closedRows = .ok rows)
    (generation : Nat) (limit : Option Nat) :
    (∃ e, d.gather generation limit = (.error e, d)) ∨
      ∃ f d' t', d.gather generation limit = (.ok f, d') ∧ d'.Kept t' ∧
        recordsOf t'.rows = recordsOf t.rows ∧
        f.buffered ++ d'.buffer.records = d.buffer.records ∧ Aboard d' t' f := by
  have hd := h.discreet.gather generation limit
  rw [Daemon.gather] at hd ⊢
  by_cases hcur : d.gate.current generation = true
  · obtain ⟨cached, t', hload, hsound, hsame, hnumbers, hcached⟩ :=
      Cache.exists_load h.table h.sound limit
    have hsmall := Buffer.small_take h.small (limit.map (· - sumOf Cached.cost cached))
    rw [if_pos hcur, hload] at hd ⊢
    dsimp only at hd ⊢
    rw [closedRows_of_taken, hrows] at hd ⊢
    refine .inr ⟨_, _, t', rfl, ⟨hd, rfl, hsound, hsmall.2⟩, hsame, Buffer.take_append _ _, hcur,
      hnumbers, hsmall.1, ?_⟩
    dsimp only
    rw [hcached]
    exact Batch.records_ofRecords _ _ _
  · rw [if_neg hcur]
    exact .inl ⟨_, rfl⟩

theorem Kept.completeDelivered (h : d.Kept t) {f : InFlight}
    (hcur : d.gate.current f.generation = true) :
    (d.completeDelivered f).Kept (t.delete f.cachedIds) ∧
      (d.completeDelivered f).buffer = d.buffer := by
  have hd := h.discreet.completeDelivered f
  obtain ⟨c, hremove, htable⟩ := Cache.exists_remove h.table f.cachedIds
  rw [Daemon.completeDelivered] at hd ⊢
  rw [if_pos hcur, hremove] at hd ⊢
  dsimp only at hd ⊢
  split at hd
  · exact ⟨⟨hd, htable, h.sound.delete _, h.small⟩, rfl⟩
  · exact ⟨⟨hd, htable, h.sound.delete _, h.small⟩, rfl⟩

theorem Kept.completeFailed (h : d.Kept t) {f : InFlight}
    (hcur : d.gate.current f.generation = true) (hsmall : ∀ r ∈ f.buffered, r.cost ≤ maxRecordCost)
    (hroom : f.buffered ≠ [] → t.size + totalCost f.buffered ≤ d.cache.limit) :
    ∃ t', (d.completeFailed f).Kept t' ∧ t.Grows t' f.buffered ∧
      (d.completeFailed f).buffer = d.buffer := by
  have hd := h.discreet.completeFailed f
  obtain ⟨n, t', hstore, hgrows⟩ := Cache.exists_store h.table hsmall hroom
  rw [Daemon.completeFailed] at hd ⊢
  rw [if_pos hcur, hstore] at hd ⊢
  exact ⟨t', ⟨hd, rfl, hgrows.sound h.sound, h.small⟩, hgrows, rfl⟩

theorem still_commitTimers (d : Daemon) : Still d d.commitTimers.2 := by
  rw [commitTimers]
  split
  · obtain ⟨tally, h⟩ := exists_tally_commitEnded d (d.timers.drain d.clock.boot d.clock.today).1
      (d.timers.drain d.clock.boot d.clock.today).2
    dsimp only
    rw [h]
    exact ⟨rfl, rfl, fun _ h => h⟩
  · exact .refl d

theorem Kept.shutdown (h : d.Kept t)
    (hroom : d.buffer.records ≠ [] → t.size + totalCost d.buffer.records ≤ d.cache.limit) :
    ∃ t', d.shutdown.Kept t' ∧ t.Grows t' d.buffer.records ∧ d.shutdown.buffer.records = [] := by
  have hs := still_commitTimers d
  have hk := h.still hs (h.discreet.effect (effect_commitTimers d))
  rw [← hs.buffer, ← hs.cache] at hroom
  obtain ⟨t', hk', hgrows, hempty⟩ := hk.flush hroom
  have hclose : Still d.commitTimers.2.flush.2 d.shutdown := ⟨rfl, rfl, fun _ h => h⟩
  refine ⟨t', hk'.still hclose h.discreet.shutdown, ?_, hempty⟩
  rw [← hs.buffer]
  exact hgrows

theorem enabled_shutdown (d : Daemon) : d.shutdown.gate.enabled = d.gate.enabled := by
  have hc : d.commitTimers.2.gate = d.gate := by
    rw [commitTimers]
    split
    · obtain ⟨tally, h⟩ := exists_tally_commitEnded d (d.timers.drain d.clock.boot d.clock.today).1
        (d.timers.drain d.clock.boot d.clock.today).2
      dsimp only
      rw [h]
    · rfl
  change d.commitTimers.2.flush.2.gate.enabled = _
  rw [(shifted_flush _).gate, hc]

theorem Kept.of_assemble {config : Daemon.Config} {disk : Disk} {clock : Clock}
    (ha : assemble config disk clock = .ok d) (hd : config.discards = true)
    (hdisk : (disk.cache.getD .empty).Sound) :
    d.buffer.records = [] ∧ ∃ t, d.Kept t ∧
      (t = disk.cache.getD .empty ∨ d.gate.enabled = false ∧ t.rows = []) := by
  have hdiscreet := Discreet.of_assemble ha hd
  rw [assemble] at ha
  split at ha
  · cases ha
  · simp only [Except.ok.injEq] at ha
    split at ha
    · next hoff =>
      rw [Bool.and_eq_true, Bool.not_eq_true'] at hoff
      subst ha
      have hempty := (disk.cache.getD .empty).sound_emptied
      exact ⟨rfl, _, ⟨hdiscreet, rfl, hempty, Buffer.small_empty _⟩, .inr ⟨hoff.2, rfl⟩⟩
    · subst ha
      exact ⟨rfl, _, ⟨hdiscreet, rfl, hdisk, Buffer.small_empty _⟩, .inl rfl⟩

theorem Kept.restart (h : d.Kept t) (hr : d.restart = .ok d')
    (hkeep : d.gate.enabled = true → d'.gate.enabled = true) :
    ∃ t', d'.Kept t' ∧ recordsOf t'.rows = recordsOf t.rows ∧ d'.buffer.records = [] := by
  have htable : d.disk.cache.getD .empty = t := by
    have hcache : d.disk.cache = some t := h.table
    rw [hcache]
    rfl
  have hsound : (d.disk.cache.getD .empty).Sound := htable ▸ h.sound
  obtain ⟨hbuffer, t', hk, ht' | ⟨hoff, hrows⟩⟩ := Kept.of_assemble hr h.discreet.discards hsound
  · exact ⟨t', hk, by rw [ht', htable], hbuffer⟩
  · have hoff' : d.gate.enabled = false := by
      cases hon : d.gate.enabled with
      | false => rfl
      | true =>
        rw [hkeep hon] at hoff
        cases hoff
    have hcached := (h.discreet.holdsNothing hoff').cached
    rw [h.rows] at hcached
    exact ⟨t', hk, by rw [hrows, hcached], hbuffer⟩

end Daemon

end Telemetry
