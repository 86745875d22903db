import Telemetry.Proofs.Daemon.Accounting
import Telemetry.Proofs.Daemon.Custody

namespace Telemetry

open Calendar Consent Event Protocol Tally Timer Upload

namespace Event.Cache

variable {c c' : Cache}

theorem present_store {records : List Record} {n : Nat} (hc : c.table.isSome)
    (h : c.store records = .ok (n, c')) : c'.table.isSome := by
  rw [store] at h
  split at h
  · cases h
    exact hc
  · split at h
    · cases h
    · cases h
      rfl

theorem present_load {limit : Option Nat} {records : List Cached} (h : c.load limit = .ok (records, c')) :
    c'.table.isSome := by
  rw [load] at h
  split at h
  · cases h
  · cases h
    rfl

theorem exists_remove_of_present (hc : c.table.isSome) (ids : List Nat) :
    ∃ c', c.remove ids = .ok c' ∧ c'.table.isSome := by
  obtain ⟨t, ht⟩ := Option.isSome_iff_exists.1 hc
  obtain ⟨c', hremove, htable⟩ := exists_remove ht ids
  exact ⟨c', hremove, by rw [htable]; rfl⟩

end Event.Cache

namespace Daemon

/-- The counters gain increments; the cache stays, and nothing is revoked. -/
structure Adds (d d' : Daemon) (is : List Increment) : Prop where
  counted : ∀ t, d.tally.table = some t → d'.tally.table = some (t.commit is)
  cached : d.cache.table.isSome → d'.cache.table.isSome
  current : ∀ generation, d.gate.current generation = true → d'.gate.current generation = true

variable {d d' : Daemon} {is : List Increment}

theorem Adds.of_still (hs : Still d d') (ht : d'.tally = d.tally) : Adds d d' [] :=
  ⟨fun _ h => by rw [ht]; exact h, fun h => by rw [hs.cache]; exact h, hs.current⟩

theorem Adds.refl (d : Daemon) : Adds d d [] := .of_still (.refl d) rfl

theorem Adds.trans {d'' : Daemon} {js : List Increment} (h : Adds d d' is) (h' : Adds d' d'' js) :
    Adds d d'' (is ++ js) := by
  refine ⟨fun t ht => ?_, fun hc => h'.cached (h.cached hc), fun g hg => h'.current g (h.current g hg)⟩
  rw [Table.commit_append]
  exact h'.counted _ (h.counted t ht)

theorem adds_commit (d : Daemon) (is : List Increment) : Adds d (d.settled (d.commit is)).2 is := by
  have hs : Still d (d.settled (d.commit is)).2 := by
    cases hc : d.commit is with
    | ok e =>
      obtain ⟨tally, rfl⟩ := exists_tally_of_commit hc
      exact ⟨rfl, rfl, fun _ h => h⟩
    | error e => exact .refl d
  refine ⟨fun t ht => ?_, fun h => by rw [hs.cache]; exact h, hs.current⟩
  rw [commit_eq ht]
  rfl

theorem adds_commitEnded (d : Daemon) (is : List Increment) (timers : Registry) :
    Adds d (d.commitEnded is timers).2 is := by
  have ha := adds_commit { d with timers := timers } is
  have hsame : (d.commitEnded is timers).2 =
      (({ d with timers := timers } : Daemon).settled
        (({ d with timers := timers } : Daemon).commit is)).2 := by
    rw [commitEnded]
    cases ({ d with timers := timers } : Daemon).commit is <;> rfl
  rw [hsame]
  exact ⟨ha.counted, ha.cached, ha.current⟩

/-- What the timers yield that an act ends. -/
def yields (d : Daemon) : Act → List Increment
  | .request s (.stopTimer handle) =>
    ((d.timers.stop s.client handle d.clock.boot d.clock.today).bind Prod.fst).toList
  | .disconnect client => (d.timers.disconnect client d.clock.boot d.clock.today).1
  | .rollover =>
    if d.lastDay = d.clock.today then [] else (d.timers.split d.clock.boot d.lastDay).1
  | .shutdown => (d.timers.drain d.clock.boot d.clock.today).1
  | _ => []

/-- While metrics are disabled nothing is counted. -/
def counts (d : Daemon) (a : Act) : List Increment := if d.gate.enabled then d.yields a else []

theorem counts_eq_nil {a : Act} (h : d.yields a = []) : d.counts a = [] := by
  rw [counts, h, ite_self]

theorem adds_stopTimer (d : Daemon) (s : Session) (handle : TimerHandle) :
    Adds d (d.stopTimer s handle).2 (d.counts (.request s (.stopTimer handle))) := by
  rw [counts, yields, stopTimer, release]
  cases hs : d.timers.stop s.client handle d.clock.boot d.clock.today with
  | none =>
    have h := Adds.refl d
    cases d.gate.enabled <;> exact h
  | some p =>
    obtain ⟨i, timers⟩ := p
    have hreleased : Adds d { d with timers := timers } [] := .of_still ⟨rfl, rfl, fun _ h => h⟩ rfl
    cases i with
    | none => cases d.gate.enabled <;> exact hreleased
    | some i =>
      dsimp only
      rw [commitSince, since, Gate.current]
      cases d.gate.enabled with
      | false => exact hreleased
      | true =>
        simp only [Bool.true_and, beq_self_eq_true, if_true]
        exact hreleased.trans (adds_commit { d with timers := timers } [i])

theorem adds_disconnect (d : Daemon) (client : ClientId) :
    Adds d (d.disconnect client) (d.counts (.disconnect client)) := by
  rw [counts, disconnect]
  split
  · exact adds_commitEnded d _ _
  · exact .refl d

theorem adds_commitTimers (d : Daemon) : Adds d d.commitTimers.2 (d.counts .shutdown) := by
  rw [counts, commitTimers]
  split
  · exact adds_commitEnded d _ _
  · exact .refl d

theorem adds_checkRollover (d : Daemon) : Adds d d.checkRollover.2 (d.counts .rollover) := by
  rw [counts, yields, checkRollover, splitTimers]
  split
  · split <;> exact .refl d
  · have hlooked : Adds d { d with lastDay := d.clock.today } [] :=
      .of_still ⟨rfl, rfl, fun _ h => h⟩ rfl
    dsimp only
    split
    · exact hlooked.trans (adds_commitEnded { d with lastDay := d.clock.today } _ _)
    · exact hlooked

theorem adds_flush (d : Daemon) : Adds d d.flush.2 [] := by
  have htally := tally_flush d
  have hgate := (shifted_flush d).gate
  refine ⟨fun t ht => by rw [htally]; exact ht, fun hc => ?_, fun g hg => by rw [hgate]; exact hg⟩
  rw [flush]
  split
  · dsimp only
    split
    · next hstore => exact Cache.present_store hc hstore
    · exact hc
  · exact hc

theorem adds_shutdown (d : Daemon) : Adds d d.shutdown (d.counts .shutdown) := by
  have hclosed : Adds d.commitTimers.2.flush.2 d.shutdown [] :=
    .of_still ⟨rfl, rfl, fun _ h => h⟩ rfl
  have hall := ((adds_commitTimers d).trans (adds_flush _)).trans hclosed
  rw [List.append_nil, List.append_nil] at hall
  exact hall

theorem adds_beginUpload (d : Daemon) : Adds d d.beginUpload.2 [] := by
  obtain ⟨_, h⟩ | ⟨-, _, h⟩ | ⟨_, h⟩ := d.beginUpload_cases
  · rw [h]
    exact .refl d
  · rw [h]
    exact adds_flush d
  · rw [h]
    exact .refl d

theorem adds_gather (d : Daemon) (generation : Nat) (limit : Option Nat) :
    Adds d (d.gather generation limit).2 [] := by
  rw [gather]
  split
  · split
    · exact .refl d
    · next hload =>
      have hc := Cache.present_load hload
      dsimp only
      split <;> exact ⟨fun _ h => h, fun _ => hc, fun _ h => h⟩
  · exact .refl d

theorem adds_completeFailed (d : Daemon) (f : InFlight) : Adds d (d.completeFailed f) [] := by
  rw [completeFailed]
  split
  · split
    · exact .refl d
    · next hstore => exact ⟨fun _ h => h, fun hc => Cache.present_store hc hstore, fun _ h => h⟩
  · exact .refl d

theorem tally_setEnabled (d : Daemon) (user : UInt32) (enabled : Bool)
    (hkeep : d.gate.enabled = true →
      (d.settled (d.setEnabled user enabled)).2.gate.enabled = true) :
    (d.settled (d.setEnabled user enabled)).2.tally = d.tally := by
  obtain h | ⟨hne, h⟩ := settled_setEnabled d user enabled
  · rw [h]
  · rw [h] at hkeep ⊢
    cases enabled with
    | true => simp [turn]
    | false =>
      have hoff : (d.turn false).gate.enabled = false := by
        rw [gate_turn]
        rfl
      rw [hkeep (by simpa using hne)] at hoff
      cases hoff

theorem tally_setUploading (d : Daemon) (user : UInt32) (uploading : Bool) :
    (d.settled (d.setUploading user uploading)).2.tally = d.tally := by
  obtain h | ⟨-, -, h⟩ := settled_setUploading d user uploading
  · rw [h]
  · rw [h]

theorem counts_request (d : Daemon) (s : Session) {r : Request} (hr : ∀ handle, r ≠ .stopTimer handle) :
    d.counts (.request s r) = [] := by
  apply counts_eq_nil
  cases r with
  | stopTimer handle => exact absurd rfl (hr handle)
  | _ => rfl

theorem adds_dispatch (d : Daemon) (c : Collector) (s : Session) {r : Request}
    (hr : r ≠ .uploadEvents)
    (hkeep : d.gate.enabled = true →
      ((⟨d, c⟩ : Host).dispatch s r).2.2.daemon.gate.enabled = true) :
    Adds d ((⟨d, c⟩ : Host).dispatch s r).2.2.daemon (d.counts (.request s r)) := by
  have hserved := served_dispatch d c s hr
  generalize ((⟨d, c⟩ : Host).dispatch s r).2.2.daemon = d' at hkeep hserved ⊢
  cases hserved with
  | recorded hr =>
    rw [counts_request d s hr]
    exact ⟨fun _ h => h, fun h => h, fun _ h => h⟩
  | started hr =>
    rw [counts_request d s hr]
    exact .of_still ⟨rfl, rfl, fun _ h => h⟩ rfl
  | stopped handle => exact adds_stopTimer d s handle
  | turned enabled =>
    rw [counts_eq_nil rfl]
    exact .of_still (.of_effect (effect_setEnabled d s.user enabled) hkeep)
      (tally_setEnabled d s.user enabled hkeep)
  | permitted uploading =>
    rw [counts_eq_nil rfl]
    exact .of_still (.of_effect (effect_setUploading d s.user uploading) hkeep)
      (tally_setUploading d s.user uploading)
  | unchanged hr =>
    rw [counts_request d s hr]
    exact .refl d

theorem tables_of_assemble {config : Daemon.Config} {disk : Disk} {clock : Clock}
    (ha : assemble config disk clock = .ok d) :
    d.cache.table.isSome ∧ (d.tally.table = some (disk.tally.getD []) ∨
      d.gate.enabled = false ∧ d.tally.table = some []) := by
  rw [assemble] at ha
  split at ha
  · cases ha
  · simp only [Except.ok.injEq] at ha
    split at ha
    · next hoff =>
      rw [Bool.and_eq_true, Bool.not_eq_true'] at hoff
      subst ha
      exact ⟨rfl, .inr ⟨hoff.2, rfl⟩⟩
    · subst ha
      exact ⟨rfl, .inl rfl⟩

theorem tables_of_restart (h : d.Discreet) {t : Table} (ht : d.tally.table = some t)
    (hr : d.restart = .ok d') (hkeep : d.gate.enabled = true → d'.gate.enabled = true) :
    d'.cache.table.isSome ∧ d'.tally.table = some t := by
  have hdisk : d.disk.tally.getD [] = t := by
    have htally : d.disk.tally = some t := ht
    rw [htally]
    rfl
  obtain ⟨hc, ht' | ⟨hoff, hempty⟩⟩ := tables_of_assemble hr
  · exact ⟨hc, by rw [ht', hdisk]⟩
  · have hoff' : d.gate.enabled = false := by
      cases hon : d.gate.enabled with
      | false => rfl
      | true =>
        rw [hkeep hon] at hoff
        cases hoff
    have hrows : d.tally.rows = [] := (h.holdsNothing hoff').counters
    rw [Store.rows, ht, Option.getD_some] at hrows
    exact ⟨hc, by rw [hempty, hrows]⟩

end Daemon

end Telemetry
