import Telemetry.Proofs.Daemon.Accounting
import Telemetry.Proofs.Daemon.Faults
import Telemetry.Proofs.Tally.Contents

namespace Telemetry

open Calendar Tally Timer

namespace Timer.Book

def closing (b : Book) : List Interval :=
  if b.seen = b.today then [] else b.running.map (·.interval b.now b.seen)

def missed (b : Book) : Book := { b.rollover with closed := b.closed }

theorem rollover_eq (b : Book) :
    b.rollover = { b.missed with closed := b.closed ++ b.closing } := by
  rw [missed, closing, rollover]
  split
  · rw [List.append_nil]
  · rfl

theorem release_closed (b : Book) (p : Logical → TimerHandle → Bool) :
    ∃ new, ∀ closed, ({ b with closed := closed } : Book).release p =
      { b.release p with closed := closed ++ new } :=
  ⟨(b.running.filter (Logical.ends p)).map (·.interval b.now b.today), fun _ => rfl⟩

theorem perform_closed (b : Book) (c : Daemon.Call) :
    ∃ new, ∀ closed, ({ b with closed := closed } : Book).perform c =
      { b.perform c with closed := closed ++ new } := by
  cases c with
  | start s flags event payload =>
    refine ⟨[], fun closed => ?_⟩
    rw [List.append_nil, perform, perform]
    dsimp only
    split <;> rfl
  | stop s handle => exact b.release_closed _
  | disconnect client => exact b.release_closed _
  | advance nanoseconds => exact ⟨[], fun closed => by rw [List.append_nil]; rfl⟩
  | setToday date => exact ⟨[], fun closed => by rw [List.append_nil]; rfl⟩
  | rollover =>
    by_cases hday : b.seen = b.today
    · refine ⟨[], fun closed => ?_⟩
      rw [List.append_nil, perform, perform, rollover, rollover]
      rw [if_pos hday, if_pos hday]
    · refine ⟨b.running.map (·.interval b.now b.seen), fun closed => ?_⟩
      rw [perform, perform, rollover, rollover]
      rw [if_neg hday, if_neg hday]

theorem closed_run (b : Book) (calls : List Daemon.Call) :
    ∃ new, ∀ closed, (calls.foldl perform { b with closed := closed }).shutdown.closed =
      closed ++ new := by
  induction calls generalizing b with
  | nil =>
    obtain ⟨new, hnew⟩ := b.release_closed fun _ _ => true
    exact ⟨new, fun closed => congrArg Book.closed (hnew closed)⟩
  | cons c calls ih =>
    obtain ⟨first, hfirst⟩ := b.perform_closed c
    obtain ⟨rest, hrest⟩ := ih (b.perform c)
    refine ⟨first ++ rest, fun closed => ?_⟩
    rw [List.foldl_cons, hfirst, hrest, List.append_assoc]

theorem missed_run (b : Book) (calls : List Daemon.Call) :
    ((calls.foldl perform b.missed).shutdown.closed ++ b.closing).Perm
      (calls.foldl perform b.rollover).shutdown.closed := by
  obtain ⟨new, hnew⟩ := b.missed.closed_run calls
  have hmissed : (calls.foldl perform b.missed).shutdown.closed = b.closed ++ new := hnew b.closed
  have hrollover := hnew (b.closed ++ b.closing)
  rw [← rollover_eq] at hrollover
  rw [hmissed, hrollover, List.append_assoc, List.append_assoc]
  exact List.perm_append_comm.append_left _

theorem bounds_run (b : Book) (calls : List Daemon.Call) :
    (calls.foldl perform b).now = b.now + sumOf Daemon.Call.elapsed calls ∧
      (calls.foldl perform b).given ≤ b.given + sumOf Daemon.Call.starts calls := by
  induction calls generalizing b with
  | nil => exact ⟨(Int.add_zero _).symm, Nat.le_refl _⟩
  | cons c calls ih =>
    obtain ⟨hnow, hgiven⟩ := Daemon.bounds_perform b c
    obtain ⟨hnow', hgiven'⟩ := ih (b.perform c)
    rw [sumOf_cons, sumOf_cons, List.foldl_cons]
    omega

end Timer.Book

namespace Daemon

variable {d d' : Daemon} {t : Table} {b : Book}

/-- Everything goes on as before, but that the clocks of all timers begin anew: nothing of their time
is left to be counted. -/
structure Restarts (d d' : Daemon) : Prop where
  rest : d' = { d with timers := d'.timers }
  handles : d'.timers.handles = d.timers.handles
  timers : ∀ k, d'.timers.timers.get? k =
    (d.timers.timers.get? k).map fun r => { r with started := d.clock.boot }
  spent : ∀ k r day, d'.timers.timers.get? k = some r → (r.increment k d'.clock.boot day).amount = 0

theorem restarts_split (d : Daemon) (day : Date) :
    Restarts d { d with timers := (d.timers.split d.clock.boot day).2 } := by
  have hget := Registry.get?_split d.timers d.clock.boot day
  refine ⟨rfl, rfl, hget, fun k r day' hr => ?_⟩
  rw [hget] at hr
  obtain ⟨r', -, rfl⟩ := Option.map_eq_some_iff.1 hr
  change seconds d.clock.boot d.clock.boot = 0
  rw [seconds, Int64.sub_self]
  rfl

theorem split_fault (hon : d.gate.enabled = true) (day : Date) :
    (Faulted (d.splitTimers day).1 ↔ d.timers.count ≠ 0 ∧ d.tally.table = none) ∧
      (Faulted (d.splitTimers day).1 → Restarts d (d.splitTimers day).2) := by
  have hcount : d.timers.increments d.clock.boot day ≠ [] ↔ d.timers.count ≠ 0 := by
    rw [Registry.increments, ne_eq, List.map_eq_nil_iff, ← List.length_eq_zero_iff]
    rfl
  have hiff := d.tally.commit_eq_error_iff (d.timers.increments d.clock.boot day)
  rw [hcount] at hiff
  have hsplit : d.splitTimers day = d.commitEnded (d.timers.increments d.clock.boot day)
      (d.timers.split d.clock.boot day).2 := by
    rw [splitTimers, if_pos hon]
    rfl
  rw [← hiff, hsplit, commitEnded, commit]
  dsimp only
  cases d.tally.commit (d.timers.increments d.clock.boot day) with
  | ok tally =>
    refine ⟨iff_of_false (not_faulted_ok _) ?_, fun h => absurd h (not_faulted_ok _)⟩
    rintro ⟨e, h⟩
    cases h
  | error e => exact ⟨iff_of_true (faulted_ofStorage e) ⟨e, rfl⟩, fun _ => restarts_split d day⟩

/-- A look at the date while the table of counters is gone; after it the table is there again, and as
it was. -/
def missedRollover (d : Daemon) : Daemon :=
  { ({ d with tally := d.tally.broken } : Daemon).checkRollover.2 with tally := d.tally }

theorem missedRollover_eq (hon : d.gate.enabled = true) (hday : d.lastDay ≠ d.clock.today) :
    d.missedRollover = { d with
      timers := (d.timers.split d.clock.boot d.lastDay).2, lastDay := d.clock.today } := by
  rw [missedRollover, checkRollover]
  dsimp only
  rw [if_neg hday, splitTimers]
  dsimp only
  rw [if_pos hon, snd_commitEnded]

theorem Accounts.missedRollover (h : Accounts t d b) : Accounts t d.missedRollover b.missed := by
  by_cases hday : d.lastDay = d.clock.today
  · have hday' : b.seen = b.today := by rw [h.seen, h.today, hday]
    have hsame : d.missedRollover = d := by
      rw [Daemon.missedRollover, checkRollover]
      dsimp only
      rw [if_pos hday]
    rw [hsame, Book.missed, Book.rollover, if_pos hday']
    exact h
  · have hday' : b.seen ≠ b.today := by rwa [h.seen, h.today]
    obtain ⟨hm, -⟩ := Registry.mirrors_split h.mirrors h.now h.booted hday'
    have hmissed : b.missed = { b with
        seen := b.today, running := b.running.map fun r => { r with begun := b.now } } := by
      rw [Book.missed, Book.rollover, if_neg hday']
    rw [missedRollover_eq h.enabled hday, ← h.seen, hmissed]
    rw [Book.rollover, if_neg hday'] at hm
    exact ⟨h.enabled, h.now, h.today, h.today, h.booted,
      ⟨hm.coherent, hm.given, hm.running, hm.begun⟩, h.counted⟩

def book (d : Daemon) (calls : List Call) : Book :=
  calls.foldl Book.perform (.opened d.clock.boot.toInt d.clock.today d.lastDay)

theorem accounts_opened (hon : d.gate.enabled = true) (hr : d.timers = .empty)
    (ht : d.tally.table = some t) (hboot : 0 ≤ d.clock.boot.toInt) :
    Accounts t d (.opened d.clock.boot.toInt d.clock.today d.lastDay) :=
  ⟨hon, rfl, rfl, rfl, hboot, hr ▸ Registry.mirrors_empty _ _ _, [], ht, .refl _⟩

/-- Whatever timers run when the date is looked at: without the table of counters their split fails,
and nothing of the time up to then is left to be counted. When the table is there again the counters
come to what they would have come to, whatever calls follow, less just that time. -/
theorem time_lost_by_missed_rollover (hon : d.gate.enabled = true) (hr : d.timers = .empty)
    (ht : d.tally.table = some t) (hboot : 0 ≤ d.clock.boot.toInt) (calls later : List Call)
    (hc : d.clock.boot.toInt + sumOf Call.elapsed (calls ++ later) < 2 ^ 63)
    (hs : sumOf Call.starts (calls ++ later) < UInt64.size - 1) :
    let before := calls.foldl perform d
    let failing : Daemon := { before with tally := before.tally.broken }
    let lost := (d.book calls).closing.map Interval.increment
    let total := (d.bookOf (calls ++ .rollover :: later)).closed.map Interval.increment
    (∀ day, (Faulted (failing.splitTimers day).1 ↔ before.timers.count ≠ 0) ∧
      (Faulted (failing.splitTimers day).1 → Restarts failing (failing.splitTimers day).2)) ∧
    ∃ is, (later.foldl perform before.missedRollover).shutdown.tally.table = some (t.commit is) ∧
      (is ++ lost).Perm total ∧
      ∀ key, t.Gains (t.commit is) key (Table.counted is key) ∧
        Table.counted is key + Table.counted lost key = Table.counted total key := by
  intro before failing lost total
  have hsize : UInt64.size = 18446744073709551616 := rfl
  rw [sumOf_append] at hc hs
  have hstart := accounts_opened hon hr ht hboot
  obtain ⟨hnow, hgiven⟩ := Book.bounds_run (.opened d.clock.boot.toInt d.clock.today d.lastDay) calls
  change (d.book calls).now = d.clock.boot.toInt + _ at hnow
  change (d.book calls).given ≤ 0 + _ at hgiven
  have hbefore : Accounts t before (d.book calls) := by
    refine hstart.run calls ?_ ?_
    · change d.clock.boot.toInt + _ < 2 ^ 63
      omega
    · change 0 + _ + 1 < UInt64.size
      omega
  have hnow' : (d.book calls).missed.now = (d.book calls).now ∧
      (d.book calls).missed.given = (d.book calls).given := by
    rw [Book.missed, Book.rollover]
    split <;> exact ⟨rfl, rfl⟩
  have hlater := hbefore.missedRollover.run later (by omega) (by omega)
  obtain ⟨is, htable, hperm⟩ := hlater.shutdown
  have htotal : (is ++ lost).Perm total := by
    have hall : d.bookOf (calls ++ .rollover :: later) =
        (later.foldl Book.perform (d.book calls).rollover).shutdown := by
      rw [bookOf, List.foldl_append, List.foldl_cons]
      rfl
    have hrun := ((d.book calls).missed_run later).map Interval.increment
    rw [List.map_append, ← hall] at hrun
    exact (hperm.append_right lost).trans hrun
  refine ⟨fun day => ?_, is, htable, htotal, fun key => ⟨t.gains_commit is key, ?_⟩⟩
  · obtain ⟨hiff, hrestarts⟩ := split_fault (d := failing) hbefore.enabled day
    exact ⟨hiff.trans (and_iff_left rfl), hrestarts⟩
  · rw [← Table.counted_append, Table.counted_perm htotal]

def evening : List Call :=
  [.start (.fresh ⟨1⟩ 1000) ⟨0⟩ (List.replicate 16 7) none, .advance 6000000000,
   .start (.fresh ⟨2⟩ 1001) ⟨0⟩ (List.replicate 16 7) none,
   .start (.fresh ⟨1⟩ 1000) ⟨0⟩ (List.replicate 16 7) none, .advance 4000000000,
   .setToday firstOfJuly]

def morning : List Call :=
  [.advance 3000000000, .stop (.fresh ⟨1⟩ 1000) ⟨3⟩, .advance 1000000000,
   .stop (.fresh ⟨1⟩ 1000) ⟨1⟩, .disconnect ⟨2⟩]

theorem time_lost_by_missed_rollover_overnight :
    ∃ d e, assemble .standard .empty (.start ⟨2024, 6, 30, by decide⟩) = .ok d ∧
      d.setEnabled 0 true = .ok e ∧ e.gate.enabled = true ∧ e.timers = .empty ∧
      e.tally.table = some [] ∧ 0 ≤ e.clock.boot.toInt ∧
      e.clock.boot.toInt + sumOf Call.elapsed (evening ++ morning) < 2 ^ 63 ∧
      sumOf Call.starts (evening ++ morning) < UInt64.size - 1 ∧
      ∃ t', (morning.foldl perform (evening.foldl perform e).missedRollover).shutdown.tally.table =
          some t' ∧
        t'.counter ⟨dayKey ⟨2024, 6, 30, by decide⟩, sevens, 1000, []⟩ = 0 ∧
        t'.counter ⟨dayKey firstOfJuly, sevens, 1000, []⟩ = 4 := by
  have ha : assemble .standard .empty (.start ⟨2024, 6, 30, by decide⟩) = .ok _ := rfl
  refine ⟨_, _, ha, rfl, rfl, rfl, rfl, by decide, by decide, by decide, ?_⟩
  obtain ⟨-, is, ht, -, hgains⟩ := time_lost_by_missed_rollover (t := []) (d := (assemble .standard
    .empty (.start ⟨2024, 6, 30, by decide⟩)).toOption.get rfl |>.turn true) rfl rfl rfl (by decide)
    evening morning (by decide) (by decide)
  refine ⟨_, ht, ?_, ?_⟩
  · obtain ⟨hgain, hsum⟩ := hgains ⟨dayKey ⟨2024, 6, 30, by decide⟩, sevens, 1000, []⟩
    have hcounted : Table.counted is ⟨dayKey ⟨2024, 6, 30, by decide⟩, sevens, 1000, []⟩ = 0 :=
      Nat.add_right_cancel (hsum.trans (by decide))
    rw [hcounted] at hgain
    exact hgain (by decide) (by decide)
  · obtain ⟨hgain, hsum⟩ := hgains ⟨dayKey firstOfJuly, sevens, 1000, []⟩
    have hcounted : Table.counted is ⟨dayKey firstOfJuly, sevens, 1000, []⟩ = 4 :=
      Nat.add_right_cancel (hsum.trans (by decide))
    rw [hcounted] at hgain
    exact hgain (by decide) (by decide)

/-- A look at the date does take away from what is counted in the end: without it the ten seconds of
the evening are counted at the stop, with those of the morning. -/
theorem rollover_check_loses_time :
    ∃ d e, assemble .standard .empty (.start ⟨2024, 6, 30, by decide⟩) = .ok d ∧
      d.setEnabled 0 true = .ok e ∧
      let before := evening.foldl perform e
      let today : Tally.Key := ⟨dayKey firstOfJuly, sevens, 1000, []⟩
      let thatDay : Tally.Key := ⟨dayKey ⟨2024, 6, 30, by decide⟩, sevens, 1000, []⟩
      ({ before with tally := before.tally.broken } : Daemon).splitTimers before.lastDay =
          (.error (.ofStorage .upsertTally),
            { before with
              tally := before.tally.broken
              timers := (before.timers.split before.clock.boot before.lastDay).2 }) ∧
        (morning.foldl perform before).tally.table.map (·.counter today) = some 14 ∧
        (morning.foldl perform before.missedRollover).tally.table.map (·.counter today) = some 4 ∧
        (morning.foldl perform before.missedRollover).tally.table.map (·.counter thatDay) = some 0 :=
  ⟨_, _, rfl, rfl, by decide +kernel⟩

end Daemon

end Telemetry
