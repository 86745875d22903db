import Mathlib.Algebra.Group.Int.Defs
import Mathlib.Algebra.Group.Nat.Defs
import Telemetry.Daemon.Recording
import Telemetry.Proofs.Timer.Mirror

namespace Telemetry

open Calendar Codec Tally Timer

namespace Daemon

/-- What moves timers. -/
inductive Call
  | start (s : Session) (flags : Flags) (event : Bytes) (payload : Payload)
  | stop (s : Session) (handle : TimerHandle)
  | disconnect (client : ClientId)
  | advance (nanoseconds : Nat)
  | setToday (date : Date)
  | rollover
  deriving DecidableEq, Repr

def Call.elapsed : Call → Nat
  | advance nanoseconds => nanoseconds
  | _ => 0

def Call.starts : Call → Nat
  | start .. => 1
  | _ => 0

def perform (d : Daemon) : Call → Daemon
  | .start s flags event payload =>
    match d.startTimer s flags event payload with
    | .ok (_, d) => d
    | .error _ => d
  | .stop s handle => (d.stopTimer s handle).2
  | .disconnect client => d.disconnect client
  | .advance nanoseconds => d.advance nanoseconds
  | .setToday date => d.setToday date
  | .rollover => d.checkRollover.2

end Daemon

def Timer.Book.perform (b : Book) : Daemon.Call → Book
  | .start s flags event payload =>
    match Daemon.eventId event with
    | .ok id => b.start ⟨s.client, s.user, id, flags, payload⟩
    | .error _ => b
  | .stop s handle => b.stop s.client handle
  | .disconnect client => b.disconnect client
  | .advance nanoseconds => b.advance nanoseconds
  | .setToday date => b.setToday date
  | .rollover => b.rollover

namespace Daemon

/-- The daemon agrees with the book, and has counted the closed intervals on top of the table `t`. -/
structure Accounts (t : Table) (d : Daemon) (b : Book) : Prop where
  enabled : d.gate.enabled = true
  now : b.now = d.clock.boot.toInt
  today : b.today = d.clock.today
  seen : b.seen = d.lastDay
  booted : 0 ≤ b.now
  mirrors : d.timers.Mirrors b
  counted : ∃ is, d.tally.table = some (t.commit is) ∧ is.Perm (b.closed.map Interval.increment)

variable {t : Table} {d : Daemon} {b b' : Book}

theorem commit_eq (h : d.tally.table = some t) (is : List Increment) :
    d.commit is = .ok { d with tally := { d.tally with table := some (t.commit is) } } := by
  rw [commit, Store.commit_eq h]

theorem Accounts.commit {lastDay : Date} (h : Accounts t d b) {timers : Registry}
    {is : List Increment} (hm : timers.Mirrors b') (hy : Registry.Yields is b b')
    (hnow : b'.now = b.now) (htoday : b'.today = b.today) (hseen : b'.seen = lastDay) :
    ∃ d', ({ d with timers := timers, lastDay := lastDay } : Daemon).commit is = .ok d' ∧
      Accounts t d' b' := by
  obtain ⟨before, htable, hperm⟩ := h.counted
  obtain ⟨new, hclosed, hnew⟩ := hy
  have hc := commit_eq (d := { d with timers := timers, lastDay := lastDay }) htable is
  refine ⟨_, hc, h.enabled, hnow.trans h.now, htoday.trans h.today, hseen,
    hnow ▸ h.booted, hm, before ++ is, ?_, ?_⟩
  · rw [Table.commit_append]
  · rw [hclosed, List.map_append]
    exact hperm.append hnew

theorem Accounts.commitEnded {lastDay : Date} (h : Accounts t d b) {timers : Registry}
    {is : List Increment} (hm : timers.Mirrors b') (hy : Registry.Yields is b b')
    (hnow : b'.now = b.now) (htoday : b'.today = b.today) (hseen : b'.seen = lastDay) :
    Accounts t (({ d with lastDay := lastDay } : Daemon).commitEnded is timers).2 b' := by
  obtain ⟨d', hc, ha⟩ := h.commit hm hy hnow htoday hseen
  rw [Daemon.commitEnded]
  dsimp only at hc ⊢
  rw [hc]
  exact ha

theorem Accounts.start (h : Accounts t d b) (hg : b.given + 2 < UInt64.size) (s : Session)
    (flags : Flags) (event : Bytes) (payload : Payload) :
    Accounts t (d.perform (.start s flags event payload))
      (b.perform (.start s flags event payload)) := by
  simp only [perform, Book.perform, startTimer, whileEnabled, h.enabled, if_true]
  cases eventId event with
  | error e => exact h
  | ok id =>
    exact ⟨h.enabled, h.now, h.today, h.seen, h.booted,
      Registry.mirrors_start h.mirrors h.now h.booted hg _, h.counted⟩

theorem Accounts.stop (h : Accounts t d b) (s : Session) (handle : TimerHandle) :
    Accounts t (d.perform (.stop s handle)) (b.perform (.stop s handle)) := by
  change Accounts t (d.stopTimer s handle).2 (b.stop s.client handle)
  rw [stopTimer, release]
  cases hs : d.timers.stop s.client handle d.clock.boot d.clock.today with
  | none =>
    rw [Registry.stop_of_unknown h.mirrors hs]
    exact h
  | some p =>
    obtain ⟨i, timers⟩ := p
    rw [← h.today] at hs
    obtain ⟨hm, hy⟩ := Registry.mirrors_stop h.mirrors h.now h.booted hs
    obtain ⟨d', hc, ha⟩ := h.commit hm hy rfl rfl h.seen
    cases i with
    | none =>
      obtain ⟨before, htable, hperm⟩ := h.counted
      obtain ⟨new, hclosed, hnew⟩ := hy
      refine ⟨h.enabled, h.now, h.today, h.seen, h.booted, hm, before, htable, ?_⟩
      have hnil : new.map Interval.increment = [] := hnew.symm.eq_nil
      rw [hclosed, List.map_append, hnil, List.append_nil]
      exact hperm
    | some i =>
      have hcur : d.gate.current d.gate.generation = true := by
        rw [Consent.Gate.current, h.enabled]
        simp
      rw [Option.toList_some] at hc
      dsimp only
      rw [commitSince, since]
      rw [if_pos hcur]
      change Accounts t (settled _ (Daemon.commit _ [i])).2 _
      rw [hc]
      exact ha

theorem Accounts.disconnect (h : Accounts t d b) (client : ClientId) :
    Accounts t (d.perform (.disconnect client)) (b.perform (.disconnect client)) := by
  change Accounts t (d.disconnect client) (b.disconnect client)
  rw [Daemon.disconnect]
  rw [if_pos h.enabled, ← h.today]
  obtain ⟨hm, hy⟩ := Registry.mirrors_disconnect h.mirrors h.now h.booted client
  exact h.commitEnded hm hy rfl rfl h.seen

theorem Accounts.rollover (h : Accounts t d b) :
    Accounts t (d.perform .rollover) (b.perform .rollover) := by
  change Accounts t d.checkRollover.2 b.rollover
  rw [checkRollover]
  by_cases hday : d.lastDay = d.clock.today
  · have hday' : b.seen = b.today := by rw [h.seen, h.today, hday]
    rw [if_pos hday, Book.rollover, if_pos hday']
    exact h
  · have hday' : b.seen ≠ b.today := by rwa [h.seen, h.today]
    obtain ⟨hm, hy⟩ := Registry.mirrors_split h.mirrors h.now h.booted hday'
    have hroll : b.rollover.now = b.now ∧ b.rollover.today = b.today ∧
        b.rollover.seen = d.clock.today := by
      rw [Book.rollover, if_neg hday']
      exact ⟨rfl, rfl, h.today⟩
    have hon : ({ d with lastDay := d.clock.today } : Daemon).gate.enabled = true := h.enabled
    rw [if_neg hday]
    rw [splitTimers]
    rw [if_pos hon, ← h.seen]
    exact h.commitEnded hm hy hroll.1 hroll.2.1 hroll.2.2

theorem Accounts.advance (h : Accounts t d b) {nanoseconds : Nat}
    (hc : b.now + nanoseconds < 2 ^ 63) :
    Accounts t (d.perform (.advance nanoseconds)) (b.perform (.advance nanoseconds)) := by
  have hb := h.booted
  have hnow := h.now
  have hn : (Int64.ofNat nanoseconds).toInt = nanoseconds :=
    Int64.toInt_ofNat_of_lt (by omega)
  have hsum : (d.clock.boot + Int64.ofNat nanoseconds).toInt = b.now + nanoseconds := by
    rw [Int64.toInt_add, hn, ← hnow]
    apply Int.bmod_eq_of_le <;> omega
  have hb' : 0 ≤ b.now + nanoseconds := by omega
  have hm := h.mirrors
  exact ⟨h.enabled, hsum.symm, h.today, h.seen, hb', ⟨hm.coherent, hm.given, hm.running, hm.begun⟩,
    h.counted⟩

theorem Accounts.setToday (h : Accounts t d b) (date : Date) :
    Accounts t (d.perform (.setToday date)) (b.perform (.setToday date)) := by
  have hm := h.mirrors
  exact ⟨h.enabled, h.now, rfl, h.seen, h.booted, ⟨hm.coherent, hm.given, hm.running, hm.begun⟩,
    h.counted⟩

theorem Accounts.perform (h : Accounts t d b) (c : Call) (hc : b.now + c.elapsed < 2 ^ 63)
    (hg : b.given + c.starts + 1 < UInt64.size) : Accounts t (d.perform c) (b.perform c) := by
  cases c with
  | start s flags event payload => exact h.start hg s flags event payload
  | stop s handle => exact h.stop s handle
  | disconnect client => exact h.disconnect client
  | advance nanoseconds => exact h.advance hc
  | setToday date => exact h.setToday date
  | rollover => exact h.rollover

theorem bounds_perform (b : Book) (c : Call) :
    (b.perform c).now = b.now + c.elapsed ∧ (b.perform c).given ≤ b.given + c.starts := by
  cases c with
  | start s flags event payload =>
    simp only [Book.perform, Call.elapsed, Call.starts]
    split
    · exact ⟨(Int.add_zero _).symm, Nat.le_refl _⟩
    · exact ⟨(Int.add_zero _).symm, Nat.le_succ _⟩
  | rollover =>
    simp only [Book.perform, Book.rollover]
    split
    · exact ⟨(Int.add_zero _).symm, Nat.le_refl _⟩
    · exact ⟨(Int.add_zero _).symm, Nat.le_refl _⟩
  | advance nanoseconds => exact ⟨rfl, Nat.le_refl _⟩
  | stop | disconnect | setToday => exact ⟨(Int.add_zero _).symm, Nat.le_refl _⟩

theorem Accounts.run (h : Accounts t d b) (calls : List Call)
    (hc : b.now + sumOf Call.elapsed calls < 2 ^ 63)
    (hg : b.given + sumOf Call.starts calls + 1 < UInt64.size) :
    Accounts t (calls.foldl Daemon.perform d) (calls.foldl Book.perform b) := by
  induction calls generalizing d b with
  | nil => exact h
  | cons c calls ih =>
    rw [sumOf_cons] at hc hg
    obtain ⟨hnow, hgiven⟩ := bounds_perform b c
    exact ih (h.perform c (by omega) (by omega)) (by omega) (by omega)

theorem tally_flush (d : Daemon) : d.flush.2.tally = d.tally := by
  rw [flush]
  split
  · dsimp only
    split <;> rfl
  · rfl

theorem Accounts.shutdown (h : Accounts t d b) :
    ∃ is, d.shutdown.tally.table = some (t.commit is) ∧
      is.Perm (b.shutdown.closed.map Interval.increment) := by
  obtain ⟨hm, hy⟩ := Registry.mirrors_drain h.mirrors h.now h.booted
  have hd : Accounts t d.commitTimers.2 b.shutdown := by
    rw [commitTimers]
    rw [if_pos h.enabled, ← h.today]
    exact h.commitEnded hm hy rfl rfl h.seen
  have htally : d.shutdown.tally = d.commitTimers.2.tally := tally_flush d.commitTimers.2
  rw [htally]
  exact hd.counted

/-- The book of the calls to a daemon without timers, up to its shutdown. -/
def bookOf (d : Daemon) (calls : List Call) : Book :=
  (calls.foldl Book.perform (.opened d.clock.boot.toInt d.clock.today d.lastDay)).shutdown

theorem running_bookOf (d : Daemon) (calls : List Call) : (d.bookOf calls).running = [] := by
  apply List.filterMap_eq_nil_iff.2
  intro t _
  have hleft : t.left (fun _ _ => true) = [] := List.filter_eq_nil_iff.2 fun h _ => by simp
  rw [Logical.after, Logical.ends, hleft]
  rfl

/-- Every interval of every timer is counted once, under the user and the payload of the timer's
first start. The counters of days and months gain the seconds of the intervals with their keys, and
no timer is left with an interval that is not closed. -/
theorem timers_counted_once {d : Daemon} {t : Table} (hon : d.gate.enabled = true)
    (hr : d.timers = .empty) (ht : d.tally.table = some t) (hboot : 0 ≤ d.clock.boot.toInt)
    (calls : List Call) (hc : d.clock.boot.toInt + sumOf Call.elapsed calls < 2 ^ 63)
    (hs : sumOf Call.starts calls < UInt64.size - 1) :
    (d.bookOf calls).running = [] ∧
      ∃ t', (calls.foldl perform d).shutdown.tally.table = some t' ∧
        (∃ is, t' = t.commit is ∧ is.Perm ((d.bookOf calls).closed.map Interval.increment)) ∧
        (∀ i : Interval, t.Gains t' i.dayKey ((d.bookOf calls).dayTotal i.dayKey)) ∧
        ∀ i : Interval, t.Gains t' i.monthKey ((d.bookOf calls).monthTotal i.monthKey) := by
  have hsize : UInt64.size = 18446744073709551616 := rfl
  have h0 : Accounts t d (.opened d.clock.boot.toInt d.clock.today d.lastDay) :=
    ⟨hon, rfl, rfl, rfl, hboot, hr ▸ Registry.mirrors_empty _ _ _, [], ht, .refl _⟩
  have hg : (Book.opened d.clock.boot.toInt d.clock.today d.lastDay).given +
      sumOf Call.starts calls + 1 < UInt64.size := by
    change 0 + _ + 1 < _
    omega
  obtain ⟨is, htable, hperm⟩ := (h0.run calls hc hg).shutdown
  have hday (key : Tally.Key) : sumOf (·.dayPart key) is = (d.bookOf calls).dayTotal key := by
    rw [Book.dayTotal_eq]
    exact sumOf_perm _ hperm
  have hmonth (key : Tally.Key) : sumOf (·.monthPart key) is = (d.bookOf calls).monthTotal key := by
    rw [Book.monthTotal_eq]
    exact sumOf_perm _ hperm
  refine ⟨running_bookOf d calls, t.commit is, htable, ⟨is, rfl, hperm⟩, ?_, ?_⟩
  · intro i
    have hgains := t.gains_commit is i.dayKey
    rw [hday, hmonth, Book.monthTotal_dayKey, Nat.add_zero] at hgains
    exact hgains
  · intro i
    have hgains := t.gains_commit is i.monthKey
    rw [hday, hmonth, Book.dayTotal_monthKey, Nat.zero_add] at hgains
    exact hgains

def overnight : List Call :=
  [.start (.fresh ⟨1⟩ 1000) ⟨0⟩ (List.replicate 16 7) none, .advance 5000000000,
   .start (.fresh ⟨1⟩ 1001) ⟨0⟩ (List.replicate 16 7) (some (.bool true)),
   .start (.fresh ⟨2⟩ 1000) ⟨0⟩ (List.replicate 16 7) none,
   .setToday ⟨2024, 7, 1, by decide⟩, .rollover, .stop (.fresh ⟨1⟩ 1000) ⟨1⟩,
   .stop (.fresh ⟨1⟩ 1000) ⟨3⟩, .advance 2500000000, .disconnect ⟨2⟩, .advance 4000000000]

def sevens : EventId := ⟨List.replicate 16 7, rfl⟩

def firstOfJuly : Date := ⟨2024, 7, 1, by decide⟩

theorem timers_counted_once_overnight :
    ∃ d e, assemble .standard .empty (.start ⟨2024, 6, 30, by decide⟩) = .ok d ∧
      d.setEnabled 0 true = .ok e ∧ e.gate.enabled = true ∧ e.timers = .empty ∧
      e.tally.table = some [] ∧ 0 ≤ e.clock.boot.toInt ∧
      e.clock.boot.toInt + sumOf Call.elapsed overnight < 2 ^ 63 ∧
      sumOf Call.starts overnight < UInt64.size - 1 ∧
      ∃ t', (overnight.foldl perform e).shutdown.tally.table = some t' ∧
        t'.counter ⟨dayKey ⟨2024, 6, 30, by decide⟩, sevens, 1000, []⟩ = 5 ∧
        t'.counter ⟨dayKey ⟨2024, 7, 1, by decide⟩, sevens, 1000, []⟩ = 8 := by
  have ha : assemble .standard .empty (.start ⟨2024, 6, 30, by decide⟩) = .ok _ := rfl
  refine ⟨_, _, ha, rfl, rfl, rfl, rfl, by decide, by decide, by decide, ?_⟩
  obtain ⟨-, t', ht, -, hdays, -⟩ := timers_counted_once (t := []) (d := (assemble .standard .empty
    (.start ⟨2024, 6, 30, by decide⟩)).toOption.get rfl |>.turn true) rfl rfl rfl (by decide) overnight
    (by decide) (by decide)
  refine ⟨t', ht, ?_, ?_⟩
  · exact hdays ⟨sevens, 1000, none, ⟨2024, 6, 30, by decide⟩, 0, 0⟩ (by decide) (by decide)
  · exact hdays ⟨sevens, 1000, none, ⟨2024, 7, 1, by decide⟩, 0, 0⟩ (by decide) (by decide)

end Daemon

end Telemetry
