import Mathlib.Algebra.Group.Int.Defs
import Mathlib.Data.List.Basic
import Telemetry.Proofs.Timer.Mirror
import Telemetry.Proofs.Timer.Operation

namespace Telemetry.Timer

open Calendar Tally

/-- What a timer runs between two splits, and what it adds to the tally. -/
structure Lap where
  begun : Int64
  ended : Int64
  increment : Increment
  deriving DecidableEq, Repr

def Outcome.increments : Outcome → List Increment
  | released i => i.toList
  | yielded is => is
  | _ => []

namespace Timed

def split? (t : Timed) : Option Int64 :=
  match t.operation with
  | .split _ => some t.now
  | _ => none

def day (t : Timed) : Date :=
  match t.operation with
  | .split day => day
  | _ => t.today

theorem split?_eq_some {t : Timed} {now : Int64} (h : t.split? = some now) : now = t.now := by
  unfold split? at h
  split at h
  · exact (Option.some.inj h).symm
  · cases h

end Timed

def Running.restarted (v : Running) (now : Int64) : Running := { v with started := now }

def Running.lap (v : Running) (key : Key) (t : Timed) : Lap :=
  ⟨v.started, t.now, v.increment key t.now t.day⟩

namespace Registry

/-- A split ends the lap of a timer, and so does what ends the timer and does not drop it uncounted. -/
def EndsLap (r : Registry) (key : Key) (t : Timed) : Prop :=
  t.split?.isSome ∨ t.operation ≠ .purge ∧ (r.perform t).2.timers.get? key = none

instance (r : Registry) (key : Key) (t : Timed) : Decidable (r.EndsLap key t) :=
  inferInstanceAs (Decidable (_ ∨ _))

def lap? (r : Registry) (key : Key) (t : Timed) : Option Lap :=
  (r.timers.get? key).bind fun v => if r.EndsLap key t then some (v.lap key t) else none

/-- The laps of the timers under a key that end in a run, the earliest first. -/
def laps (r : Registry) (key : Key) : List Timed → List Lap
  | [] => []
  | t :: ts => (r.lap? key t).toList ++ (r.perform t).2.laps key ts

/-- A timer runs under the key at the beginning, and after each of the operations. -/
def Lasts (r : Registry) (key : Key) (ts : List Timed) : Prop :=
  ∀ n ≤ ts.length, ((r.run (ts.take n)).timers.get? key).isSome

/-- A timer begins with a start, lasts for some operations, and then ends and is counted, while the
clock does not go back. -/
structure Lives (r : Registry) (s : Start) (now : Int64) (life : List Timed) (last : Timed) :
    Prop where
  fresh : r.timers.get? s.key = none
  lasts : (r.start s now).2.Lasts s.key life
  ends : ((r.start s now).2.run (life ++ [last])).timers.get? s.key = none
  counted : last.operation ≠ .purge
  forward : (now :: (life ++ [last]).map (·.now)).Pairwise (· ≤ ·)

def restart (r : Registry) (key : Key) (now : Int64) : Registry :=
  { r with timers := r.timers.mapValues fun k v => if k = key then v.restarted now else v }

variable {r r' : Registry} {key : Key} {t : Timed} {v v' : Running}

section Restart

variable (now : Int64)

theorem get?_restart (r : Registry) (key j : Key) : (r.restart key now).timers.get? j =
    (r.timers.get? j).map fun v => if j = key then v.restarted now else v :=
  Index.get?_mapValues _ _ j

theorem foldl_restart (keys : List Key) (r : Registry) :
    keys.foldl (fun r k => r.restart k now) r =
      { r with timers := r.timers.mapValues fun k v =>
          if k ∈ keys then v.restarted now else v } := by
  induction keys generalizing r with
  | nil => simp [Index.mapValues]
  | cons key keys ih =>
    have hstep (k : Key) (v : Running) :
        (if k ∈ keys then (if k = key then v.restarted now else v).restarted now
          else if k = key then v.restarted now else v) =
        if k ∈ key :: keys then v.restarted now else v := by
      by_cases hk : k = key <;> by_cases hm : k ∈ keys <;> simp [hk, hm, Running.restarted]
    rw [List.foldl_cons, ih]
    simp only [restart, Index.mapValues, List.map_map, Function.comp_def, hstep]

theorem split_eq_foldl_restart (r : Registry) (day : Date) :
    (r.split now day).2 = r.timers.keys.foldl (fun r k => r.restart k now) r := by
  have hentries : r.timers.mapValues (fun _ v => v.restarted now) =
      r.timers.mapValues fun k v => if k ∈ r.timers.keys then v.restarted now else v := by
    apply congrArg Index.mk
    apply List.map_congr_left
    intro e he
    have hk : e.1 ∈ r.timers.keys := List.mem_map_of_mem he
    simp [hk]
  rw [foldl_restart, ← hentries]
  rfl

end Restart

section Step

theorem get?_endAll (r : Registry) (now : Int64) (today : Date) (keys : List Key) (k : Key) :
    (r.endAll now today keys).2.timers.get? k = if k ∈ keys then none else r.timers.get? k := by
  rw [Index.get?, timers_endAll, Index.find_filter fun k => decide (k ∉ keys)]
  by_cases hk : k ∈ keys <;> simp [hk, Index.get?]

theorem timers_stop {client : ClientId} {handle : TimerHandle} {now : Int64} {today : Date}
    {i : Option Increment} (h : r.stop client handle now today = some (i, r')) :
    ∃ k v, r.timers.get? k = some v ∧
      (i = some (v.increment k now today) ∧ r'.timers = r.timers.erase k ∨
        i = none ∧ ∃ left, r'.timers = r.timers.insert k { v with handles := left }) := by
  obtain ⟨k, v, -, -, hv, ⟨-, hi, rfl⟩ | ⟨-, hi, rfl⟩⟩ := stop_cases h
  · exact ⟨k, v, hv, .inl ⟨hi, timers_remove⟩⟩
  · exact ⟨k, v, hv, .inr ⟨hi, _, rfl⟩⟩

/-- A timer that goes on is begun anew by a split, and by nothing else. -/
theorem kept_perform (hv : r.timers.get? key = some v)
    (hv' : (r.perform t).2.timers.get? key = some v') :
    v'.user = v.user ∧ v'.payload = v.payload ∧ v'.started = t.split?.getD v.started := by
  obtain ⟨operation, now, today⟩ := t
  cases operation with
  | start s =>
    simp only [perform, timers_start] at hv'
    split at hv'
    · next hk =>
      subst hk
      simp only [hv, Option.some.injEq] at hv'
      subst hv'
      exact ⟨rfl, rfl, rfl⟩
    · rw [hv] at hv'
      cases hv'
      exact ⟨rfl, rfl, rfl⟩
  | stop client handle =>
    simp only [perform] at hv'
    split at hv'
    · next hs =>
      obtain ⟨k, w, hw, ⟨-, htimers⟩ | ⟨-, left, htimers⟩⟩ := timers_stop hs
      · simp only [htimers, Index.get?_erase] at hv'
        split at hv'
        · cases hv'
        · rw [hv] at hv'
          cases hv'
          exact ⟨rfl, rfl, rfl⟩
      · simp only [htimers, Index.get?_insert] at hv'
        split at hv'
        · next hk =>
          subst hk
          rw [hv] at hw
          cases hw
          cases hv'
          exact ⟨rfl, rfl, rfl⟩
        · rw [hv] at hv'
          cases hv'
          exact ⟨rfl, rfl, rfl⟩
    · rw [hv] at hv'
      cases hv'
      exact ⟨rfl, rfl, rfl⟩
  | disconnect client =>
    simp only [perform, disconnect, get?_endAll] at hv'
    split at hv'
    · cases hv'
    · rw [hv] at hv'
      cases hv'
      exact ⟨rfl, rfl, rfl⟩
  | drain => cases hv'
  | purge => cases hv'
  | split day =>
    simp only [perform, get?_split, hv, Option.map_some, Option.some.injEq] at hv'
    subst hv'
    exact ⟨rfl, rfl, rfl⟩

theorem filterMap_lap (hk : r.timers.keys.Nodup) {q : Key → Bool}
    (hq : ∀ e ∈ r.timers.entries, r.EndsLap e.1 t ↔ q e.1) :
    (r.timers.keys.filterMap fun k => (r.lap? k t).map Lap.increment) =
      (r.timers.entries.filter fun e => q e.1).map fun e => e.2.increment e.1 t.now t.day := by
  rw [Index.keys, List.filterMap_map, ← List.filterMap_eq_map, List.filterMap_filter]
  apply List.filterMap_congr
  intro e he
  have hget : r.timers.get? e.1 = some e.2 := (Index.get?_eq_some_iff hk).2 he
  simp only [Function.comp_apply, lap?, hget, Option.bind_some, hq e he]
  split <;> rfl

theorem increments_perform (hk : r.timers.keys.Nodup) (t : Timed) :
    (r.perform t).1.increments.Perm
      (r.timers.keys.filterMap fun k => (r.lap? k t).map Lap.increment) := by
  have hgone (e : Key × Running) (he : e ∈ r.timers.entries) : r.timers.get? e.1 ≠ none := by
    simp [(Index.get?_eq_some_iff hk).2 he]
  have hnone : (r.timers.entries.filter fun _ => false) = [] := by simp
  have hall : (r.timers.entries.filter fun _ => true) = r.timers.entries := by simp
  obtain ⟨operation, now, today⟩ := t
  cases operation with
  | start s =>
    rw [filterMap_lap hk (q := fun _ => false), hnone]
    · exact .refl _
    · intro e he
      simp only [EndsLap, Timed.split?, perform, timers_start]
      split <;> simp [hgone e he]
  | stop client handle =>
    cases hs : r.stop client handle now today with
    | none =>
      rw [filterMap_lap hk (q := fun _ => false), hnone]
      · simp [perform, hs, Outcome.increments]
      · intro e he
        simp [EndsLap, Timed.split?, perform, hs, hgone e he]
    | some p =>
      obtain ⟨i, r'⟩ := p
      obtain ⟨k, v, hv, ⟨rfl, htimers⟩ | ⟨rfl, left, htimers⟩⟩ := timers_stop hs
      · rw [filterMap_lap hk (q := fun j => j = k),
          Index.filter_key_eq_singleton hk ((Index.get?_eq_some_iff hk).1 hv)]
        · simp [perform, hs, Outcome.increments, Timed.day]
        · intro e he
          simp [EndsLap, Timed.split?, perform, hs, htimers, Index.get?_erase, hgone e he]
      · rw [filterMap_lap hk (q := fun _ => false), hnone]
        · simp [perform, hs, Outcome.increments]
        · intro e he
          simp only [EndsLap, Timed.split?, perform, hs, htimers, Index.get?_insert]
          split <;> simp [hgone e he]
  | disconnect client =>
    rw [filterMap_lap hk (q := fun k => k ∈ r.owned client)]
    · exact increments_endAll (r := { r with clients := r.clients.erase client }) hk now today _
    · intro e he
      rw [decide_eq_true_iff]
      simp [EndsLap, Timed.split?, perform, disconnect, get?_endAll, hgone e he, owned]
  | drain =>
    rw [filterMap_lap hk (q := fun _ => true), hall]
    · exact .refl _
    · intro e he
      simp [EndsLap, perform, drain, cleared, empty]
  | purge =>
    rw [filterMap_lap hk (q := fun _ => false), hnone]
    · exact .refl _
    · intro e he
      simp [EndsLap, Timed.split?]
  | split day =>
    rw [filterMap_lap hk (q := fun _ => true), hall]
    · exact .refl _
    · intro e he
      simp [EndsLap, Timed.split?]

theorem lap?_of_kept (hv : r.timers.get? key = some v)
    (hv' : (r.perform t).2.timers.get? key = some v') :
    r.lap? key t = t.split?.map fun _ => v.lap key t := by
  cases hs : t.split? <;> simp [lap?, hv, EndsLap, hs, hv']

theorem lasts_cons {ts : List Timed} : r.Lasts key (t :: ts) ↔
    (r.timers.get? key).isSome ∧ (r.perform t).2.Lasts key ts := by
  constructor
  · intro h
    exact ⟨h 0 (Nat.zero_le _), fun n hn => h (n + 1) (Nat.succ_le_succ hn)⟩
  · rintro ⟨hnow, hlater⟩ (_ | n) hn
    · exact hnow
    · exact hlater n (Nat.le_of_succ_le_succ hn)

theorem keys_perform (hk : r.timers.keys.Nodup) (t : Timed) :
    (r.perform t).2.timers.keys.Nodup := by
  obtain ⟨operation, now, today⟩ := t
  cases operation with
  | start s => exact Index.nodup_keys_alter _ _ _ hk
  | stop client handle =>
    simp only [perform]
    split
    · next hs =>
      obtain ⟨k, v, -, ⟨-, htimers⟩ | ⟨-, left, htimers⟩⟩ := timers_stop hs
      · simp only [htimers, Index.keys_erase]
        exact hk.filter _
      · simp only [htimers]
        exact Index.nodup_keys_alter _ _ _ hk
    · exact hk
  | disconnect client =>
    simp only [perform, disconnect, Index.keys, timers_endAll]
    exact hk.sublist (List.filter_sublist.map Prod.fst)
  | drain => exact List.nodup_nil
  | purge => exact List.nodup_nil
  | split day =>
    simp only [perform, split, Index.keys_mapValues]
    exact hk

theorem keys_run (hk : r.timers.keys.Nodup) (ts : List Timed) : (r.run ts).timers.keys.Nodup := by
  induction ts generalizing r with
  | nil => exact hk
  | cons t ts ih => exact ih (keys_perform hk t)

end Step

structure Contiguous (key : Key) (v : Running) (splits : List Int64) (last : Int64) (ls : List Lap) :
    Prop where
  begun : ls.map Lap.begun = v.started :: splits
  ended : ls.map Lap.ended = splits ++ [last]
  forward : ∀ l ∈ ls, l.begun ≤ l.ended
  increment : ∀ l ∈ ls, ∃ day,
    l.increment = ⟨key.event, day, v.user, v.payload, seconds l.begun l.ended⟩

theorem laps_contiguous {life : List Timed} {last : Timed} (hv : r.timers.get? key = some v)
    (hlasts : r.Lasts key life) (hends : (r.run (life ++ [last])).timers.get? key = none)
    (hcounted : last.operation ≠ .purge)
    (hforward : (v.started :: (life ++ [last]).map (·.now)).Pairwise (· ≤ ·)) :
    Contiguous key v (life.filterMap Timed.split?) last.now (r.laps key (life ++ [last])) := by
  induction life generalizing r v with
  | nil =>
    have hlap : r.lap? key last = some (v.lap key last) := by
      have hgone : (r.perform last).2.timers.get? key = none := hends
      simp [lap?, hv, EndsLap, hcounted, hgone]
    have hle : v.started ≤ last.now := by simpa using hforward
    simp only [List.nil_append, laps, hlap]
    exact ⟨rfl, rfl, by simpa [Running.lap] using hle, by simpa using ⟨_, rfl⟩⟩
  | cons t life ih =>
    obtain ⟨-, hlater⟩ := lasts_cons.1 hlasts
    obtain ⟨v', hv'⟩ : ∃ v', (r.perform t).2.timers.get? key = some v' :=
      Option.isSome_iff_exists.1 (hlater 0 (Nat.zero_le _))
    obtain ⟨huser, hpayload, hstarted⟩ := kept_perform hv hv'
    rw [List.cons_append, List.map_cons] at hforward
    obtain ⟨hfirst, hrest⟩ := List.pairwise_cons.1 hforward
    have hlap := lap?_of_kept hv hv'
    rw [List.cons_append, laps, hlap, List.filterMap_cons]
    rw [List.cons_append, run_cons] at hends
    cases hs : t.split? with
    | none =>
      rw [hs, Option.getD_none] at hstarted
      have hforward' : (v'.started :: (life ++ [last]).map (·.now)).Pairwise (· ≤ ·) := by
        rw [hstarted]
        exact hforward.sublist ((List.sublist_cons_self _ _).cons_cons _)
      obtain ⟨hbegun, hended, hle, hincrement⟩ := ih hv' hlater hends hforward'
      rw [hstarted] at hbegun
      rw [huser, hpayload] at hincrement
      exact ⟨hbegun, hended, hle, hincrement⟩
    | some now =>
      obtain rfl := Timed.split?_eq_some hs
      rw [hs, Option.getD_some] at hstarted
      obtain ⟨hbegun, hended, hle, hincrement⟩ := ih hv' hlater hends (hstarted ▸ hrest)
      rw [hstarted] at hbegun
      rw [huser, hpayload] at hincrement
      simp only [Option.map_some, Option.toList_some, List.singleton_append]
      refine ⟨congrArg (v.started :: ·) hbegun, congrArg (t.now :: ·) hended, ?_, ?_⟩
      · exact List.forall_mem_cons.2 ⟨hfirst t.now List.mem_cons_self, hle⟩
      · exact List.forall_mem_cons.2 ⟨⟨t.day, rfl⟩, hincrement⟩

section Seconds

variable {a z : Int64}

theorem seconds_of_short (hle : a ≤ z) (hshort : z.toInt - a.toInt < 2 ^ 32 * 1000000000) :
    ((seconds a z).toNat : Int) = (z.toInt - a.toInt) / 1000000000 := by
  rw [Int64.le_iff_toInt_le] at hle
  have hsub : (z - a).toInt = z.toInt - a.toInt := by
    rw [Int64.toInt_sub]
    apply Int.bmod_eq_of_le <;> omega
  have hsize : UInt32.size = 2 ^ 32 := rfl
  have hmin : min ((z.toInt - a.toInt) / 1000000000).toNat (UInt32.size - 1) =
      ((z.toInt - a.toInt) / 1000000000).toNat := by
    apply Nat.min_eq_left
    omega
  rw [seconds, hsub, hmin, UInt32.toNat_ofNat_of_lt' (by omega)]
  omega

theorem sum_seconds {ls : List Lap} (hchain : ls.map Lap.begun ++ [z] = a :: ls.map Lap.ended)
    (hforward : ∀ l ∈ ls, l.begun ≤ l.ended)
    (hshort : ∀ l ∈ ls, l.ended.toInt - l.begun.toInt < 2 ^ 32 * 1000000000) :
    let counted := sumOf (fun l => (seconds l.begun l.ended).toNat) ls
    (counted : Int) * 1000000000 ≤ z.toInt - a.toInt ∧
      z.toInt - a.toInt ≤ counted * 1000000000 + ls.length * 999999999 := by
  induction ls generalizing a with
  | nil =>
    cases hchain
    simp
  | cons l ls ih =>
    obtain ⟨rfl, hrest⟩ := List.cons.inj hchain
    rw [List.forall_mem_cons] at hforward hshort
    have hl := seconds_of_short hforward.1 hshort.1
    obtain ⟨hmost, hleast⟩ := ih hrest hforward.2 hshort.2
    rw [sumOf_cons, List.length_cons]
    push_cast
    constructor
    · omega
    · omega

end Seconds

/-- A timer that is split between its start and its end counts at most the whole seconds of its life,
and at most one less for each split. Its laps follow one another, and a split changes nothing in the
registry but when each of the timers was begun. -/
theorem splitting_costs_seconds {before : List Timed} {s : Start} {now : Int64} {life : List Timed}
    {last : Timed} (hlives : (empty.run before).Lives s now life last)
    (hshort : ∀ l ∈ ((empty.run before).start s now).2.laps s.key (life ++ [last]),
      l.ended.toInt - l.begun.toInt < 2 ^ 32 * 1000000000) :
    let r := ((empty.run before).start s now).2
    let ls := r.laps s.key (life ++ [last])
    let splits := life.filterMap Timed.split?
    let whole := (last.now.toInt - now.toInt) / 1000000000
    let counted := sumOf (·.increment.amount.toNat) ls
    (ls.length = splits.length + 1 ∧ (counted : Int) ≤ whole ∧ whole - splits.length ≤ counted) ∧
    (ls.map Lap.begun = now :: splits ∧ ls.map Lap.ended = splits ++ [last.now] ∧
      ∀ l ∈ ls, l.begun ≤ l.ended ∧ ∃ day,
        l.increment = ⟨s.event, day, s.user, s.payload, seconds l.begun l.ended⟩) ∧
    (∀ since t, ((r.run since).perform t).1.increments.Perm
      ((r.run since).timers.keys.filterMap fun k => ((r.run since).lap? k t).map Lap.increment)) ∧
    ∀ (r : Registry) (now : Int64) (day : Date),
      let r' := (r.split now day).2
      r'.nextHandle = r.nextHandle ∧ r'.handles = r.handles ∧ r'.clients = r.clients ∧
      (∀ k, r'.timers.get? k = (r.timers.get? k).map (·.restarted now)) ∧
      r' = r.timers.keys.foldl (fun r k => r.restart k now) r ∧
      ∀ (r : Registry) (key k : Key), k ≠ key →
        (r.restart key now).timers.get? k = r.timers.get? k := by
  intro r ls splits whole counted
  have hkeys : r.timers.keys.Nodup :=
    Index.nodup_keys_alter _ _ _ (keys_run (r := empty) List.nodup_nil before)
  have hv : r.timers.get? s.key =
      some ⟨s.user, s.payload, now, [⟨(empty.run before).nextHandle⟩]⟩ := by
    simp [r, timers_start, hlives.fresh]
  obtain ⟨hbegun, hended, hforward, hincrement⟩ :=
    laps_contiguous hv hlives.lasts hlives.ends hlives.counted hlives.forward
  have hlength : ls.length = splits.length + 1 := by simpa using congrArg List.length hbegun
  have hchain : ls.map Lap.begun ++ [last.now] = now :: ls.map Lap.ended := by
    rw [hbegun, hended, List.cons_append]
  have hcounted : counted = sumOf (fun l => (seconds l.begun l.ended).toNat) ls := by
    apply sumOf_congr
    intro l hl
    obtain ⟨day, hday⟩ := hincrement l hl
    rw [hday]
  obtain ⟨hmost, hleast⟩ := sum_seconds hchain hforward hshort
  rw [← hcounted] at hmost hleast
  rw [hlength] at hleast
  refine ⟨⟨hlength, ?_, ?_⟩, ⟨hbegun, hended, fun l hl => ⟨hforward l hl, hincrement l hl⟩⟩,
    fun since t => ?_, fun r now day => ?_⟩
  · omega
  · omega
  · exact increments_perform (keys_run hkeys since) t
  · refine ⟨rfl, rfl, rfl, get?_split r now day, split_eq_foldl_restart now r day, ?_⟩
    intro r key k hk
    simp [get?_restart, hk]

theorem splitting_costs_seconds_shared :
    let s : Start := ⟨⟨1⟩, 1000, .nil, ⟨0⟩, some (.bool true)⟩
    let before : List Timed := [⟨.start ⟨⟨2⟩, 1001, .nil, ⟨0⟩, none⟩, 0, .epoch⟩]
    let life : List Timed :=
      [⟨.start s, 600000000, .epoch⟩, ⟨.split .epoch, 1400000000, .epoch⟩,
       ⟨.stop ⟨1⟩ ⟨2⟩, 1500000000, .epoch⟩, ⟨.split .epoch, 2300000000, .epoch⟩,
       ⟨.disconnect ⟨2⟩, 2300000000, .epoch⟩]
    let last : Timed := ⟨.stop ⟨1⟩ ⟨3⟩, 3500000000, .epoch⟩
    let ls := ((empty.run before).start s 500000000).2.laps s.key (life ++ [last])
    let whole := (last.now.toInt - (500000000 : Int64).toInt) / 1000000000
    let counted := sumOf (·.increment.amount.toNat) ls
    (empty.run before).Lives s 500000000 life last ∧
      (∀ l ∈ ls, l.ended.toInt - l.begun.toInt < 2 ^ 32 * 1000000000) ∧
      ls.length = 3 ∧ whole = 3 ∧ counted = 1 ∧ whole - 2 ≤ counted ∧
      ls.map Lap.begun = [500000000, 1400000000, 2300000000] ∧
      ls.map Lap.ended = [1400000000, 2300000000, 3500000000] := by
  intro s before life last ls whole counted
  have hlives : (empty.run before).Lives s 500000000 life last :=
    ⟨by decide, by unfold Lasts; decide, by decide, by decide, by decide⟩
  have hshort : ∀ l ∈ ls, l.ended.toInt - l.begun.toInt < 2 ^ 32 * 1000000000 := by decide
  obtain ⟨⟨hlength, -, hleast⟩, ⟨hbegun, hended, -⟩, -, -⟩ := splitting_costs_seconds hlives hshort
  exact ⟨hlives, hshort, hlength, by decide, by decide, hleast, hbegun, hended⟩

end Registry

end Telemetry.Timer
