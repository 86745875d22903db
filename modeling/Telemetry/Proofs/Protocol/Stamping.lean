import Telemetry.Proofs.Daemon.Effect

namespace Telemetry

open Codec Event

/-- A stamp that a client asks for, what the clock reads then, and the stamp that is given. -/
structure Stamping where
  asked : Int64
  now : Int64
  given : Int64
  deriving DecidableEq, Repr

namespace StampGuard

def floor (g : StampGuard) : Int64 := g.last.getD Int64.minValue

/-- Gives out stamps one after the other, for pairs of what is asked and what the clock reads. -/
def stampings (g : StampGuard) : List (Int64 × Int64) → List Stamping
  | [] => []
  | (asked, now) :: rest =>
    ⟨asked, now, g.stamp asked now⟩ :: (g.apply asked now).2.stampings rest

def after (g : StampGuard) (asks : List (Int64 × Int64)) : StampGuard :=
  asks.foldl (fun g ask => (g.apply ask.1 ask.2).2) g

variable {g : StampGuard} {asked now t₀ : Int64} {asks : List (Int64 × Int64)}

theorem floor_fresh : fresh.floor = Int64.minValue := rfl

@[simp] theorem floor_apply : (g.apply asked now).2.floor = g.stamp asked now := rfl

@[simp] theorem stampings_nil : g.stampings [] = [] := rfl

theorem stampings_append (xs ys : List (Int64 × Int64)) :
    g.stampings (xs ++ ys) = g.stampings xs ++ (g.after xs).stampings ys := by
  induction xs generalizing g with
  | nil => rfl
  | cons x xs ih => simp [stampings, ih, after]

theorem map_ask_stampings :
    (g.stampings asks).map (fun s => (s.asked, s.now)) = asks := by
  induction asks generalizing g with
  | nil => rfl
  | cons ask asks ih => simp [stampings, ih]

section Stamp

theorem toInt_stamp : (g.stamp asked now).toInt =
    min (max asked.toInt g.floor.toInt) (max now.toInt g.floor.toInt) := by
  have hmin (a b : Int64) : (min a b).toInt = min a.toInt b.toInt := by
    simp only [min, Int64.le_iff_toInt_le]
    split <;> rfl
  have hmax (a b : Int64) : (max a b).toInt = max a.toInt b.toInt := by
    simp only [max, Int64.le_iff_toInt_le]
    split <;> rfl
  have hstamp : g.stamp asked now = min (max asked g.floor) (max now g.floor) := rfl
  rw [hstamp, hmin, hmax, hmax]

theorem floor_le_stamp : g.floor ≤ g.stamp asked now := by
  simp only [Int64.le_iff_toInt_le, toInt_stamp]
  omega

theorem stamp_le (h : g.floor ≤ now) : g.stamp asked now ≤ now := by
  simp only [Int64.le_iff_toInt_le, toInt_stamp] at *
  omega

theorem le_stamp (ha : t₀ ≤ asked) (hn : t₀ ≤ now) : t₀ ≤ g.stamp asked now := by
  simp only [Int64.le_iff_toInt_le, toInt_stamp] at *
  omega

theorem stamp_eq_self (hf : g.floor ≤ asked) (hn : asked ≤ now) : g.stamp asked now = asked := by
  apply Int64.toInt_inj.1
  simp only [Int64.le_iff_toInt_le, toInt_stamp] at *
  omega

end Stamp

/-- Stamps that are given out in order behind what a guard gave out before, never ahead of the clock,
and as they are asked for where these two allow it. -/
structure Orderly (g : StampGuard) (ss : List Stamping) : Prop where
  above : ∀ s ∈ ss, g.floor ≤ s.given
  sorted : ss.Pairwise (·.given ≤ ·.given)
  behind : ∀ s ∈ ss, s.given ≤ s.now
  kept : ∀ before s after, ss = before ++ s :: after →
    (before.getLast?.map Stamping.given).getD g.floor ≤ s.asked → s.asked ≤ s.now →
      s.given = s.asked
  bounded : ∀ t₀, (∀ s ∈ ss, t₀ ≤ s.asked ∧ t₀ ≤ s.now) → ∀ s ∈ ss, t₀ ≤ s.given

theorem orderly_stampings (hclock : asks.Pairwise (·.2 ≤ ·.2))
    (hfloor : ∀ ask ∈ asks, g.floor ≤ ask.2) : g.Orderly (g.stampings asks) := by
  induction asks generalizing g with
  | nil => exact ⟨by simp, .nil, by simp, by simp, by simp⟩
  | cons ask asks ih =>
    obtain ⟨asked, now⟩ := ask
    obtain ⟨hlater, hclock⟩ := List.pairwise_cons.1 hclock
    have hle : g.stamp asked now ≤ now := stamp_le (hfloor _ List.mem_cons_self)
    have hrest := ih (g := (g.apply asked now).2) hclock fun ask hask =>
      Int64.le_trans hle (hlater ask hask)
    have habove : ∀ s ∈ (g.apply asked now).2.stampings asks, g.stamp asked now ≤ s.given :=
      hrest.above
    rw [stampings]
    refine ⟨?_, ?_, ?_, fun before s after hs hprev hahead => ?_, fun t₀ ht₀ => ?_⟩
    · have hrest' := fun s hs => Int64.le_trans floor_le_stamp (habove s hs)
      exact List.forall_mem_cons.2 ⟨floor_le_stamp, hrest'⟩
    · exact List.pairwise_cons.2 ⟨habove, hrest.sorted⟩
    · exact List.forall_mem_cons.2 ⟨hle, hrest.behind⟩
    · cases before with
      | nil =>
        obtain ⟨rfl, -⟩ := List.cons.inj hs
        exact stamp_eq_self hprev hahead
      | cons first before =>
        obtain ⟨rfl, htail⟩ := List.cons.inj hs
        refine hrest.kept before s after htail ?_ hahead
        cases hlast : before.getLast? <;> simpa [List.getLast?_cons, hlast] using hprev
    · rw [List.forall_mem_cons] at ht₀
      exact List.forall_mem_cons.2 ⟨le_stamp ht₀.1.1 ht₀.1.2, hrest.bounded t₀ ht₀.2⟩

end StampGuard

namespace Protocol

def Request.stamps : Request → List Int64
  | recordSingular _ _ stamp _ => [stamp]
  | recordAggregate _ _ _ stamp _ => [stamp]
  | recordSequence _ _ entries => entries.map SequenceEntry.stamp
  | _ => []

/-- A record is what a request asks for, but for the stamps. -/
inductive Request.Records : Request → List Int64 → Record → Prop
  | singular {event : Bytes} {id : EventId} (h : EventId.ofBytes event = .ok id)
      (user : UInt32) (asked given : Int64) (carried : Carried) :
    Records (.recordSingular user event asked carried) [given]
      (.singular ⟨user, id, given, carried.payload⟩)
  | aggregate {event : Bytes} {id : EventId} (h : EventId.ofBytes event = .ok id)
      {count : Int64} (hcount : 0 ≤ count) (user : UInt32) (asked given : Int64)
      (carried : Carried) :
    Records (.recordAggregate user event count asked carried) [given]
      (.aggregate ⟨user, id, count, given, carried.payload⟩)
  | sequence {event : Bytes} {id : EventId} (h : EventId.ofBytes event = .ok id)
      {entries : List SequenceEntry} (hentries : entries ≠ []) {points : List Point}
      (hpayload : points.map Point.payload = entries.map fun e => e.carried.payload)
      (user : UInt32) :
    Records (.recordSequence user event entries) (points.map Point.stamp)
      (.sequence ⟨user, id, points⟩)

/-- A request of a session and the host that it finds: between two requests anything may happen
there. -/
structure Arrival where
  host : Host
  request : Request
  deriving DecidableEq, Repr

namespace Arrival

def now (a : Arrival) : Int64 := a.host.daemon.clock.boot

/-- The stamps that the guard of a session is asked for. A request that is refused asks for none. -/
def asks (a : Arrival) (s : Session) : List (Int64 × Int64) :=
  if (a.host.execute s a.request).1.isOk then a.request.stamps.map (·, a.now) else []

def stampings (a : Arrival) (s : Session) : List Stamping := s.guard.stampings (a.asks s)

end Arrival

end Protocol

open Protocol

def Session.stampings (s : Session) : List Arrival → List Stamping
  | [] => []
  | a :: as => a.stampings s ++ (a.host.execute s a.request).2.1.stampings as

namespace Protocol.Arrival

/-- What comes of a request. Its event is recorded with the stamps that are given for it, or it is
refused and changes nothing, or it brings no stamps and leaves the session as it is. -/
inductive Settled (a : Arrival) (s : Session) (ss : List Stamping) : Prop
  | recorded {e : Record} {guard : StampGuard}
      (h : a.host.execute s a.request =
        (.ok .ok, { s with guard := guard }, { a.host with daemon := a.host.daemon.push e }))
      (hasks : ss.map (fun s => (s.asked, s.now)) = a.request.stamps.map (·, a.now))
      (hgiven : a.request.Records (ss.map Stamping.given) e)
  | refused {fault : RecorderError} (h : a.host.execute s a.request = (.error fault, s, a.host))
      (hnone : ss = [])
  | other (h : (a.host.execute s a.request).2.1 = s) (hstamps : a.request.stamps = [])
      (hnone : ss = [])

theorem stampAll_spec (now : Int64) (g : StampGuard) (points : List (Int64 × Payload)) :
    let asks := points.map fun p => (p.1, now)
    (Daemon.stampAll now g points).1.map Point.stamp = (g.stampings asks).map Stamping.given ∧
      (Daemon.stampAll now g points).1.map Point.payload = points.map Prod.snd ∧
      (Daemon.stampAll now g points).2 = g.after asks := by
  induction points generalizing g with
  | nil => exact ⟨rfl, rfl, rfl⟩
  | cons p points ih =>
    obtain ⟨hstamps, hpayloads, hguard⟩ := ih (g.apply p.1 now).2
    refine ⟨?_, ?_, ?_⟩
    · exact congrArg (g.stamp p.1 now :: ·) hstamps
    · exact congrArg (p.2 :: ·) hpayloads
    · exact hguard

variable {a : Arrival} {s : Session}

theorem asks_of_ok (h : (a.host.execute s a.request).1.isOk) :
    a.asks s = a.request.stamps.map (·, a.now) := if_pos h

theorem now_of_mem_asks {ask : Int64 × Int64} (h : ask ∈ a.asks s) : ask.2 = a.now := by
  unfold asks at h
  split at h
  · obtain ⟨stamp, -, rfl⟩ := List.mem_map.1 h
    rfl
  · cases h

theorem settled_of_recorded {result : Except RecorderError (Session × Daemon)}
    (hexecute : a.host.execute s a.request = a.host.recorded s result)
    (hok : ∀ s' d', result = .ok (s', d') →
      s' = { s with guard := s.guard.after (a.request.stamps.map (·, a.now)) } ∧
      ∃ e, d' = a.host.daemon.push e ∧ a.request.Records
        ((s.guard.stampings (a.request.stamps.map (·, a.now))).map Stamping.given) e) :
    a.Settled s (a.stampings s) ∧
      (a.host.execute s a.request).2.1 = { s with guard := s.guard.after (a.asks s) } := by
  cases result with
  | error fault =>
    have hasks : a.asks s = [] := by simp [asks, hexecute, Host.recorded, Except.isOk, Except.toBool]
    refine ⟨.refused hexecute (by simp [stampings, hasks]), ?_⟩
    rw [hexecute, hasks]
    rfl
  | ok after =>
    obtain ⟨s', d'⟩ := after
    obtain ⟨rfl, e, rfl, hrecords⟩ := hok s' d' rfl
    have hasks : a.asks s = a.request.stamps.map (·, a.now) := by
      apply asks_of_ok
      rw [hexecute]
      rfl
    rw [stampings, hasks]
    exact ⟨.recorded hexecute StampGuard.map_ask_stampings hrecords, by rw [hexecute]; rfl⟩

theorem settled_of_other (hstamps : a.request.stamps = [])
    (hsession : (a.host.execute s a.request).2.1 = s) :
    a.Settled s (a.stampings s) ∧
      (a.host.execute s a.request).2.1 = { s with guard := s.guard.after (a.asks s) } := by
  have hasks : a.asks s = [] := by simp [asks, hstamps]
  rw [stampings, hasks]
  exact ⟨.other hsession hstamps rfl, hsession⟩

theorem session_changed (h : Host) (s : Session) (result : Except RecorderError Daemon) :
    (h.changed s result).2.1 = s := by
  cases result <;> rfl

theorem settled_execute (a : Arrival) (s : Session) :
    a.Settled s (a.stampings s) ∧
      (a.host.execute s a.request).2.1 = { s with guard := s.guard.after (a.asks s) } := by
  obtain ⟨h, r⟩ := a
  cases r with
  | recordSingular user event stamp carried =>
    apply settled_of_recorded rfl
    intro s' d' hok
    obtain ⟨-, id, hid, rfl, rfl⟩ := Daemon.recordSingular_eq_ok hok
    exact ⟨rfl, _, rfl, .singular hid _ _ _ _⟩
  | recordAggregate user event count stamp carried =>
    apply settled_of_recorded rfl
    intro s' d' hok
    obtain ⟨-, id, hid, hcount, rfl, rfl⟩ := Daemon.recordAggregate_eq_ok hok
    exact ⟨rfl, _, rfl, .aggregate hid hcount _ _ _ _⟩
  | recordSequence user event entries =>
    apply settled_of_recorded rfl
    intro s' d' hok
    obtain ⟨-, id, hid, hentries, rfl, rfl⟩ := Daemon.recordSequence_eq_ok hok
    obtain ⟨hstamps, hpayloads, hguard⟩ :=
      stampAll_spec h.daemon.clock.boot s.guard (entries.map SequenceEntry.point)
    have hasks : (entries.map SequenceEntry.point).map (fun p => (p.1, h.daemon.clock.boot)) =
        (entries.map SequenceEntry.stamp).map (·, h.daemon.clock.boot) := by
      simp [SequenceEntry.point]
    rw [hasks] at hstamps hguard
    refine ⟨by rw [hguard]; rfl, _, rfl, ?_⟩
    have hrecords := Request.Records.sequence hid (by simpa using hentries)
      (hpayloads.trans (by simp [SequenceEntry.point])) user
    rw [hstamps] at hrecords
    exact hrecords
  | startTimer flags event carried =>
    apply settled_of_other rfl
    dsimp only [Host.execute]
    split <;> rfl
  | stopTimer handle => exact settled_of_other rfl rfl
  | uploadEvents => exact settled_of_other rfl rfl
  | getEnabled => exact settled_of_other rfl rfl
  | setEnabled enabled => exact settled_of_other rfl (session_changed h s _)
  | getUploading => exact settled_of_other rfl rfl
  | setUploading uploading => exact settled_of_other rfl (session_changed h s _)

end Protocol.Arrival

namespace Session

variable {s : Session} {as : List Arrival}

def asks (s : Session) : List Arrival → List (Int64 × Int64)
  | [] => []
  | a :: as => a.asks s ++ (a.host.execute s a.request).2.1.asks as

theorem stampings_eq (s : Session) (as : List Arrival) :
    s.stampings as = s.guard.stampings (s.asks as) := by
  induction as generalizing s with
  | nil => rfl
  | cons a as ih =>
    have hguard := (Arrival.settled_execute a s).2
    rw [stampings, asks, StampGuard.stampings_append, ih, hguard]
    rfl

theorem exists_of_mem_asks {ask : Int64 × Int64} (h : ask ∈ s.asks as) :
    ∃ a ∈ as, ask.2 = a.now := by
  induction as generalizing s with
  | nil => cases h
  | cons a as ih =>
    rcases List.mem_append.1 h with h | h
    · exact ⟨a, List.mem_cons_self, a.now_of_mem_asks h⟩
    · obtain ⟨b, hb, hnow⟩ := ih h
      exact ⟨b, List.mem_cons_of_mem a hb, hnow⟩

theorem pairwise_asks (h : as.Pairwise (·.now ≤ ·.now)) :
    (s.asks as).Pairwise (·.2 ≤ ·.2) := by
  induction as generalizing s with
  | nil => exact .nil
  | cons a as ih =>
    obtain ⟨hlater, hrest⟩ := List.pairwise_cons.1 h
    apply List.pairwise_append.2
    refine ⟨?_, ih hrest, fun x hx y hy => ?_⟩
    · apply List.pairwise_of_forall_mem_list
      intro x hx y hy
      rw [a.now_of_mem_asks hx, a.now_of_mem_asks hy]
      exact Int64.le_refl _
    · obtain ⟨b, hb, hnow⟩ := exists_of_mem_asks hy
      rw [a.now_of_mem_asks hx, hnow]
      exact hlater b hb

theorem now_of_mem_stampings {x : Stamping} (h : x ∈ s.stampings as) :
    ∃ a ∈ as, x.now = a.now := by
  have hask : (x.asked, x.now) ∈ s.asks as := by
    have hmap : (s.stampings as).map (fun x => (x.asked, x.now)) = s.asks as := by
      rw [stampings_eq]
      exact StampGuard.map_ask_stampings
    rw [← hmap]
    exact List.mem_map_of_mem h
  exact exists_of_mem_asks hask

end Session

namespace Protocol.Arrival

theorem now_le_last {as : List Arrival} (h : as.Pairwise (·.now ≤ ·.now)) {z : Int64}
    (hz : as.getLast?.map now = some z) : ∀ a ∈ as, a.now ≤ z := by
  obtain ⟨last, hlast, rfl⟩ := Option.map_eq_some_iff.1 hz
  obtain ⟨before, rfl⟩ := List.getLast?_eq_some_iff.1 hlast
  intro a ha
  rcases List.mem_append.1 ha with ha | ha
  · exact (List.pairwise_append.1 h).2.2 a ha last (List.mem_singleton_self last)
  · rw [List.mem_singleton.1 ha]
    exact Int64.le_refl _

/-- Over the requests of a session, with the host in any state at each but its clock never behind,
the stamps that are given do not decrease and are not ahead of their requests. A stamp between the
one before it and the clock is given as it is asked for, and what never falls below a moment when
asked for does not when it is given. -/
theorem stamps_ordered_and_bounded (client : ClientId) (user : UInt32) {as : List Arrival}
    (hclock : as.Pairwise (·.now ≤ ·.now)) :
    let ss := (Session.fresh client user).stampings as
    (∀ (a : Arrival) (s : Session), a.Settled s (a.stampings s)) ∧
    ss.Pairwise (·.given ≤ ·.given) ∧
    (∀ x ∈ ss, x.given ≤ x.now) ∧
    (∀ before x after, ss = before ++ x :: after →
      (∀ p, before.getLast? = some p → p.given ≤ x.asked) → x.asked ≤ x.now →
        x.given = x.asked) ∧
    ∀ t₀ z, as.getLast?.map now = some z → (∀ a ∈ as, t₀ ≤ a.now) → (∀ x ∈ ss, t₀ ≤ x.asked) →
      (∀ x ∈ ss, t₀ ≤ x.given ∧ x.given ≤ z) ∧
        ∀ x ∈ ss, ∀ y ∈ ss, y.given.toInt - x.given.toInt ≤ z.toInt - t₀.toInt := by
  intro ss
  have horderly : (Session.fresh client user).guard.Orderly ss := by
    simp only [ss, Session.stampings_eq]
    apply StampGuard.orderly_stampings (Session.pairwise_asks hclock)
    intro ask _
    rw [Session.fresh, StampGuard.floor_fresh]
    exact Int64.minValue_le ask.2
  obtain ⟨-, hsorted, hbehind, hkept, hbounded⟩ := horderly
  refine ⟨fun a s => (settled_execute a s).1, hsorted, hbehind,
    fun before x after hss hprev hahead => ?_, fun t₀ z hz hnow hasked => ?_⟩
  · apply hkept before x after hss ?_ hahead
    cases hlast : before.getLast? with
    | none => exact Int64.minValue_le x.asked
    | some p => exact hprev p hlast
  · have hwithin : ∀ x ∈ ss, t₀ ≤ x.given ∧ x.given ≤ z := by
      intro x hx
      obtain ⟨a, ha, hxa⟩ := Session.now_of_mem_stampings hx
      have hle := hbehind x hx
      rw [hxa] at hle
      refine ⟨hbounded t₀ (fun y hy => ⟨hasked y hy, ?_⟩) x hx,
        Int64.le_trans hle (now_le_last hclock hz a ha)⟩
      obtain ⟨b, hb, hyb⟩ := Session.now_of_mem_stampings hy
      rw [hyb]
      exact hnow b hb
    refine ⟨hwithin, fun x hx y hy => ?_⟩
    have hx' := Int64.le_iff_toInt_le.1 (hwithin x hx).1
    have hy' := Int64.le_iff_toInt_le.1 (hwithin y hy).2
    omega

theorem stamps_ordered_and_bounded_hostile :
    ∃ d, Daemon.assemble .standard .empty (.start .epoch) = .ok d ∧
      let on := d.turn true
      let full := { on with buffer := .empty 0 }
      let arrive (d : Daemon) (boot : Int64) (r : Request) : Arrival :=
        ⟨⟨{ d with clock := { d.clock with boot := boot } }, .fresh⟩, r⟩
      let event := List.replicate 16 3
      let as := [arrive on 1000 (.recordSingular 7 event Int64.maxValue ⟨false, .bool false⟩),
        arrive on 2000 (.recordAggregate 7 event (-1) 1900 ⟨false, .bool false⟩),
        arrive d 2500 (.recordSingular 7 event 2400 ⟨false, .bool false⟩),
        arrive full 3000 (.recordSequence 7 event
          [⟨-5, false, .bool false⟩, ⟨1500, true, .bool true⟩, ⟨9000, false, .bool false⟩]),
        arrive on 3000 (.recordAggregate 7 event 2 3000 ⟨false, .bool false⟩)]
      let ss := (Session.fresh ⟨1⟩ 1000).stampings as
      as.Pairwise (·.now ≤ ·.now) ∧
        ss.map Stamping.given = [1000, 1000, 1500, 3000, 3000] ∧
        ss.Pairwise (·.given ≤ ·.given) ∧ (∀ x ∈ ss, x.given ≤ x.now) ∧
        (∀ x ∈ ss, -5 ≤ x.given ∧ x.given ≤ 3000) := by
  have ha : Daemon.assemble .standard .empty (.start .epoch) = .ok _ := rfl
  refine ⟨_, ha, ?_⟩
  intro on full arrive event as ss
  have hclock : as.Pairwise (·.now ≤ ·.now) := by decide +kernel
  obtain ⟨-, hsorted, hbehind, -, hbounded⟩ := stamps_ordered_and_bounded ⟨1⟩ 1000 hclock
  have hwithin := (hbounded (-5) 3000 (by decide +kernel) (by decide +kernel) (by decide +kernel)).1
  exact ⟨hclock, by decide +kernel, hsorted, hbehind, hwithin⟩

end Protocol.Arrival

end Telemetry
