import Telemetry.Proofs.Tally.Counted
import Telemetry.Timer.Registry

namespace Telemetry.Timer

open Calendar Tally

/-- A stretch of a timer's time and the day it counts for. -/
structure Interval where
  event : EventId
  user : UInt32
  payload : Payload
  day : Date
  begun : Int
  ended : Int
  deriving DecidableEq, Repr

/-- The whole seconds of an interval, as many as 32 bits can hold. -/
def Interval.seconds (i : Interval) : Nat :=
  min ((i.ended - i.begun) / 1000000000).toNat (UInt32.size - 1)

def Interval.increment (i : Interval) : Increment :=
  ⟨i.event, i.day, i.user, i.payload, UInt32.ofNat i.seconds⟩

def Interval.dayKey (i : Interval) : Tally.Key :=
  ⟨Calendar.dayKey i.day, i.event, i.user.toNat, i.payload.store⟩

def Interval.monthKey (i : Interval) : Tally.Key :=
  ⟨Calendar.monthKey i.day, i.event.monthly, i.user.toNat, i.payload.store⟩

/-- A timer with the references to it. Its user and payload are those of its first start, and it
was begun at that start or at the last split. -/
structure Logical where
  key : Key
  user : UInt32
  payload : Payload
  begun : Int
  references : List TimerHandle
  deriving DecidableEq, Repr

namespace Logical

def interval (t : Logical) (ended : Int) (day : Date) : Interval :=
  ⟨t.key.event, t.user, t.payload, day, t.begun, ended⟩

def left (p : Logical → TimerHandle → Bool) (t : Logical) : List TimerHandle :=
  t.references.filter fun h => !p t h

def ends (p : Logical → TimerHandle → Bool) (t : Logical) : Bool := (t.left p).isEmpty

/-- The timer without the references that are given up; a timer with none ends. -/
def after (p : Logical → TimerHandle → Bool) (t : Logical) : Option Logical :=
  if t.ends p then none else some { t with references := t.left p }

end Logical

/-- Everything about the timers since the registry was empty. -/
structure Book where
  now : Int
  today : Date
  seen : Date
  given : Nat
  running : List Logical
  closed : List Interval
  deriving DecidableEq, Repr

namespace Book

/-- The seconds of all intervals that count under the key of a day. -/
def dayTotal (b : Book) (key : Tally.Key) : Nat :=
  sumOf (fun i => if i.dayKey = key then i.seconds else 0) b.closed

/-- The seconds of all intervals that count under the key of a month. -/
def monthTotal (b : Book) (key : Tally.Key) : Nat :=
  sumOf (fun i => if i.monthKey = key then i.seconds else 0) b.closed

def opened (now : Int) (today seen : Date) : Book := ⟨now, today, seen, 0, [], []⟩

def advance (b : Book) (nanoseconds : Nat) : Book := { b with now := b.now + nanoseconds }

def setToday (b : Book) (date : Date) : Book := { b with today := date }

def start (b : Book) (s : Start) : Book :=
  let handle : TimerHandle := ⟨UInt64.ofNat (b.given + 1)⟩
  { b with
    given := b.given + 1
    running :=
      if b.running.any (·.key = s.key) then
        b.running.map fun t =>
          if t.key = s.key then { t with references := t.references ++ [handle] } else t
      else b.running ++ [⟨s.key, s.user, s.payload, b.now, [handle]⟩] }

/-- References are given up, and the intervals of the timers that end with them count for today. -/
def release (b : Book) (p : Logical → TimerHandle → Bool) : Book :=
  { b with
    running := b.running.filterMap (Logical.after p)
    closed := b.closed ++ (b.running.filter (Logical.ends p)).map (·.interval b.now b.today) }

def stop (b : Book) (client : ClientId) (handle : TimerHandle) : Book :=
  b.release fun t h => t.key.client = client ∧ h = handle

def disconnect (b : Book) (client : ClientId) : Book := b.release fun t _ => t.key.client = client

def shutdown (b : Book) : Book := b.release fun _ _ => true

/-- On a new date all intervals end for the date seen before, and the next ones begin. -/
def rollover (b : Book) : Book :=
  if b.seen = b.today then b
  else
    { b with
      seen := b.today
      running := b.running.map fun t => { t with begun := b.now }
      closed := b.closed ++ b.running.map (·.interval b.now b.seen) }

end Book

theorem toNat_amount_increment (i : Interval) : i.increment.amount.toNat = i.seconds := by
  have hle : i.seconds ≤ UInt32.size - 1 := Nat.min_le_right _ _
  exact UInt32.toNat_ofNat_of_lt' (Nat.lt_of_le_pred (by decide) hle)

theorem dayPart_increment (i : Interval) (key : Tally.Key) :
    i.increment.dayPart key = if i.dayKey = key then i.seconds else 0 := by
  rw [Increment.dayPart, toNat_amount_increment]
  rfl

theorem monthPart_increment (i : Interval) (key : Tally.Key) :
    i.increment.monthPart key = if i.monthKey = key then i.seconds else 0 := by
  rw [Increment.monthPart, toNat_amount_increment]
  rfl

namespace Book

theorem dayTotal_eq (b : Book) (key : Tally.Key) :
    b.dayTotal key = sumOf (·.dayPart key) (b.closed.map Interval.increment) := by
  rw [sumOf_map]
  simp only [dayPart_increment]
  rfl

theorem monthTotal_eq (b : Book) (key : Tally.Key) :
    b.monthTotal key = sumOf (·.monthPart key) (b.closed.map Interval.increment) := by
  rw [sumOf_map]
  simp only [monthPart_increment]
  rfl

theorem monthTotal_dayKey (b : Book) (i : Interval) : b.monthTotal i.dayKey = 0 := by
  apply sumOf_eq_zero
  intro j _
  exact if_neg fun h => Increment.dayKeyOf_ne_monthKeyOf i.increment j.increment h.symm

theorem dayTotal_monthKey (b : Book) (i : Interval) : b.dayTotal i.monthKey = 0 := by
  apply sumOf_eq_zero
  intro j _
  exact if_neg (Increment.dayKeyOf_ne_monthKeyOf j.increment i.increment)

end Book

def Logical.of (e : Key × Running) : Logical :=
  ⟨e.1, e.2.user, e.2.payload, e.2.started.toInt, e.2.handles⟩

theorem increment_eq {e : Key × Running} {now : Int64} (hs : 0 ≤ e.2.started.toInt)
    (hn : 0 ≤ now.toInt) (day : Date) :
    e.2.increment e.1 now day = ((Logical.of e).interval now.toInt day).increment := by
  have hd : (now - e.2.started).toInt = now.toInt - e.2.started.toInt := by
    have hlt := now.toInt_lt
    have hlt' := e.2.started.toInt_lt
    rw [Int64.toInt_sub]
    apply Int.bmod_eq_of_le <;> omega
  have hsec : seconds e.2.started now =
      UInt32.ofNat ((Logical.of e).interval now.toInt day).seconds := by
    rw [seconds, hd]
    rfl
  rw [Running.increment, hsec]
  rfl

end Telemetry.Timer
