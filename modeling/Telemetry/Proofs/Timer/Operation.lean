import Mathlib.Algebra.Group.Nat.Defs
import Telemetry.Error
import Telemetry.Proofs.Timer.Ending

namespace Telemetry.Timer

open Calendar Tally

inductive Operation
  | start (s : Start)
  | stop (client : ClientId) (handle : TimerHandle)
  | disconnect (client : ClientId)
  | drain
  | purge
  | split (day : Date)
  deriving DecidableEq, Repr

def Operation.starts : Operation → Nat
  | start _ => 1
  | _ => 0

/-- An operation and what the clock reads when it is asked for. -/
structure Timed where
  operation : Operation
  now : Int64
  today : Date
  deriving DecidableEq, Repr

inductive Outcome
  | started (handle : TimerHandle)
  | released (i : Option Increment)
  | unknown (handle : TimerHandle)
  | yielded (is : List Increment)
  | dropped (timers : Nat)
  deriving DecidableEq, Repr

def Outcome.given? : Outcome → Option TimerHandle
  | started handle => some handle
  | _ => none

def starts (ts : List Timed) : Nat := sumOf (·.operation.starts) ts

theorem starts_cons (t : Timed) (ts : List Timed) :
    starts (t :: ts) = t.operation.starts + starts ts := rfl

namespace Registry

def perform (r : Registry) (t : Timed) : Outcome × Registry :=
  match t.operation with
  | .start s => (.started (r.start s t.now).1, (r.start s t.now).2)
  | .stop client handle =>
    match r.stop client handle t.now t.today with
    | some (i, r') => (.released i, r')
    | none => (.unknown handle, r)
  | .disconnect client =>
    (.yielded (r.disconnect client t.now t.today).1, (r.disconnect client t.now t.today).2)
  | .drain => (.yielded (r.drain t.now t.today).1, (r.drain t.now t.today).2)
  | .purge => (.dropped r.purge.1, r.purge.2)
  | .split day => (.yielded (r.split t.now day).1, (r.split t.now day).2)

def run (r : Registry) (ts : List Timed) : Registry := ts.foldl (fun r t => (r.perform t).2) r

@[simp] theorem run_cons (r : Registry) (t : Timed) (ts : List Timed) :
    r.run (t :: ts) = (r.perform t).2.run ts := rfl

theorem run_concat (r : Registry) (ts : List Timed) (t : Timed) :
    r.run (ts ++ [t]) = ((r.run ts).perform t).2 := List.foldl_append

variable {r : Registry}

theorem coherent_perform (hr : r.Coherent) (h0 : 0 < r.nextHandle.toNat) {t : Timed}
    (hn : r.nextHandle.toNat + t.operation.starts < UInt64.size) :
    (r.perform t).2.Coherent ∧
      (r.perform t).2.nextHandle.toNat = r.nextHandle.toNat + t.operation.starts := by
  obtain ⟨operation, now, today⟩ := t
  cases operation with
  | start s => exact ⟨coherent_start s now hr h0 hn, nextHandle_start s now hn⟩
  | stop client handle =>
    simp only [perform]
    split
    · next i r' hs =>
      obtain ⟨hr', hnext⟩ := coherent_stop hr hs
      exact ⟨hr', congrArg UInt64.toNat hnext⟩
    · exact ⟨hr, rfl⟩
  | disconnect client =>
    obtain ⟨hr', hnext⟩ := coherent_disconnect now today client hr
    exact ⟨hr', congrArg UInt64.toNat hnext⟩
  | drain => exact ⟨coherent_cleared r, rfl⟩
  | purge => exact ⟨coherent_cleared r, rfl⟩
  | split day => exact ⟨coherent_split hr now day, rfl⟩

theorem coherent_run (hr : r.Coherent) (h0 : 0 < r.nextHandle.toNat) {ts : List Timed}
    (hn : r.nextHandle.toNat + starts ts < UInt64.size) :
    (r.run ts).Coherent ∧ (r.run ts).nextHandle.toNat = r.nextHandle.toNat + starts ts := by
  induction ts generalizing r with
  | nil => exact ⟨hr, rfl⟩
  | cons t ts ih =>
    rw [starts_cons] at hn ⊢
    obtain ⟨hr', hnext⟩ := coherent_perform hr h0 (t := t) (by omega)
    obtain ⟨hrun, hlast⟩ := ih hr' (by omega) (by omega)
    refine ⟨hrun, ?_⟩
    rw [run_cons, hlast, hnext, Nat.add_assoc]

/-- Handles and timers lead to one another, no handle to two timers and no timer to no handle; the
keys listed for a client are those of its timers, and no list is empty; the numbers of handles in use
were given out. So a handle that is stopped is never found without its timer. -/
theorem indexes_agree (ts : List Timed) (hts : starts ts < 2 ^ 64 - 1) :
    let r := empty.run ts
    (∀ h k, r.handles.get? h = some k ↔ ∃ t, r.timers.get? k = some t ∧ h ∈ t.handles) ∧
    (∀ k t, r.timers.get? k = some t → t.handles ≠ []) ∧
    (∀ h k t k' t', r.timers.get? k = some t → h ∈ t.handles → r.timers.get? k' = some t' →
      h ∈ t'.handles → k = k') ∧
    (∀ c k, (∃ keys, r.clients.get? c = some keys ∧ k ∈ keys) ↔
      k.client = c ∧ ∃ t, r.timers.get? k = some t) ∧
    (∀ c, r.clients.get? c ≠ some []) ∧
    (∀ h k, r.handles.get? h = some k → 0 < h.number ∧ h.number < r.nextHandle) ∧
    ¬∃ h k, r.handles.get? h = some k ∧ r.timers.get? k = none := by
  intro r
  have hn : empty.nextHandle.toNat + starts ts < UInt64.size := by
    have h1 : empty.nextHandle.toNat = 1 := rfl
    have hsize : UInt64.size = 2 ^ 64 := rfl
    omega
  obtain ⟨hr, -⟩ := coherent_run coherent_empty (by decide) hn
  refine ⟨hr.handle, hr.held, fun h k t k' t' hk hm hk' hm' => hr.unique hk hm hk' hm',
    fun c k => ?_, hr.owns, fun h k hk => ?_, ?_⟩
  · rw [← Option.isSome_iff_exists, ← hr.owner, owned]
    cases r.clients.get? c <;> simp
  · obtain ⟨hpos, hlt⟩ := hr.given h k hk
    exact ⟨UInt64.lt_iff_toNat_lt.2 hpos, UInt64.lt_iff_toNat_lt.2 hlt⟩
  · rintro ⟨h, k, hk, hnone⟩
    obtain ⟨t, ht, -⟩ := (hr.handle h k).1 hk
    rw [hnone] at ht
    cases ht

def interleaved : List Timed :=
  [⟨.start ⟨⟨1⟩, 1000, .nil, ⟨0⟩, some (.bool true)⟩, 0, .epoch⟩,
   ⟨.start ⟨⟨2⟩, 1001, .nil, ⟨0⟩, none⟩, 1000000000, .epoch⟩,
   ⟨.start ⟨⟨1⟩, 1000, .nil, ⟨0⟩, none⟩, 2000000000, .epoch⟩,
   ⟨.stop ⟨2⟩ ⟨1⟩, 3000000000, .epoch⟩, ⟨.stop ⟨1⟩ ⟨1⟩, 3000000000, .epoch⟩,
   ⟨.split .epoch, 4000000000, .epoch⟩, ⟨.disconnect ⟨2⟩, 5000000000, .epoch⟩,
   ⟨.start ⟨⟨2⟩, 1001, .nil, ⟨0⟩, none⟩, 6000000000, .epoch⟩,
   ⟨.start ⟨⟨1⟩, 1000, .nil, ⟨7⟩, none⟩, 7000000000, .epoch⟩]

theorem indexes_agree_interleaved :
    starts interleaved < 2 ^ 64 - 1 ∧ (empty.run interleaved).timers.size = 3 ∧
      (∀ c, (empty.run interleaved).clients.get? c ≠ some []) ∧
      ¬∃ h k, (empty.run interleaved).handles.get? h = some k ∧
        (empty.run interleaved).timers.get? k = none := by
  have hstarts : starts interleaved < 2 ^ 64 - 1 := by decide
  obtain ⟨-, -, -, -, howns, -, hnone⟩ := indexes_agree interleaved hstarts
  exact ⟨hstarts, by decide, howns, hnone⟩

end Registry

end Telemetry.Timer
