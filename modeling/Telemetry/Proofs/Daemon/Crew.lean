import Telemetry.Proofs.Daemon.Effect
import Telemetry.Proofs.Timer.Ending
/-!
A daemon that any number of threads work on. A change of consent holds the gate's lock from the
change of the flags until its listeners have run. Starts, counts and sweeps of timers wait for it; a
stop notes the number of revocations and releases its handle without the lock. Calls whose steps
nothing comes between are the daemon's.
-/

namespace Telemetry

open Calendar Codec Consent Daemon Tally Timer

namespace Daemon

/-- What ends or splits many timers at once, and counts their time. -/
inductive Sweep
  | disconnect (client : ClientId)
  | rollover
  | finish
  deriving DecidableEq, Repr

def sweep (d : Daemon) : Sweep → Daemon
  | .disconnect client => d.disconnect client
  | .rollover => d.checkRollover.2
  | .finish => d.commitTimers.2

structure Swept (d d' : Daemon) : Prop where
  gate : d'.gate = d.gate
  config : d'.config = d.config
  keys : d'.timers.timers.keys ⊆ d.timers.timers.keys
  counted : d'.tally ≠ d.tally → ∃ is, d.tally.commit is = .ok d'.tally ∧
    ∀ i ∈ is, d.timers.Accrued d.clock.boot i

variable {d d' : Daemon}

theorem Swept.refl (d : Daemon) : Swept d d :=
  ⟨rfl, rfl, List.Subset.refl _, fun h => absurd rfl h⟩

theorem tally_of_commit {is : List Increment} (h : d.commit is = .ok d') :
    d.tally.commit is = .ok d'.tally := by
  rw [commit] at h
  split at h
  · next ht =>
    cases h
    exact ht
  · cases h

theorem swept_commitEnded (is : List Increment) (timers : Registry)
    (hk : timers.timers.keys ⊆ d.timers.timers.keys)
    (hi : ∀ i ∈ is, d.timers.Accrued d.clock.boot i) : Swept d (d.commitEnded is timers).2 := by
  unfold commitEnded
  dsimp only
  split
  · next h =>
    have ht := tally_of_commit h
    obtain ⟨tally, rfl⟩ := exists_tally_of_commit h
    exact ⟨rfl, rfl, hk, fun _ => ⟨is, ht, hi⟩⟩
  · exact ⟨rfl, rfl, hk, fun h => absurd rfl h⟩

theorem swept_sweep (d : Daemon) (w : Sweep) : Swept d (d.sweep w) := by
  cases w with
  | disconnect client =>
    rw [sweep, Daemon.disconnect]
    split
    · exact swept_commitEnded _ _ (Registry.keys_endAll_subset _ _ _)
        fun _ hi => Registry.accrued_disconnect hi
    · exact .refl d
  | rollover =>
    rw [sweep, checkRollover, splitTimers]
    split
    · exact .refl d
    · dsimp only
      split
      · have hs : Swept { d with lastDay := d.clock.today } _ :=
          swept_commitEnded (d.timers.split d.clock.boot d.lastDay).1
            (d.timers.split d.clock.boot d.lastDay).2
            (fun k hk => by rwa [Registry.split, Index.keys_mapValues] at hk)
            fun _ hi => Registry.accrued_increments hi
        exact ⟨hs.gate, hs.config, hs.keys, hs.counted⟩
      · exact ⟨rfl, rfl, List.Subset.refl _, fun h => absurd rfl h⟩
  | finish =>
    rw [sweep, commitTimers]
    split
    · exact swept_commitEnded _ _ (List.nil_subset _) fun _ hi => Registry.accrued_increments hi
    · exact .refl d

theorem settled_commitSince (d : Daemon) (generation : Nat) (i : Increment) :
    (d.settled (d.commitSince generation i)).2 = d ∨
      generation = d.gate.generation ∧ ∃ tally, d.tally.commit [i] = .ok tally ∧
        (d.settled (d.commitSince generation i)).2 = { d with tally := tally } := by
  rw [commitSince, since]
  split
  · next hc =>
    rw [Gate.current, Bool.and_eq_true, beq_iff_eq] at hc
    cases h : d.commit [i] with
    | error e => exact .inl rfl
    | ok d' =>
      have ht := tally_of_commit h
      obtain ⟨tally, rfl⟩ := exists_tally_of_commit h
      exact .inr ⟨hc.2.symm, tally, ht, rfl⟩
  · exact .inl rfl

end Daemon

/-- A stop that has an increment to count, and the numbers of the steps that started the timer,
noted the number of revocations, and released the handle. -/
structure Stopped where
  increment : Increment
  generation : Nat
  started : Nat
  noted : Nat
  released : Nat
  deriving DecidableEq, Repr

/-- Where a thread is in the call that it makes. -/
inductive Phase
  | idle
  | noted (s : Session) (handle : TimerHandle) (generation number : Nat)
  | released (r : Stopped)
  | turned (enabled : Bool)
  | purged
  deriving DecidableEq, Repr

def Phase.writes : Phase → Bool
  | turned _ | purged => true
  | _ => false

inductive Deed
  | start (s : Session) (flags : Flags) (event : Bytes) (payload : Payload)
  | sweep (w : Sweep)
  | advance (nanoseconds : Nat)
  | setToday (date : Date)
  | note (s : Session) (handle : TimerHandle)
  | release
  | count
  | turn (user : UInt32) (enabled : Bool)
  | purge
  | unlock
  deriving DecidableEq, Repr

/-- A daemon and the threads that work on it. Steps are numbered; no step asks for the numbers. -/
structure Crew where
  daemon : Daemon
  phase : Nat → Phase
  writer : Option Nat
  now : Nat
  /-- The latest step that revoked consent. -/
  revoked : Nat
  /-- The latest step that discarded what was recorded. -/
  purged : Nat
  started : Timer.Key → Nat

namespace Crew

def opened (d : Daemon) : Crew := ⟨d, fun _ => .idle, none, 1, 0, 0, fun _ => 0⟩

def goTo (c : Crew) (thread : Nat) (p : Phase) : Crew :=
  { c with phase := fun t => if t = thread then p else c.phase t }

def start (c : Crew) (s : Session) (flags : Flags) (event : Bytes) (payload : Payload) : Crew :=
  if c.writer.isSome then c
  else match c.daemon.startTimer s flags event payload with
    | .error _ => c
    | .ok (_, d) =>
      { c with
        daemon := d
        started := fun k => if k ∈ c.daemon.timers.timers.keys then c.started k else c.now }

def sweep (c : Crew) (w : Sweep) : Crew :=
  if c.writer.isSome then c else { c with daemon := c.daemon.sweep w }

def note (c : Crew) (thread : Nat) (s : Session) (handle : TimerHandle) : Crew :=
  match c.phase thread with
  | .idle => c.goTo thread (.noted s handle c.daemon.gate.generation c.now)
  | _ => c

/-- The step that started the timer of a handle. -/
def startOf (c : Crew) (handle : TimerHandle) : Nat :=
  ((c.daemon.timers.handles.get? handle).map c.started).getD 0

def release (c : Crew) (thread : Nat) : Crew :=
  match c.phase thread with
  | .noted s handle generation number =>
    match c.daemon.release s.client handle with
    | .error _ => c.goTo thread .idle
    | .ok (none, d) => { c with daemon := d }.goTo thread .idle
    | .ok (some i, d) =>
      { c with daemon := d }.goTo thread
        (.released ⟨i, generation, c.startOf handle, number, c.now⟩)
  | _ => c

def count (c : Crew) (thread : Nat) : Crew :=
  match c.phase thread with
  | .released r =>
    if c.writer.isSome then c
    else
      { c with daemon := (c.daemon.settled (c.daemon.commitSince r.generation r.increment)).2 }.goTo
        thread .idle
  | _ => c

def turn (c : Crew) (thread : Nat) (user : UInt32) (enabled : Bool) : Crew :=
  match c.phase thread with
  | .idle =>
    if c.writer = none ∧ c.daemon.gate.authority.allows user .setEnabled = true ∧
        c.daemon.gate.enabled ≠ enabled then
      { c with
        daemon := { c.daemon with gate := c.daemon.gate.turn enabled }
        writer := some thread
        revoked := if enabled then c.revoked else c.now }.goTo thread (.turned enabled)
    else c
  | _ => c

def purge (c : Crew) (thread : Nat) : Crew :=
  match c.phase thread with
  | .turned enabled =>
    { c with
      daemon := if c.daemon.config.discards && !enabled then c.daemon.discard else c.daemon
      purged := if enabled then c.purged else c.now }.goTo thread .purged
  | _ => c

def unlock (c : Crew) (thread : Nat) : Crew :=
  match c.phase thread with
  | .purged =>
    { c with daemon := { c.daemon with gate := c.daemon.gate.announce }, writer := none }.goTo
      thread .idle
  | _ => c

/-- A deed that has to wait, or that does not come next in its thread's call, changes nothing. -/
def act (c : Crew) (thread : Nat) : Deed → Crew
  | .start s flags event payload => c.start s flags event payload
  | .sweep w => c.sweep w
  | .advance nanoseconds => { c with daemon := c.daemon.advance nanoseconds }
  | .setToday date => { c with daemon := c.daemon.setToday date }
  | .note s handle => c.note thread s handle
  | .release => c.release thread
  | .count => c.count thread
  | .turn user enabled => c.turn thread user enabled
  | .purge => c.purge thread
  | .unlock => c.unlock thread

def step (c : Crew) (thread : Nat) (a : Deed) : Crew := { c.act thread a with now := c.now + 1 }

def run (c : Crew) (steps : List (Nat × Deed)) : Crew := steps.foldl (fun c e => c.step e.1 e.2) c

variable {c : Crew} {thread : Nat}

@[simp] theorem run_nil (c : Crew) : c.run [] = c := rfl

@[simp] theorem run_cons (c : Crew) (e : Nat × Deed) (steps : List (Nat × Deed)) :
    c.run (e :: steps) = (c.step e.1 e.2).run steps := rfl

theorem phase_goTo_self (c : Crew) (thread : Nat) (p : Phase) : (c.goTo thread p).phase thread = p :=
  if_pos rfl

/-- A stop whose steps nothing comes between is the daemon's. -/
theorem run_stop (hi : c.phase thread = .idle) (hw : c.writer = none) (s : Session)
    (handle : TimerHandle) :
    (c.run [(thread, .note s handle), (thread, .release), (thread, .count)]).daemon =
      (c.daemon.stopTimer s handle).2 := by
  simp only [run_cons, run_nil, step, act, note, hi, release, goTo, if_true]
  rw [stopTimer]
  cases hr : c.daemon.release s.client handle with
  | error e => simp [count]
  | ok result =>
    obtain ⟨i, d⟩ := result
    cases i with
    | none => simp [count]
    | some i => simp [count, hw, goTo]

/-- A change of consent whose steps nothing comes between is the daemon's. -/
theorem run_setEnabled (hi : c.phase thread = .idle) (hw : c.writer = none) (user : UInt32)
    (enabled : Bool) :
    (c.run [(thread, .turn user enabled), (thread, .purge), (thread, .unlock)]).daemon =
      (c.daemon.settled (c.daemon.setEnabled user enabled)).2 := by
  simp only [run_cons, run_nil, step, act, turn, hi, hw]
  rw [setEnabled]
  by_cases ha : c.daemon.gate.authority.allows user .setEnabled = true
  · by_cases he : c.daemon.gate.enabled = enabled
    · simp [Gate.authorize, ha, he, purge, unlock, hi, settled, bind, Except.bind, pure, Except.pure]
    · simp [Gate.authorize, ha, he, purge, unlock, goTo, settled, bind, Except.bind, pure,
        Except.pure, Daemon.turn]
  · simp [Gate.authorize, ha, purge, unlock, hi, settled, bind, Except.bind]

end Crew

end Telemetry
