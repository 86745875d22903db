import Telemetry.Proofs.Daemon.Revocation

namespace Telemetry

open Consent Protocol Upload

namespace Protocol

/-- Requests that bring in something to keep. -/
def Request.collects : Request → Bool
  | recordSingular .. | recordAggregate .. | recordSequence .. | startTimer .. => true
  | _ => false

structure Atomic (h : Host) (s : Session)
    (outcome : Except RecorderError Response × Session × Host) : Prop where
  answers : ∀ reply, outcome.1 ≠ .ok (.error reply)
  unchanged : ∀ e, outcome.1 = .error e → e.kind ≠ .storageFailure → outcome.2 = (s, h)

variable {h : Host} {s : Session}

theorem Atomic.of_ok {response : Response} (hr : ∀ reply, response ≠ .error reply)
    (after : Session × Host) : Atomic h s (.ok response, after) :=
  ⟨fun reply hok => hr reply (Except.ok.inj hok), fun _ he => (nomatch he)⟩

theorem Atomic.of_error (e : RecorderError) : Atomic h s (.error e, s, h) :=
  ⟨fun _ hok => (nomatch hok), fun _ _ _ => rfl⟩

theorem atomic_recorded (result : Except RecorderError (Session × Daemon)) :
    Atomic h s (h.recorded s result) := by
  cases result with
  | ok after => exact .of_ok (by simp) _
  | error e => exact .of_error e

theorem atomic_changed (result : Except RecorderError Daemon) :
    Atomic h s (h.changed s result) := by
  cases result with
  | ok d => exact .of_ok (by simp) _
  | error e => exact .of_error e

end Protocol

namespace Daemon

theorem Discreet.enabled_of_release {d d' : Daemon} (hd : d.Discreet) {client : ClientId}
    {handle : TimerHandle} {i : Option Tally.Increment}
    (hr : d.release client handle = .ok (i, d')) : d.gate.enabled = true := by
  cases hon : d.gate.enabled with
  | true => rfl
  | false =>
    have hpos := (release_ok hr).1
    rw [(hd.holdsNothing hon).handles] at hpos
    cases hpos

theorem Discreet.stopTimer_error {d : Daemon} (hd : d.Discreet) {s : Session} {handle : TimerHandle}
    {e : RecorderError} (he : (d.stopTimer s handle).1 = .error e) (hk : e.kind ≠ .storageFailure) :
    (d.stopTimer s handle).2 = d := by
  unfold stopTimer at he ⊢
  dsimp only at he ⊢
  split at he
  · rfl
  · cases he
  · next i d' hr =>
    obtain ⟨-, timers, rfl⟩ := release_ok hr
    have hcur : d.gate.current d.gate.generation = true := by
      simp [Gate.current, hd.enabled_of_release hr]
    rw [commitSince, since, if_pos hcur, commit] at he
    split at he
    · cases he
    · cases he
      exact absurd rfl hk

theorem Discreet.stopTimer_disabled {d : Daemon} (hd : d.Discreet) (hoff : d.gate.enabled = false)
    (s : Session) (handle : TimerHandle) :
    d.stopTimer s handle = (.error (.unknownHandle handle), d) := by
  cases hr : d.release s.client handle with
  | ok p =>
    rw [hd.enabled_of_release hr] at hoff
    cases hoff
  | error e =>
    have he : e = .unknownHandle handle := by
      rw [release] at hr
      split at hr <;> cases hr
      rfl
    rw [stopTimer, hr, he]

end Daemon

namespace Protocol

variable {h : Host} {s : Session} {r : Request}

theorem atomic_execute (hd : h.daemon.Discreet) (hr : r ≠ .uploadEvents) :
    Atomic h s (h.execute s r) := by
  cases r with
  | recordSingular | recordAggregate | recordSequence => exact atomic_recorded _
  | startTimer flags event carried =>
    rw [Host.execute]
    split
    · exact .of_ok (by simp) _
    · exact .of_error _
  | stopTimer handle =>
    constructor
    · intro reply hok
      rw [Host.execute] at hok
      cases hs : (h.daemon.stopTimer s handle).1 <;> simp [hs, Except.map] at hok
    · intro e he hk
      have hs : (h.daemon.stopTimer s handle).1 = .error e := by
        rw [Host.execute] at he
        cases hs : (h.daemon.stopTimer s handle).1 <;> simp_all [Except.map]
      have hsame := hd.stopTimer_error hs hk
      change (s, ({ h with daemon := (h.daemon.stopTimer s handle).2 } : Host)) = (s, h)
      rw [hsame]
  | uploadEvents => exact absurd rfl hr
  | getEnabled | getUploading => exact .of_ok (by simp) _
  | setEnabled | setUploading => exact atomic_changed _

theorem dispatch_error (ha : Atomic h s (h.execute s r)) {reply : ErrorReply}
    (he : (h.dispatch s r).1 = .error reply) (hk : reply.kind ≠ .storageFailure) :
    (h.dispatch s r).2 = (s, h) := by
  rw [Host.dispatch] at he ⊢
  split at he
  · next response s' h' hx =>
    rw [hx] at ha
    exact absurd (congrArg Except.ok he) (ha.answers reply)
  · next e s' h' hx =>
    rw [hx] at ha
    cases he
    exact ha.unchanged e rfl hk

theorem dispatch_collects (hoff : h.daemon.gate.enabled = false) (hr : r.collects = true) :
    h.dispatch s r = (.ofError .disabled, s, h) := by
  cases r with
  | recordSingular | recordAggregate | recordSequence | startTimer =>
    simp [Host.dispatch, Host.execute, Host.recorded, Daemon.recordSingular,
      Daemon.recordAggregate, Daemon.recordSequence, Daemon.startTimer, Daemon.whileEnabled, hoff]
  | _ => cases hr

end Protocol

namespace Site

open Daemon

/-- Whatever the daemon has been through and whoever asks: an answer that is an error, and not of
the disk, leaves all as it was. -/
theorem refusals_atomic {config : Daemon.Config} {disk : Disk} {clock : Clock} {d : Daemon}
    (ha : assemble config disk clock = .ok d) (hd : config.discards = true) (acts : List Act)
    (c : Collector) (s : Session) {r : Request} (hr : r ≠ .uploadEvents) :
    let h : Host := ⟨((opened d).run acts).daemon, c⟩
    (∀ reply, (h.dispatch s r).1 = .error reply → reply.kind ≠ .storageFailure →
        (h.dispatch s r).2 = (s, h)) ∧
      (h.daemon.gate.enabled = false →
        (r.collects = true → h.dispatch s r = (.ofError .disabled, s, h)) ∧
        ∀ handle, r = .stopTimer handle →
          h.dispatch s r = (.ofError (.unknownHandle handle), s, h)) := by
  intro h
  have hdis : h.daemon.Discreet := discreet_run (w := opened d) (Discreet.of_assemble ha hd) acts
  refine ⟨fun reply he hk => dispatch_error (atomic_execute hdis hr) he hk, fun hoff => ⟨?_, ?_⟩⟩
  · exact dispatch_collects hoff
  · rintro handle rfl
    rw [Host.dispatch, Host.execute, hdis.stopTimer_disabled hoff]
    rfl

def oneTimer : List Act :=
  [.request (.fresh ⟨0⟩ 0) (.setEnabled true),
   .request (.fresh ⟨1⟩ 1000) (.startTimer 0 (List.replicate 16 3) ⟨false, .bool false⟩)]

theorem refusals_atomic_stranger :
    ∃ d, assemble .standard .empty (.start .epoch) = .ok d ∧
      Daemon.Config.standard.discards = true ∧
      (let h : Host := ⟨((opened d).run oneTimer).daemon, .fresh⟩
      h.daemon.timers.count = 1 ∧ h.dispatch (.fresh ⟨2⟩ 1000) (.stopTimer ⟨1⟩) =
        (.ofError (.unknownHandle ⟨1⟩), .fresh ⟨2⟩ 1000, h)) ∧
      let h : Host :=
        ⟨((opened d).run (oneTimer ++ [.request (.fresh ⟨0⟩ 0) (.setEnabled false)])).daemon,
          .fresh⟩
      h.dispatch (.fresh ⟨2⟩ 1000) (.recordAggregate 1000 [3] (-1) 5 ⟨false, .bool false⟩) =
        (.ofError .disabled, .fresh ⟨2⟩ 1000, h) := by
  have ha : assemble .standard .empty (.start .epoch) = .ok _ := rfl
  have hd : Daemon.Config.standard.discards = true := rfl
  refine ⟨_, ha, hd, ⟨by decide, ?_⟩, ?_⟩
  · have hstop := refusals_atomic ha hd oneTimer .fresh (.fresh ⟨2⟩ 1000)
      (r := .stopTimer ⟨1⟩) (by decide)
    exact Prod.ext rfl (hstop.1 _ rfl (by decide))
  · have hcount := refusals_atomic ha hd
      (oneTimer ++ [.request (.fresh ⟨0⟩ 0) (.setEnabled false)]) .fresh (.fresh ⟨2⟩ 1000)
      (r := .recordAggregate 1000 [3] (-1) 5 ⟨false, .bool false⟩) (by decide)
    exact (hcount.2 (by decide)).1 rfl

end Site

end Telemetry
