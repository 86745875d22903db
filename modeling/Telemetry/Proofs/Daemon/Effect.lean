import Telemetry.Protocol.Server

namespace Telemetry

open Calendar Consent Event Timer Protocol

namespace Daemon

inductive Effect (d : Daemon) : Daemon → Prop
  | quiet (clock : Clock) (outbox : Outbox) (consentFile sendFile : Entry) (lastDay : Date) :
    Effect d { d with
      clock := clock
      gate := { d.gate with outbox := outbox }
      consentFile := consentFile
      sendFile := sendFile
      lastDay := lastDay }
  | timed (timers : Registry) (tally : Tally.Store) (lastDay : Date)
      (h : d.gate.enabled = true ∨ 0 < d.timers.handleCount ∧ tally = d.tally) :
    Effect d { d with timers := timers, tally := tally, lastDay := lastDay }
  | permitted (uploading : Bool) (outbox : Outbox) (h : d.gate.enabled = true) :
    Effect d { d with
      gate := { d.gate with state := { d.gate.state with uploading := uploading }, outbox := outbox } }
  | turned (enabled : Bool) (h : d.gate.enabled ≠ enabled) : Effect d (d.turn enabled)

variable {d d' : Daemon}

theorem Effect.refl (d : Daemon) : Effect d d :=
  .quiet d.clock d.gate.outbox d.consentFile d.sendFile d.lastDay

theorem gate_turn (d : Daemon) (enabled : Bool) :
    (d.turn enabled).gate = (d.gate.turn enabled).announce := by
  rw [turn]
  dsimp only
  split <;> rfl

theorem effect_advance (d : Daemon) (nanoseconds : Nat) : Effect d (d.advance nanoseconds) :=
  .quiet (d.clock.advance nanoseconds) d.gate.outbox d.consentFile d.sendFile d.lastDay

theorem effect_setToday (d : Daemon) (date : Date) : Effect d (d.setToday date) :=
  .quiet (d.clock.setToday date) d.gate.outbox d.consentFile d.sendFile d.lastDay

theorem effect_closeOutbox (d : Daemon) : Effect d d.closeOutbox :=
  .quiet d.clock (d.gate.outbox.close d.consentFile).1 (d.gate.outbox.close d.consentFile).2
    d.sendFile d.lastDay

theorem exists_tally_of_commit {is : List Tally.Increment} (h : d.commit is = .ok d') :
    ∃ tally, d' = { d with tally := tally } := by
  rw [commit] at h
  split at h
  · next tally _ =>
    cases h
    exact ⟨tally, rfl⟩
  · cases h

theorem snd_commitEnded (d : Daemon) (is : List Tally.Increment) (timers : Registry) :
    (d.commitEnded is timers).2 =
      { d with timers := timers, tally := (d.tally.commit is).toOption.getD d.tally } := by
  rw [commitEnded, commit]
  cases d.tally.commit is <;> rfl

theorem exists_tally_commitEnded (d : Daemon) (is : List Tally.Increment) (timers : Registry) :
    ∃ tally, (d.commitEnded is timers).2 = { d with timers := timers, tally := tally } :=
  ⟨_, snd_commitEnded d is timers⟩

theorem of_whileEnabled {α : Type} {work : Except RecorderError α} {x : α}
    (h : d.whileEnabled work = .ok x) : d.gate.enabled = true ∧ work = .ok x := by
  rw [whileEnabled] at h
  split at h
  · next hon => exact ⟨hon, h⟩
  · cases h

theorem ofBytes_of_eventId {event : Codec.Bytes} {id : EventId} (h : eventId event = .ok id) :
    EventId.ofBytes event = .ok id := by
  rw [eventId] at h
  split at h
  · next hid =>
    cases h
    exact hid
  · cases h

theorem timers_of_startTimer {s : Session} {flags : Flags} {event : Codec.Bytes} {payload : Payload}
    {handle : TimerHandle} (h : d.startTimer s flags event payload = .ok (handle, d')) :
    d.gate.enabled = true ∧
      ∃ start, d' = { d with timers := (d.timers.start start d.clock.boot).2 } := by
  obtain ⟨hon, hw⟩ := of_whileEnabled h
  cases he : eventId event with
  | error e =>
    rw [he] at hw
    cases hw
  | ok id =>
    rw [he] at hw
    cases hw
    exact ⟨hon, _, rfl⟩

theorem release_ok {client : ClientId} {handle : TimerHandle} {i : Option Tally.Increment}
    (h : d.release client handle = .ok (i, d')) :
    0 < d.timers.handleCount ∧ ∃ timers, d' = { d with timers := timers } := by
  rw [release] at h
  split at h
  · cases h
  · next timers hs =>
    cases h
    refine ⟨?_, timers, rfl⟩
    rw [Registry.stop] at hs
    split at hs
    · cases hs
    · next key hk =>
      cases he : d.timers.handles.entries with
      | nil => simp [Index.get?, he, Index.find] at hk
      | cons e es => simp [Registry.handleCount, Index.size, he]

theorem effect_stopTimer (d : Daemon) (s : Session) (handle : TimerHandle) :
    Effect d (d.stopTimer s handle).2 := by
  unfold stopTimer
  dsimp only
  split
  · exact .refl d
  · next h =>
    obtain ⟨hh, timers, rfl⟩ := release_ok h
    exact .timed timers d.tally d.lastDay (.inr ⟨hh, rfl⟩)
  · next i _ h =>
    obtain ⟨hh, timers, rfl⟩ := release_ok h
    unfold settled commitSince since
    split
    · next hc =>
      split at hc
      · next hcur =>
        have hon : d.gate.enabled = true := by
          simp only [Gate.current, Bool.and_eq_true] at hcur
          exact hcur.1
        obtain ⟨tally, rfl⟩ := exists_tally_of_commit hc
        exact .timed timers tally d.lastDay (.inl hon)
      · cases hc
    · exact .timed timers d.tally d.lastDay (.inr ⟨hh, rfl⟩)

theorem effect_commitEnded (hon : d.gate.enabled = true) (is : List Tally.Increment)
    (timers : Registry) : Effect d (d.commitEnded is timers).2 := by
  obtain ⟨tally, h⟩ := exists_tally_commitEnded d is timers
  rw [h]
  exact .timed timers tally d.lastDay (.inl hon)

theorem effect_disconnect (d : Daemon) (client : ClientId) : Effect d (d.disconnect client) := by
  rw [disconnect]
  split
  · next hon => exact effect_commitEnded hon _ _
  · exact .refl d

theorem effect_commitTimers (d : Daemon) : Effect d d.commitTimers.2 := by
  rw [commitTimers]
  split
  · next hon => exact effect_commitEnded hon _ _
  · exact .refl d

theorem effect_checkRollover (d : Daemon) : Effect d d.checkRollover.2 := by
  rw [checkRollover, splitTimers]
  split
  · exact .refl d
  · dsimp only
    split
    · next hon =>
      obtain ⟨tally, h⟩ := exists_tally_commitEnded { d with lastDay := d.clock.today }
        (d.timers.split d.clock.boot d.lastDay).1 (d.timers.split d.clock.boot d.lastDay).2
      rw [h]
      exact .timed _ tally d.clock.today (.inl hon)
    · exact .quiet d.clock d.gate.outbox d.consentFile d.sendFile d.clock.today

theorem settled_setEnabled (d : Daemon) (user : UInt32) (enabled : Bool) :
    (d.settled (d.setEnabled user enabled)).2 = d ∨
      d.gate.enabled ≠ enabled ∧ (d.settled (d.setEnabled user enabled)).2 = d.turn enabled := by
  rw [setEnabled]
  cases d.gate.authorize user .setEnabled with
  | error e => exact .inl rfl
  | ok =>
    by_cases he : d.gate.enabled = enabled
    · exact .inl (if_pos he)
    · exact .inr ⟨he, if_neg he⟩

theorem settled_setUploading (d : Daemon) (user : UInt32) (uploading : Bool) :
    (d.settled (d.setUploading user uploading)).2 = d ∨
      d.gate.enabled = true ∧ d.gate.state.uploading ≠ uploading ∧
        (d.settled (d.setUploading user uploading)).2 = { d with
          gate := Gate.announce
            { d.gate with state := { d.gate.state with uploading := uploading } } } := by
  rw [setUploading, Gate.setUploading]
  cases d.gate.authorize user .setUploading with
  | error e => exact .inl rfl
  | ok =>
    cases hon : d.gate.state.enabled with
    | false => exact .inl rfl
    | true =>
      by_cases hu : d.gate.state.uploading = uploading
      · simp only [bind, Except.bind, hu, if_true]
        exact .inl rfl
      · simp only [bind, Except.bind, hu, if_false]
        exact .inr ⟨hon, hu, rfl⟩

theorem effect_setEnabled (d : Daemon) (user : UInt32) (enabled : Bool) :
    Effect d (d.settled (d.setEnabled user enabled)).2 := by
  obtain h | ⟨hne, h⟩ := settled_setEnabled d user enabled
  · rw [h]
    exact .refl d
  · rw [h]
    exact .turned enabled hne

theorem effect_setUploading (d : Daemon) (user : UInt32) (uploading : Bool) :
    Effect d (d.settled (d.setUploading user uploading)).2 := by
  obtain h | ⟨hon, -, h⟩ := settled_setUploading d user uploading
  · rw [h]
    exact .refl d
  · rw [h]
    exact .permitted uploading _ hon

section Recording

variable {s s' : Session} {user : UInt32} {event : Codec.Bytes} {count stamp : Int64}
  {payload : Payload} {points : List (Int64 × Payload)}

theorem recordSingular_eq_ok
    (h : d.recordSingular s user event stamp payload = .ok (s', d')) :
    d.gate.enabled = true ∧ ∃ id, EventId.ofBytes event = .ok id ∧
      s' = { s with guard := (s.guard.apply stamp d.clock.boot).2 } ∧
      d' = d.push (.singular ⟨user, id, s.guard.stamp stamp d.clock.boot, payload⟩) := by
  obtain ⟨hon, hw⟩ := of_whileEnabled h
  cases he : eventId event with
  | error e =>
    rw [he] at hw
    cases hw
  | ok id =>
    rw [he] at hw
    cases hw
    exact ⟨hon, id, ofBytes_of_eventId he, rfl, rfl⟩

theorem recordAggregate_eq_ok
    (h : d.recordAggregate s user event count stamp payload = .ok (s', d')) :
    d.gate.enabled = true ∧ ∃ id, EventId.ofBytes event = .ok id ∧ 0 ≤ count ∧
      s' = { s with guard := (s.guard.apply stamp d.clock.boot).2 } ∧
      d' = d.push (.aggregate ⟨user, id, count, s.guard.stamp stamp d.clock.boot, payload⟩) := by
  obtain ⟨hon, hw⟩ := of_whileEnabled h
  cases he : eventId event with
  | error e =>
    rw [he] at hw
    cases hw
  | ok id =>
    rw [he] at hw
    by_cases hc : count < 0
    · simp [hc, bind, Except.bind] at hw
    · simp only [hc, if_false, bind, Except.bind] at hw
      cases hw
      exact ⟨hon, id, ofBytes_of_eventId he, Int64.not_lt.1 hc, rfl, rfl⟩

theorem recordSequence_eq_ok (h : d.recordSequence s user event points = .ok (s', d')) :
    d.gate.enabled = true ∧ ∃ id, EventId.ofBytes event = .ok id ∧ points ≠ [] ∧
      s' = { s with guard := (stampAll d.clock.boot s.guard points).2 } ∧
      d' = d.push (.sequence ⟨user, id, (stampAll d.clock.boot s.guard points).1⟩) := by
  obtain ⟨hon, hw⟩ := of_whileEnabled h
  cases he : eventId event with
  | error e =>
    rw [he] at hw
    cases hw
  | ok id =>
    rw [he] at hw
    by_cases hp : points.isEmpty
    · simp [hp, bind, Except.bind] at hw
    · simp only [hp, bind, Except.bind] at hw
      cases hw
      exact ⟨hon, id, ofBytes_of_eventId he, fun hnil => hp (by simp [hnil]), rfl, rfl⟩

theorem push_of_recordSingular
    (h : d.recordSingular s user event stamp payload = .ok (s', d')) :
    d.gate.enabled = true ∧ s'.client = s.client ∧ ∃ r, d' = d.push r := by
  obtain ⟨hon, id, -, rfl, rfl⟩ := recordSingular_eq_ok h
  exact ⟨hon, rfl, _, rfl⟩

theorem push_of_recordAggregate
    (h : d.recordAggregate s user event count stamp payload = .ok (s', d')) :
    d.gate.enabled = true ∧ s'.client = s.client ∧ ∃ r, d' = d.push r := by
  obtain ⟨hon, id, -, -, rfl, rfl⟩ := recordAggregate_eq_ok h
  exact ⟨hon, rfl, _, rfl⟩

theorem push_of_recordSequence (h : d.recordSequence s user event points = .ok (s', d')) :
    d.gate.enabled = true ∧ s'.client = s.client ∧ ∃ r, d' = d.push r := by
  obtain ⟨hon, id, -, -, rfl, rfl⟩ := recordSequence_eq_ok h
  exact ⟨hon, rfl, _, rfl⟩

end Recording

theorem snd_dispatch (h : Host) (s : Session) (r : Request) :
    (h.dispatch s r).2 = (h.execute s r).2 := by
  rw [Host.dispatch]
  split <;> next he => rw [he]

theorem host_dispatch (h : Host) (s : Session) (r : Request) :
    (h.dispatch s r).2.2 = (h.execute s r).2.2 := congrArg Prod.snd (snd_dispatch h s r)

theorem dispatch_setEnabled (d : Daemon) (c : Upload.Collector) (s : Session) (enabled : Bool) :
    ((⟨d, c⟩ : Host).dispatch s (.setEnabled enabled)).2.2.daemon =
      (d.settled (d.setEnabled s.user enabled)).2 := by
  rw [host_dispatch]
  simp only [Host.execute, Host.changed, settled]
  cases d.setEnabled s.user enabled <;> rfl

theorem dispatch_setUploading (d : Daemon) (c : Upload.Collector) (s : Session) (uploading : Bool) :
    ((⟨d, c⟩ : Host).dispatch s (.setUploading uploading)).2.2.daemon =
      (d.settled (d.setUploading s.user uploading)).2 := by
  rw [host_dispatch]
  simp only [Host.execute, Host.changed, settled]
  cases d.setUploading s.user uploading <;> rfl

/-- What a request other than for an upload does. Only a stop ends a timer, and it has a form of its
own. -/
inductive Served (d : Daemon) (s : Session) : Request → Daemon → Prop
  | recorded {r : Request} (hr : ∀ handle, r ≠ .stopTimer handle) (hon : d.gate.enabled = true)
      (e : Record) : Served d s r (d.push e)
  | started {r : Request} (hr : ∀ handle, r ≠ .stopTimer handle) (hon : d.gate.enabled = true)
      (start : Start) : Served d s r { d with timers := (d.timers.start start d.clock.boot).2 }
  | stopped (handle : TimerHandle) : Served d s (.stopTimer handle) (d.stopTimer s handle).2
  | turned (enabled : Bool) :
    Served d s (.setEnabled enabled) (d.settled (d.setEnabled s.user enabled)).2
  | permitted (uploading : Bool) :
    Served d s (.setUploading uploading) (d.settled (d.setUploading s.user uploading)).2
  | unchanged {r : Request} (hr : ∀ handle, r ≠ .stopTimer handle) : Served d s r d

theorem served_recorded {c : Upload.Collector} {s : Session} {r : Request}
    {result : Except RecorderError (Session × Daemon)} (hr : ∀ handle, r ≠ .stopTimer handle)
    (hp : ∀ s' d', result = .ok (s', d') →
      d.gate.enabled = true ∧ s'.client = s.client ∧ ∃ e, d' = d.push e) :
    Served d s r ((⟨d, c⟩ : Host).recorded s result).2.2.daemon := by
  cases result with
  | ok after =>
    obtain ⟨s', d'⟩ := after
    obtain ⟨hon, -, e, rfl⟩ := hp s' d' rfl
    exact .recorded hr hon e
  | error e => exact .unchanged hr

theorem served_dispatch (d : Daemon) (c : Upload.Collector) (s : Session) {r : Request}
    (hr : r ≠ .uploadEvents) : Served d s r ((⟨d, c⟩ : Host).dispatch s r).2.2.daemon := by
  cases r with
  | recordSingular =>
    rw [host_dispatch]
    exact served_recorded (by simp) fun _ _ h => push_of_recordSingular h
  | recordAggregate =>
    rw [host_dispatch]
    exact served_recorded (by simp) fun _ _ h => push_of_recordAggregate h
  | recordSequence =>
    rw [host_dispatch]
    exact served_recorded (by simp) fun _ _ h => push_of_recordSequence h
  | startTimer flags event carried =>
    rw [host_dispatch, Host.execute]
    dsimp only
    split
    · next h =>
      obtain ⟨hon, start, rfl⟩ := timers_of_startTimer h
      exact .started (by simp) hon start
    · exact .unchanged (by simp)
  | stopTimer handle =>
    rw [host_dispatch]
    exact .stopped handle
  | uploadEvents => exact absurd rfl hr
  | getEnabled => exact .unchanged (by simp)
  | setEnabled enabled =>
    rw [dispatch_setEnabled]
    exact .turned enabled
  | getUploading => exact .unchanged (by simp)
  | setUploading uploading =>
    rw [dispatch_setUploading]
    exact .permitted uploading

/-- A request other than for an upload records one event at most, or has an effect of the forms
above. -/
theorem dispatch_cases (d : Daemon) (c : Upload.Collector) (s : Session) {r : Request}
    (hr : r ≠ .uploadEvents) :
    (d.gate.enabled = true ∧ ∃ e, ((⟨d, c⟩ : Host).dispatch s r).2.2.daemon = d.push e) ∨
      Effect d ((⟨d, c⟩ : Host).dispatch s r).2.2.daemon := by
  have hserved := served_dispatch d c s hr
  generalize ((⟨d, c⟩ : Host).dispatch s r).2.2.daemon = d' at hserved ⊢
  cases hserved with
  | recorded _ hon e => exact .inl ⟨hon, e, rfl⟩
  | started _ hon start => exact .inr (.timed _ d.tally d.lastDay (.inl hon))
  | stopped handle => exact .inr (effect_stopTimer d s handle)
  | turned enabled => exact .inr (effect_setEnabled d s.user enabled)
  | permitted uploading => exact .inr (effect_setUploading d s.user uploading)
  | unchanged => exact .inr (.refl d)

end Daemon

end Telemetry
