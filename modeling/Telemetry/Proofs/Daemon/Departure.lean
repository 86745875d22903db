import Telemetry.Proofs.Daemon.Staleness
import Telemetry.Proofs.Timer.Mirror

namespace Telemetry

open Calendar Consent Protocol Tally Timer Upload

namespace Timer.Registry

variable {r r' : Registry}

structure Rostered (r : Registry) : Prop extends Listed r where
  keys : r.timers.keys.Nodup

theorem rostered_cleared (r : Registry) : r.cleared.Rostered :=
  ⟨(coherent_cleared r).toListed, (coherent_cleared r).keys⟩

theorem rostered_start (hr : r.Rostered) (s : Start) (now : Int64) : (r.start s now).2.Rostered :=
  ⟨listed_start s now hr.toListed, Index.nodup_keys_alter _ _ _ hr.keys⟩

theorem rostered_stop (hr : r.Rostered) {client : ClientId} {handle : TimerHandle} {now : Int64}
    {today : Date} {i : Option Increment} (h : r.stop client handle now today = some (i, r')) :
    r.timers.entries ≠ [] ∧ r'.Rostered := by
  obtain ⟨k, t, -, -, ht, hcases⟩ := stop_cases h
  refine ⟨List.ne_nil_of_mem (Index.mem_of_get? ht), ?_⟩
  rcases hcases with ⟨-, -, rfl⟩ | ⟨-, -, rfl⟩
  · have hl : ({ r with handles := r.handles.erase handle } : Registry).Listed :=
      ⟨hr.owner, hr.owns⟩
    refine ⟨listed_remove hl, ?_⟩
    rw [timers_remove, Index.keys_erase]
    exact hr.keys.filter _
  · exact ⟨listed_loosen hr.toListed ht, Index.nodup_keys_alter _ _ _ hr.keys⟩

theorem rostered_disconnect (hr : r.Rostered) (client : ClientId) (now : Int64) (today : Date) :
    (r.disconnect client now today).2.Rostered := by
  refine ⟨listed_disconnect now today client hr.toListed, ?_⟩
  rw [Index.keys, timers_disconnect now today client hr.toListed]
  exact hr.keys.sublist (List.filter_sublist.map Prod.fst)

theorem rostered_split (hr : r.Rostered) (now : Int64) (date : Date) :
    (r.split now date).2.Rostered := by
  refine ⟨listed_split hr.toListed now date, ?_⟩
  rw [split, Index.keys_mapValues]
  exact hr.keys

theorem disconnect_disconnect (hr : r.Rostered) (client : ClientId) (now : Int64) (today : Date) :
    (r.disconnect client now today).2.disconnect client now today =
      ([], (r.disconnect client now today).2) := by
  have hc := clients_disconnect now today client hr.toListed
  generalize (r.disconnect client now today).2 = gone at hc
  have hnone : gone.clients.get? client = none := by
    rw [hc, Index.get?_erase, if_pos rfl]
  have hsame : gone.clients.erase client = gone.clients := by
    rw [hc, Index.erase, Index.erase, List.filter_filter]
    simp
  rw [disconnect, hnone, hsame]
  rfl

end Timer.Registry

namespace Daemon

variable {d d' : Daemon}

/-- The timers agree with the lists of the clients, and none runs while metrics are disabled. -/
structure Tidy (d : Daemon) : Prop where
  discards : d.config.discards = true
  rostered : d.timers.Rostered
  idle : d.gate.enabled = false → d.timers.timers.entries = []

/-- A client goes away: its timers end, and what they come to is counted at once. -/
structure Departs (d : Daemon) (client : ClientId) (d' : Daemon) : Prop where
  others : d'.timers.timers.entries = d.timers.timers.entries.filter (·.1.client ≠ client)
  counted : ∃ is, d'.tally = (d.tally.commit is).toOption.getD d.tally ∧
    is.Perm ((d.timers.timers.entries.filter fun e => e.1.client = client).map
      fun e => e.2.increment e.1 d.clock.boot d.clock.today)
  rest : d' = { d with timers := d'.timers, tally := d'.tally }
  once : d'.disconnect client = d'

theorem Tidy.departs (h : d.Tidy) (client : ClientId) : Departs d client (d.disconnect client) := by
  cases hon : d.gate.enabled with
  | true =>
    have he : d.disconnect client = { d with
        timers := (d.timers.disconnect client d.clock.boot d.clock.today).2
        tally := (d.tally.commit
          (d.timers.disconnect client d.clock.boot d.clock.today).1).toOption.getD d.tally } := by
      rw [disconnect, if_pos hon]
      exact snd_commitEnded d _ _
    have hagain := Registry.disconnect_disconnect h.rostered client d.clock.boot d.clock.today
    refine ⟨?_, ⟨_, ?_, Registry.increments_disconnect h.rostered.keys h.rostered.toListed client
      d.clock.boot d.clock.today⟩, ?_, ?_⟩
    · rw [he]
      exact Registry.timers_disconnect d.clock.boot d.clock.today client h.rostered.toListed
    · rw [he]
    · rw [he]
    · rw [he, disconnect, if_pos hon]
      dsimp only
      rw [hagain, snd_commitEnded]
      rfl
  | false =>
    -- nothing is swept, and nothing runs that could be
    have hnone := h.idle hon
    have he : d.disconnect client = d := by
      rw [disconnect, hon]
      rfl
    refine ⟨?_, ⟨[], ?_, ?_⟩, ?_, ?_⟩
    · rw [he, hnone]
      rfl
    · rw [he]
      rfl
    · rw [hnone]
      exact .nil
    · rw [he]
    · rw [he, he]

structure Rests (d d' : Daemon) : Prop where
  config : d'.config = d.config
  timers : d'.timers = d.timers
  enabled : d'.gate.enabled = d.gate.enabled

theorem Rests.refl (d : Daemon) : Rests d d := ⟨rfl, rfl, rfl⟩

theorem rests_settled_commit (d : Daemon) (is : List Increment) :
    Rests d (d.settled (d.commit is)).2 := by
  cases h : d.commit is with
  | error e => exact .refl d
  | ok d' =>
    obtain ⟨tally, rfl⟩ := exists_tally_of_commit h
    exact ⟨rfl, rfl, rfl⟩

theorem rests_setUploading (d : Daemon) (user : UInt32) (uploading : Bool) :
    Rests d (d.settled (d.setUploading user uploading)).2 := by
  obtain h | ⟨-, -, h⟩ := settled_setUploading d user uploading
  · rw [h]
    exact .refl d
  · rw [h]
    exact ⟨rfl, rfl, rfl⟩

theorem Passed.rests (h : Passed d d') : Rests d d' := by
  cases h
  exact ⟨rfl, rfl, rfl⟩

theorem Tidy.rests (h : d.Tidy) (hs : Rests d d') : d'.Tidy := by
  refine ⟨hs.config ▸ h.discards, hs.timers ▸ h.rostered, fun hoff => ?_⟩
  rw [hs.timers]
  exact h.idle (hs.enabled ▸ hoff)

theorem Tidy.changed (h : d.Tidy) (hon : d.gate.enabled = true) (hc : d'.config = d.config)
    (hg : d'.gate = d.gate) (hr : d'.timers.Rostered) : d'.Tidy := by
  refine ⟨hc ▸ h.discards, hr, fun hoff => ?_⟩
  rw [hg, hon] at hoff
  cases hoff

theorem Tidy.turn (h : d.Tidy) (enabled : Bool) : (d.turn enabled).Tidy := by
  have hgate : (d.turn enabled).gate.enabled = enabled := by
    rw [gate_turn]
    rfl
  cases enabled with
  | true =>
    have ht : (d.turn true).timers = d.timers ∧ (d.turn true).config = d.config := by
      simp [Daemon.turn]
    refine ⟨ht.2 ▸ h.discards, ht.1 ▸ h.rostered, fun hoff => ?_⟩
    rw [hgate] at hoff
    cases hoff
  | false =>
    have ht : (d.turn false).timers = d.timers.cleared ∧ (d.turn false).config = d.config := by
      simp only [Daemon.turn, h.discards]
      exact ⟨rfl, rfl⟩
    refine ⟨ht.2 ▸ h.discards, ht.1 ▸ Registry.rostered_cleared d.timers, fun _ => ?_⟩
    rw [ht.1]
    rfl

theorem Tidy.setEnabled (h : d.Tidy) (user : UInt32) (enabled : Bool) :
    (d.settled (d.setEnabled user enabled)).2.Tidy := by
  obtain hs | ⟨-, hs⟩ := settled_setEnabled d user enabled
  · rw [hs]
    exact h
  · rw [hs]
    exact h.turn enabled

theorem Tidy.stopTimer (h : d.Tidy) (s : Session) (handle : TimerHandle) :
    (d.stopTimer s handle).2.Tidy := by
  have hreleased {i : Option Increment} {d' : Daemon}
      (hd : d.release s.client handle = .ok (i, d')) : d'.Tidy := by
    rw [release] at hd
    split at hd
    · cases hd
    · next hs =>
      cases hd
      obtain ⟨hne, hr⟩ := Registry.rostered_stop h.rostered hs
      refine ⟨h.discards, hr, fun hoff => absurd (h.idle hoff) hne⟩
  unfold Daemon.stopTimer
  dsimp only
  split
  · exact h
  · next hd => exact hreleased hd
  · next i d₁ hd =>
    have hd₁ := hreleased hd
    rw [commitSince, since]
    split
    · exact hd₁.rests (rests_settled_commit d₁ [i])
    · exact hd₁

theorem Tidy.commitEnded (h : d.Tidy) (hon : d.gate.enabled = true) (is : List Increment)
    {timers : Registry} (hr : timers.Rostered) : (d.commitEnded is timers).2.Tidy := by
  rw [snd_commitEnded]
  exact h.changed hon rfl rfl hr

theorem Tidy.disconnect (h : d.Tidy) (client : ClientId) : (d.disconnect client).Tidy := by
  rw [Daemon.disconnect]
  split
  · next hon => exact h.commitEnded hon _ (Registry.rostered_disconnect h.rostered _ _ _)
  · exact h

theorem Tidy.checkRollover (h : d.Tidy) : d.checkRollover.2.Tidy := by
  have hday : ({ d with lastDay := d.clock.today } : Daemon).Tidy := h.rests ⟨rfl, rfl, rfl⟩
  rw [Daemon.checkRollover]
  split
  · exact h
  · rw [splitTimers]
    dsimp only
    split
    · next hon => exact hday.commitEnded hon _ (Registry.rostered_split h.rostered _ _)
    · exact hday

theorem Tidy.shutdown (h : d.Tidy) : d.shutdown.Tidy := by
  have hc : d.commitTimers.2.Tidy := by
    rw [commitTimers]
    split
    · next hon => exact h.commitEnded hon _ (Registry.rostered_cleared d.timers)
    · exact h
  exact (hc.rests (shifted_flush _).passed.rests).rests ⟨rfl, rfl, rfl⟩

theorem Tidy.of_assemble {config : Config} {disk : Disk} {clock : Clock}
    (ha : assemble config disk clock = .ok d) (hd : config.discards = true) : d.Tidy := by
  rw [assemble] at ha
  split at ha
  · cases ha
  · cases ha
    split <;> exact ⟨hd, Registry.rostered_cleared .empty, fun _ => rfl⟩

theorem Tidy.undergo (h : d.Tidy) (m : Meanwhile) : (d.undergo m).Tidy := by
  cases m with
  | setEnabled enabled => exact h.setEnabled 0 enabled
  | advance nanoseconds => exact h.rests ⟨rfl, rfl, rfl⟩
  | count i => exact h.rests (rests_settled_commit d [i])
  | loseTally => exact h.rests ⟨rfl, rfl, rfl⟩
  | loseCache => exact h.rests ⟨rfl, rfl, rfl⟩

theorem Tidy.foldl_undergo (h : d.Tidy) (ms : List Meanwhile) :
    (ms.foldl Daemon.undergo d).Tidy := by
  induction ms generalizing d with
  | nil => exact h
  | cons m ms ih => exact ih (h.undergo m)

theorem Tidy.attempts (h : d.Tidy) (f : InFlight) (total left : Nat)
    (last : Option Http.SendError) (c : Collector) :
    (Daemon.attempts f total left last d c).2.1.Tidy := by
  induction left generalizing last d c with
  | zero => exact h
  | succ left ih =>
    rw [Daemon.attempts]
    split
    · exact h
    · next batch d₁ hb =>
      have hd₁ := (h.rests (passed_beginAttempt hb).rests).foldl_undergo c.course.meanwhile
      dsimp only
      split
      · exact ih hd₁ _ _
      · exact hd₁

theorem Tidy.upload (h : d.Tidy) (c : Collector) (trigger : Trigger) :
    (d.upload c trigger).2.1.Tidy := by
  have hp := h.rests (shifted_prepare d trigger).passed.rests
  rw [Daemon.upload]
  split
  · next hpr =>
    rw [hpr] at hp
    exact hp
  · next f d₁ hpr =>
    rw [hpr] at hp
    have hat := hp.attempts f d₁.config.upload.maxAttempts d₁.config.upload.maxAttempts none c
    rw [deliver]
    split
    · exact hp
    · split
      · next ha =>
        rw [ha] at hat
        exact hat.rests (shifted_completeDelivered _ f).passed.rests
      · next ha =>
        rw [ha] at hat
        exact hat.rests (shifted_completeFailed _ f).passed.rests

theorem Tidy.dispatch (h : d.Tidy) (c : Collector) (s : Session) (r : Request) :
    ((⟨d, c⟩ : Host).dispatch s r).2.2.daemon.Tidy := by
  by_cases hr : r = .uploadEvents
  · subst hr
    rw [host_dispatch]
    exact h.upload c .requested
  · have hserved := served_dispatch d c s hr
    generalize ((⟨d, c⟩ : Host).dispatch s r).2.2.daemon = d' at hserved ⊢
    cases hserved with
    | recorded _ hon e => exact h.rests ⟨rfl, rfl, rfl⟩
    | started _ hon start => exact h.changed hon rfl rfl (Registry.rostered_start h.rostered _ _)
    | stopped handle => exact h.stopTimer s handle
    | turned enabled => exact h.setEnabled s.user enabled
    | permitted uploading => exact h.rests (rests_setUploading d s.user uploading)
    | unchanged => exact h

end Daemon

namespace Site

variable {w : Site}

theorem tidy_restart (h : w.daemon.Tidy) : w.restart.daemon.Tidy := by
  rw [restart]
  split
  · next ha => exact .of_assemble ha h.discards
  · exact h

theorem tidy_request (h : w.daemon.Tidy) (s : Session) (r : Request) :
    (w.request s r).daemon.Tidy := by
  rw [request]
  split
  · exact h.rests (shifted_check w .requested).passed.rests
  · exact h.dispatch .fresh s r

theorem tidy_step (w : Site) (a : Act) (h : w.daemon.Tidy) : (w.step a).daemon.Tidy := by
  cases a with
  | request s r => exact tidy_request h s r
  | disconnect client => exact h.disconnect client
  | rollover => exact h.checkRollover
  | flush => exact h.rests (Daemon.shifted_flush w.daemon).passed.rests
  | shutdown => exact h.shutdown
  | restart => exact tidy_restart h
  | check trigger => exact h.rests (shifted_check w trigger).passed.rests
  | gather => exact h.rests (shifted_step_gather w).passed.rests
  | attempt => exact h.rests (passed_attempt w).rests
  | answer accepted =>
    change (w.answer accepted).daemon.Tidy
    rw [daemon_answer]
    exact h
  | complete => exact h.rests (shifted_complete w).passed.rests
  | advance | setToday | loseTally | loseCache | abandon => exact h.rests ⟨rfl, rfl, rfl⟩

theorem tidy_run {config : Daemon.Config} {disk : Daemon.Disk} {clock : Clock} {d : Daemon}
    (ha : Daemon.assemble config disk clock = .ok d) (hd : config.discards = true)
    (acts : List Act) : ((opened d).run acts).daemon.Tidy :=
  run_induction (P := fun w => w.daemon.Tidy) tidy_step (.of_assemble ha hd) acts

end Site

end Telemetry
