import Telemetry.Proofs.Daemon.Invariant
import Telemetry.Proofs.Daemon.Passage
import Telemetry.Proofs.Upload.SendCounter

namespace Telemetry

open Consent Daemon Event Protocol Upload

namespace Daemon

variable {d d' : Daemon}

theorem sendFile_turn (d : Daemon) (enabled : Bool) : (d.turn enabled).sendFile = d.sendFile := by
  rw [turn]
  dsimp only
  split <;> rfl

theorem sendFile_setEnabled (d : Daemon) (user : UInt32) (enabled : Bool) :
    (d.settled (d.setEnabled user enabled)).2.sendFile = d.sendFile := by
  obtain h | ⟨-, h⟩ := settled_setEnabled d user enabled
  · rw [h]
  · rw [h, sendFile_turn]

theorem sendFile_setUploading (d : Daemon) (user : UInt32) (uploading : Bool) :
    (d.settled (d.setUploading user uploading)).2.sendFile = d.sendFile := by
  obtain h | ⟨-, -, h⟩ := settled_setUploading d user uploading
  · rw [h]
  · rw [h]

theorem sendFile_settled_commit (d : Daemon) (is : List Tally.Increment) :
    (d.settled (d.commit is)).2.sendFile = d.sendFile := by
  cases hc : d.commit is with
  | ok e =>
    obtain ⟨tally, rfl⟩ := exists_tally_of_commit hc
    rfl
  | error e => rfl

theorem sendFile_stopTimer (d : Daemon) (s : Session) (handle : TimerHandle) :
    (d.stopTimer s handle).2.sendFile = d.sendFile := by
  rw [stopTimer]
  split
  · rfl
  · next h =>
    obtain ⟨-, timers, rfl⟩ := release_ok h
    rfl
  · next h =>
    obtain ⟨-, timers, rfl⟩ := release_ok h
    rw [commitSince, since]
    split
    · exact sendFile_settled_commit _ _
    · rfl

theorem sendFile_dispatch (d : Daemon) (c : Collector) (s : Session) {r : Request}
    (hr : r ≠ .uploadEvents) :
    ((⟨d, c⟩ : Host).dispatch s r).2.2.daemon.sendFile = d.sendFile := by
  have hserved := served_dispatch d c s hr
  generalize ((⟨d, c⟩ : Host).dispatch s r).2.2.daemon = d' at hserved ⊢
  cases hserved with
  | recorded | started | unchanged => rfl
  | stopped handle => exact sendFile_stopTimer d s handle
  | turned enabled => exact sendFile_setEnabled d s.user enabled
  | permitted uploading => exact sendFile_setUploading d s.user uploading

theorem sendFile_commitEnded (d : Daemon) (is : List Tally.Increment) (timers : Timer.Registry) :
    (d.commitEnded is timers).2.sendFile = d.sendFile := by
  rw [snd_commitEnded]

theorem sendFile_disconnect (d : Daemon) (client : ClientId) :
    (d.disconnect client).sendFile = d.sendFile := by
  rw [disconnect]
  split
  · exact sendFile_commitEnded d _ _
  · rfl

theorem sendFile_checkRollover (d : Daemon) : d.checkRollover.2.sendFile = d.sendFile := by
  rw [checkRollover, splitTimers]
  split
  · rfl
  · dsimp only
    split
    · exact sendFile_commitEnded { d with lastDay := d.clock.today } _ _
    · rfl

theorem sendFile_shutdown (d : Daemon) : d.shutdown.sendFile = d.sendFile := by
  have hc : d.commitTimers.2.sendFile = d.sendFile := by
    rw [commitTimers]
    split
    · exact sendFile_commitEnded d _ _
    · rfl
  change d.commitTimers.2.flush.2.sendFile = d.sendFile
  rw [(shifted_flush _).sendFile, hc]

theorem sendFile_assemble {config : Config} {disk : Disk} {clock : Clock}
    (ha : assemble config disk clock = .ok d) : d.sendFile = disk.sendCount := by
  rw [assemble] at ha
  split at ha
  · cases ha
  · cases ha
    split <;> rfl

theorem sendFile_undergo (d : Daemon) (m : Meanwhile) : (d.undergo m).sendFile = d.sendFile := by
  cases m with
  | setEnabled enabled => exact sendFile_setEnabled d 0 enabled
  | count i => exact sendFile_settled_commit d [i]
  | advance | loseTally | loseCache => rfl

theorem sendFile_foldl_undergo (d : Daemon) (ms : List Meanwhile) :
    (ms.foldl undergo d).sendFile = d.sendFile := by
  induction ms generalizing d with
  | nil => rfl
  | cons m ms ih => exact (ih (d.undergo m)).trans (sendFile_undergo d m)

theorem beginAttempt_counted {f : InFlight} {b : Batch} {n : Nat}
    (hn : SendCounter.Counts d.sendFile n) (hsize : n + 1 < UInt64.size)
    (h : d.beginAttempt f = some (b, d')) :
    b.sendNumber.toNat = n ∧ SendCounter.Counts d'.sendFile (n + 1) ∧
      b = f.batch.stamp b.sendNumber d.clock := by
  obtain ⟨m, e, hnext, hm, hcounts⟩ := hn.next hsize
  rw [beginAttempt] at h
  split at h
  · rw [hnext] at h
    cases h
    exact ⟨hm, hcounts, rfl⟩
  · cases h

end Daemon

namespace Site

/-- Everything sent so far was numbered in order from `n`, and the file counts it. -/
structure Numbered (n : Nat) (w : Site) : Prop where
  numbers : w.sent.map (fun b => b.sendNumber.toNat) = List.range' n w.sent.length
  counts : SendCounter.Counts w.daemon.sendFile (n + w.sent.length)

variable {w : Site} {n : Nat}

/-- An act calls the collector with what is under way and takes a number for it, or does neither. -/
theorem sent_step (w : Site) (a : Act) :
    (w.step a).sent = w.sent ∧ (w.step a).daemon.sendFile = w.daemon.sendFile ∨
      ∃ f b, w.stage.flight? = some f ∧ w.daemon.beginAttempt f = some (b, (w.step a).daemon) ∧
        (w.step a).sent = w.sent ++ [b] := by
  cases a with
  | request s r =>
    left
    rw [step, request]
    split
    · exact ⟨sent_check w .requested, (shifted_check w .requested).sendFile⟩
    · next hr => exact ⟨rfl, sendFile_dispatch w.daemon .fresh s hr⟩
  | disconnect client => exact .inl ⟨rfl, sendFile_disconnect w.daemon client⟩
  | rollover => exact .inl ⟨rfl, sendFile_checkRollover w.daemon⟩
  | flush => exact .inl ⟨rfl, (shifted_flush w.daemon).sendFile⟩
  | shutdown => exact .inl ⟨rfl, sendFile_shutdown w.daemon⟩
  | restart =>
    left
    rw [step, restart]
    split
    · next hr => exact ⟨rfl, sendFile_assemble hr⟩
    · exact ⟨rfl, rfl⟩
  | check trigger => exact .inl ⟨sent_check w trigger, (shifted_check w trigger).sendFile⟩
  | gather => exact .inl ⟨sent_step_gather w, (shifted_step_gather w).sendFile⟩
  | attempt =>
    rw [step, attempt]
    split
    · exact .inl ⟨rfl, rfl⟩
    · split
      · exact .inl ⟨rfl, rfl⟩
      · next f _ hs _ b d hb =>
        rw [hs]
        exact .inr ⟨f, b, rfl, hb, rfl⟩
    · exact .inl ⟨rfl, rfl⟩
  | answer accepted =>
    left
    rw [step, answer]
    split
    · split <;> exact ⟨rfl, rfl⟩
    · exact ⟨rfl, rfl⟩
  | complete =>
    refine .inl ⟨?_, (shifted_complete w).sendFile⟩
    rw [step, complete]
    split <;> rfl
  | advance | setToday | loseTally | loseCache | abandon => exact .inl ⟨rfl, rfl⟩

theorem numbered_opened {d : Daemon} (h : SendCounter.Counts d.sendFile n) :
    Numbered n (opened d) := ⟨rfl, h⟩

theorem Numbered.step {a : Act} (h : Numbered n w)
    (hsize : n + (w.step a).sent.length < UInt64.size) : Numbered n (w.step a) := by
  obtain ⟨hsent, hfile⟩ | ⟨f, b, -, hb, hsent⟩ := sent_step w a
  · refine ⟨?_, ?_⟩
    · rw [hsent]
      exact h.numbers
    · rw [hsent, hfile]
      exact h.counts
  · have hlen : (w.step a).sent.length = w.sent.length + 1 := by
      rw [hsent, List.length_append, List.length_singleton]
    rw [hlen] at hsize
    obtain ⟨hnumber, hcounts, -⟩ := beginAttempt_counted h.counts hsize hb
    refine ⟨?_, ?_⟩
    · rw [hlen, hsent, List.map_append, h.numbers, List.map_singleton, hnumber,
        List.range'_concat, Nat.one_mul]
    · rw [hlen]
      exact hcounts

theorem sent_length_le_step (w : Site) (a : Act) : w.sent.length ≤ (w.step a).sent.length := by
  obtain ⟨hsent, -⟩ | ⟨f, b, -, -, hsent⟩ := sent_step w a
  · exact Nat.le_of_eq (congrArg List.length hsent).symm
  · rw [hsent, List.length_append]
    exact Nat.le_add_right _ _

/-- As long as there are numbers, they are given out in order at the end of every history. -/
theorem Numbered.run (h : Numbered n w) (acts : List Act)
    (hsize : n + (w.run acts).sent.length < UInt64.size) : Numbered n (w.run acts) := by
  have hkept := run_induction
    (P := fun w => n + w.sent.length < UInt64.size → Numbered n w) ?_ (fun _ => h) acts
  · exact hkept hsize
  · intro w a ih hstep
    have hle := sent_length_le_step w a
    exact (ih (by omega)).step hstep

end Site

end Telemetry
