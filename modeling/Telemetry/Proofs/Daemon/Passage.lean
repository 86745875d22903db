import Telemetry.Proofs.Daemon.Site

namespace Telemetry

open Event Upload

namespace Daemon

/-- The steps of an upload and the saving of events leave all else alone. -/
inductive Passed (d : Daemon) : Daemon → Prop
  | mk (buffer : Buffer) (cache : Cache) (tally : Tally.Store) (sendFile : Entry) :
    Passed d { d with buffer := buffer, cache := cache, tally := tally, sendFile := sendFile }

/-- All of them but an attempt leave the count of batches alone, too. -/
inductive Shifted (d : Daemon) : Daemon → Prop
  | mk (buffer : Buffer) (cache : Cache) (tally : Tally.Store) :
    Shifted d { d with buffer := buffer, cache := cache, tally := tally }

variable {d d' : Daemon}

theorem Passed.refl (d : Daemon) : Passed d d := .mk d.buffer d.cache d.tally d.sendFile

theorem Passed.gate (h : Passed d d') : d'.gate = d.gate := by
  cases h
  rfl

theorem Shifted.refl (d : Daemon) : Shifted d d := .mk d.buffer d.cache d.tally

theorem Shifted.trans {d'' : Daemon} (h : Shifted d d') (h' : Shifted d' d'') : Shifted d d'' := by
  cases h
  cases h'
  exact .mk _ _ _

theorem Shifted.passed (h : Shifted d d') : Passed d d' := by
  cases h
  exact .mk _ _ _ _

theorem Shifted.gate (h : Shifted d d') : d'.gate = d.gate := h.passed.gate

theorem Shifted.config (h : Shifted d d') : d'.config = d.config := by
  cases h
  rfl

theorem Shifted.consentFile (h : Shifted d d') : d'.consentFile = d.consentFile := by
  cases h
  rfl

theorem Shifted.sendFile (h : Shifted d d') : d'.sendFile = d.sendFile := by
  cases h
  rfl

theorem shifted_flush (d : Daemon) : Shifted d d.flush.2 := by
  rw [flush]
  split
  · dsimp only
    split <;> exact .mk _ _ _
  · exact .refl d

theorem shifted_beginUpload (d : Daemon) : Shifted d d.beginUpload.2 := by
  have hf := shifted_flush d
  rw [beginUpload]
  split
  · exact .refl d
  · split <;> next h => rw [h] at hf; exact hf
  · exact .refl d

theorem shifted_gather (d : Daemon) (generation : Nat) (limit : Option Nat) :
    Shifted d (d.gather generation limit).2 := by
  rw [gather]
  split
  · split
    · exact .refl d
    · dsimp only
      split <;> exact .mk _ _ _
  · exact .refl d

theorem shifted_prepare (d : Daemon) (trigger : Trigger) : Shifted d (d.prepare trigger).2 := by
  have hb := shifted_beginUpload d
  rw [prepare]
  split
  · next h =>
    rw [h] at hb
    exact hb
  · next h =>
    rw [h] at hb
    exact hb.trans (shifted_gather _ _ _)

theorem passed_beginAttempt {f : InFlight} {b : Batch} (h : d.beginAttempt f = some (b, d')) :
    Passed d d' := by
  rw [beginAttempt] at h
  split at h
  · cases h
    exact .mk _ _ _ _
  · cases h

theorem closedRows_of_taken (d : Daemon) (cache : Cache) (buffer : Buffer) :
    ({ d with cache := cache, buffer := buffer } : Daemon).closedRows = d.closedRows := rfl

theorem shifted_completeDelivered (d : Daemon) (f : InFlight) :
    Shifted d (d.completeDelivered f) := by
  rw [completeDelivered]
  split
  · split
    · exact .refl d
    · dsimp only
      split <;> exact .mk _ _ _
  · exact .refl d

theorem shifted_completeFailed (d : Daemon) (f : InFlight) : Shifted d (d.completeFailed f) := by
  rw [completeFailed]
  split
  · split <;> exact .mk _ _ _
  · exact .refl d

end Daemon

namespace Site

open Daemon

variable (w : Site)

theorem shifted_check (trigger : Trigger) : Shifted w.daemon (w.check trigger).daemon := by
  have hb := shifted_beginUpload w.daemon
  rw [check]
  split
  · split <;> next h => rw [h] at hb; exact hb
  · exact .refl _

theorem sent_check (trigger : Trigger) : (w.check trigger).sent = w.sent := by
  rw [check]
  split
  · split <;> rfl
  · rfl

theorem shifted_step_gather : Shifted w.daemon w.gather.daemon := by
  rw [gather]
  split
  · next generation trigger _ =>
    have hg := Daemon.shifted_gather w.daemon generation (w.daemon.uploadLimit trigger)
    split <;> next h => rw [h] at hg; exact hg
  · exact .refl _

theorem sent_step_gather : w.gather.sent = w.sent := by
  rw [gather]
  split
  · split <;> rfl
  · rfl

theorem passed_attempt : Passed w.daemon w.attempt.daemon := by
  rw [attempt]
  split
  · exact .refl _
  · split
    · exact .refl _
    · next hb => exact passed_beginAttempt hb
  · exact .refl _

theorem shifted_complete : Shifted w.daemon w.complete.daemon := by
  rw [complete]
  split
  · exact shifted_completeDelivered _ _
  · exact shifted_completeFailed _ _
  · exact .refl _

end Site

end Telemetry
