import Telemetry.Proofs.Daemon.Places

namespace Telemetry

open Event Upload

namespace Daemon

variable {d d' : Daemon}

/-- The buffer holds no more records than before. -/
def Lighter (d d' : Daemon) : Prop := d'.buffer.records.length ≤ d.buffer.records.length

theorem Lighter.of_eq (h : d'.buffer = d.buffer) : Lighter d d' := Nat.le_of_eq (by rw [h])

theorem Lighter.trans {d'' : Daemon} (h : Lighter d d') (h' : Lighter d' d'') : Lighter d d'' :=
  Nat.le_trans h' h

theorem Lighter.of_effect (he : Effect d d') : Lighter d d' := by
  cases he with
  | quiet => exact .of_eq rfl
  | timed => exact .of_eq rfl
  | permitted => exact .of_eq rfl
  | turned enabled =>
    rw [turn]
    dsimp only
    split
    · exact Nat.zero_le _
    · exact .of_eq rfl

theorem length_take_le (b : Buffer) (limit : Option Nat) :
    (b.take limit).2.records.length ≤ b.records.length := by
  have h := congrArg List.length (b.take_append limit)
  rw [List.length_append] at h
  omega

theorem lighter_flush (d : Daemon) : Lighter d d.flush.2 := by
  rw [flush]
  split
  · dsimp only
    split <;> exact length_take_le d.buffer none
  · exact .of_eq rfl

theorem lighter_shutdown (d : Daemon) : Lighter d d.shutdown := by
  have hc := (Lighter.of_effect (effect_commitTimers d)).trans (lighter_flush _)
  exact hc.trans (Lighter.of_effect (effect_closeOutbox _))

theorem lighter_beginUpload (d : Daemon) : Lighter d d.beginUpload.2 := by
  obtain ⟨_, h⟩ | ⟨-, _, h⟩ | ⟨_, h⟩ := d.beginUpload_cases
  · rw [h]
    exact .of_eq rfl
  · rw [h]
    exact lighter_flush d
  · rw [h]
    exact .of_eq rfl

theorem lighter_gather (d : Daemon) (generation : Nat) (limit : Option Nat) :
    Lighter d (d.gather generation limit).2 := by
  rw [gather]
  split
  · split
    · exact .of_eq rfl
    · dsimp only
      split <;> exact length_take_le d.buffer _
  · exact .of_eq rfl

theorem lighter_completeDelivered (d : Daemon) (f : InFlight) :
    Lighter d (d.completeDelivered f) := by
  rw [completeDelivered]
  split
  · split
    · exact .of_eq rfl
    · dsimp only
      split <;> exact .of_eq rfl
  · exact .of_eq rfl

theorem lighter_completeFailed (d : Daemon) (f : InFlight) : Lighter d (d.completeFailed f) := by
  rw [completeFailed]
  split
  · split <;> exact .of_eq rfl
  · exact .of_eq rfl

theorem lighter_restarted (hr : d.restart = .ok d') : Lighter d d' := by
  rw [Daemon.restart, assemble] at hr
  split at hr
  · cases hr
  · simp only [Except.ok.injEq] at hr
    split at hr <;> subst hr <;> exact Nat.zero_le _

end Daemon

end Telemetry
