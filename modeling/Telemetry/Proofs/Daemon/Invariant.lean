import Telemetry.Proofs.Daemon.Effect
import Telemetry.Proofs.Daemon.Site
import Telemetry.Proofs.Event.Stock

namespace Telemetry

open Consent Event Protocol Upload

namespace Daemon

variable {d d' : Daemon}

theorem beginUpload_cases (d : Daemon) :
    (∃ generation, d.beginUpload = (.ok generation, d)) ∨
      (d.gate.checkUpload = .error .uploadingDisabled ∧
        ∃ e, d.beginUpload = (.error e, d.flush.2)) ∨
      ∃ e, d.beginUpload = (.error e, d) := by
  rw [beginUpload]
  split
  · exact .inl ⟨_, rfl⟩
  · next hc =>
    refine .inr (.inl ⟨hc, ?_⟩)
    split
    · next hf => exact ⟨_, by rw [hf]⟩
    · next hf => exact ⟨_, by rw [hf]⟩
  · exact .inr (.inr ⟨_, rfl⟩)

/-- A property that whatever a daemon does keeps. -/
structure Invariant (P : Daemon → Prop) : Prop where
  effect : ∀ {d d' : Daemon}, P d → Effect d d' → P d'
  push : ∀ {d : Daemon}, P d → d.gate.enabled = true → ∀ r, P (d.push r)
  flush : ∀ {d : Daemon}, P d → P d.flush.2
  gather : ∀ {d : Daemon}, P d → ∀ generation limit, P (d.gather generation limit).2
  completeDelivered : ∀ {d : Daemon}, P d → ∀ f, P (d.completeDelivered f)
  completeFailed : ∀ {d : Daemon}, P d → ∀ f, P (d.completeFailed f)
  restart : ∀ {d d' : Daemon}, P d → d.restart = .ok d' → P d'
  loseTally : ∀ {d : Daemon}, P d → P { d with tally := d.tally.broken }
  loseCache : ∀ {d : Daemon}, P d → P { d with cache := d.cache.broken }

variable {P : Daemon → Prop}

theorem Invariant.beginUpload (hP : Invariant P) (h : P d) : P d.beginUpload.2 := by
  obtain ⟨_, hb⟩ | ⟨-, _, hb⟩ | ⟨_, hb⟩ := d.beginUpload_cases
  · rw [hb]
    exact h
  · rw [hb]
    exact hP.flush h
  · rw [hb]
    exact h

theorem Invariant.shutdown (hP : Invariant P) (h : P d) : P d.shutdown :=
  hP.effect (hP.flush (hP.effect h (effect_commitTimers d))) (effect_closeOutbox _)

end Daemon

namespace Site

open Daemon

variable {P : Daemon → Prop} {w : Site}

theorem effect_beginAttempt {d d' : Daemon} {f : InFlight} {b : Batch}
    (h : d.beginAttempt f = some (b, d')) : Effect d d' := by
  rw [beginAttempt] at h
  split at h
  · cases h
    exact .quiet d.clock d.gate.outbox d.consentFile (SendCounter.next d.sendFile).2 d.lastDay
  · cases h

theorem kept_check (hP : Invariant P) (h : P w.daemon) (trigger : Trigger) :
    P (w.check trigger).daemon := by
  have hb := hP.beginUpload h
  rw [check]
  split
  · split <;> next hbu => rw [hbu] at hb; exact hb
  · exact h

theorem kept_request (hP : Invariant P) (h : P w.daemon) (s : Session) (r : Request) :
    P (w.request s r).daemon := by
  rw [request]
  split
  · exact kept_check hP h .requested
  · next hr =>
    rcases dispatch_cases w.daemon .fresh s hr with ⟨hon, e, he⟩ | he
    · dsimp only
      rw [he]
      exact hP.push h hon e
    · exact hP.effect h he

theorem kept_gather (hP : Invariant P) (h : P w.daemon) : P w.gather.daemon := by
  rw [gather]
  split
  · next generation trigger _ =>
    have hg := hP.gather h generation (w.daemon.uploadLimit trigger)
    split <;> next hgu => rw [hgu] at hg; exact hg
  · exact h

theorem kept_attempt (hP : Invariant P) (h : P w.daemon) : P w.attempt.daemon := by
  rw [attempt]
  split
  · exact h
  · split
    · exact h
    · next hb => exact hP.effect h (effect_beginAttempt hb)
  · exact h

theorem kept_answer (h : P w.daemon) (accepted : Bool) : P (w.answer accepted).daemon := by
  rw [answer]
  split
  · split <;> exact h
  · exact h

theorem kept_complete (hP : Invariant P) (h : P w.daemon) : P w.complete.daemon := by
  rw [complete]
  split
  · next f _ => exact hP.completeDelivered h f
  · next f _ => exact hP.completeFailed h f
  · exact h

theorem kept_restart (hP : Invariant P) (h : P w.daemon) : P w.restart.daemon := by
  rw [restart]
  split
  · next hr => exact hP.restart h hr
  · exact h

theorem kept_step (hP : Invariant P) (w : Site) (a : Act) (h : P w.daemon) :
    P (w.step a).daemon := by
  cases a with
  | request s r => exact kept_request hP h s r
  | disconnect client => exact hP.effect h (effect_disconnect _ client)
  | advance nanoseconds => exact hP.effect h (effect_advance _ nanoseconds)
  | setToday date => exact hP.effect h (effect_setToday _ date)
  | rollover => exact hP.effect h (effect_checkRollover _)
  | flush => exact hP.flush h
  | shutdown => exact hP.shutdown h
  | restart => exact kept_restart hP h
  | loseTally => exact hP.loseTally h
  | loseCache => exact hP.loseCache h
  | check trigger => exact kept_check hP h trigger
  | gather => exact kept_gather hP h
  | attempt => exact kept_attempt hP h
  | answer accepted => exact kept_answer h accepted
  | complete => exact kept_complete hP h
  | abandon => exact h

theorem kept_run (hP : Invariant P) (h : P w.daemon) (acts : List Act) : P (w.run acts).daemon :=
  run_induction (P := fun w => P w.daemon) (kept_step hP) h acts

end Site

namespace Daemon

variable {d d' : Daemon}

theorem stock_of_effect (he : Effect d d') :
    d'.buffer = d.buffer ∧ d'.cache = d.cache ∨
      d'.buffer = d.buffer.clear ∧ d'.cache = d.cache.clear.toOption.getD d.cache := by
  cases he with
  | quiet | timed | permitted => exact .inl ⟨rfl, rfl⟩
  | turned enabled =>
    rw [turn]
    dsimp only
    split
    · exact .inr ⟨rfl, rfl⟩
    · exact .inl ⟨rfl, rfl⟩

theorem stock_of_assemble {config : Config} {disk : Disk} {clock : Clock}
    (ha : assemble config disk clock = .ok d) :
    d.buffer = .empty config.maxBuffered ∧
      (d.cache = .opened config.maxCached disk.cache ∨
        d.cache = (Cache.opened config.maxCached disk.cache).clear.toOption.getD
          (.opened config.maxCached disk.cache)) := by
  rw [assemble] at ha
  split at ha
  · cases ha
  · cases ha
    split
    · exact ⟨rfl, .inr rfl⟩
    · exact ⟨rfl, .inl rfl⟩

theorem invariant_buffer : Invariant fun d => d.buffer.Sound where
  effect := by
    intro d d' h he
    rcases stock_of_effect he with ⟨hb, -⟩ | ⟨hb, -⟩
    · exact hb ▸ h
    · exact hb ▸ Buffer.sound_clear d.buffer
  push h _ r := h.push r
  flush := by
    intro d h
    rw [Daemon.flush]
    split
    · dsimp only
      split <;> exact h.take none
    · exact h
  gather := by
    intro d h generation limit
    rw [Daemon.gather]
    split
    · split
      · exact h
      · dsimp only
        split <;> exact h.take _
    · exact h
  completeDelivered := by
    intro d h f
    rw [Daemon.completeDelivered]
    split
    · split
      · exact h
      · dsimp only
        split <;> exact h
    · exact h
  completeFailed := by
    intro d h f
    rw [Daemon.completeFailed]
    split
    · split <;> exact h
    · exact h
  restart := by
    intro d d' _ hr
    rw [(stock_of_assemble hr).1]
    exact Buffer.sound_empty _
  loseTally h := h
  loseCache h := h

theorem sound_cache_of_assemble {config : Config} {disk : Disk} {clock : Clock}
    (ha : assemble config disk clock = .ok d) (hdisk : ∀ t, disk.cache = some t → t.Sound) :
    d.cache.Sound := by
  have ho := Cache.sound_opened config.maxCached hdisk
  obtain ⟨-, hc | hc⟩ := stock_of_assemble ha
  · exact hc ▸ ho
  · exact hc ▸ ho.clear

theorem invariant_cache : Invariant fun d => d.cache.Sound where
  effect := by
    intro d d' h he
    rcases stock_of_effect he with ⟨-, hc⟩ | ⟨-, hc⟩
    · exact hc ▸ h
    · exact hc ▸ h.clear
  push h _ _ := h
  flush := by
    intro d h
    rw [Daemon.flush]
    split
    · dsimp only
      split
      · next hs => exact h.store hs
      · exact h
    · exact h
  gather := by
    intro d h generation limit
    rw [Daemon.gather]
    split
    · split
      · exact h
      · next hl =>
        dsimp only
        split <;> exact h.load hl
    · exact h
  completeDelivered := by
    intro d h f
    rw [Daemon.completeDelivered]
    split
    · split
      · exact h
      · next hr =>
        dsimp only
        split <;> exact h.remove hr
    · exact h
  completeFailed := by
    intro d h f
    rw [Daemon.completeFailed]
    split
    · split
      · exact h
      · next hs => exact h.store hs
    · exact h
  restart h hr := sound_cache_of_assemble hr h
  loseTally h := h
  loseCache _ := Cache.sound_broken _

end Daemon

namespace Site

variable {config : Daemon.Config} {disk : Daemon.Disk} {clock : Clock} {d : Daemon}

theorem sound_buffer_run (ha : Daemon.assemble config disk clock = .ok d) (acts : List Act) :
    ((opened d).run acts).daemon.buffer.Sound := by
  refine kept_run Daemon.invariant_buffer ?_ acts
  change d.buffer.Sound
  rw [(Daemon.stock_of_assemble ha).1]
  exact Buffer.sound_empty _

theorem sound_cache_run (ha : Daemon.assemble config disk clock = .ok d)
    (hdisk : ∀ t, disk.cache = some t → t.Sound) (acts : List Act) :
    ((opened d).run acts).daemon.cache.Sound :=
  kept_run Daemon.invariant_cache (w := opened d) (Daemon.sound_cache_of_assemble ha hdisk) acts

end Site

end Telemetry
