import Mathlib.Data.List.Induction
import Telemetry.Proofs.Daemon.Permission

namespace Telemetry

open Consent Daemon Event Protocol Upload

def Stage.generation? : Stage → Option Nat
  | idle => none
  | checked generation _ => some generation
  | waiting f _ => some f.generation
  | sending f .. => some f.generation
  | ended f _ => some f.generation

namespace Site

open Gate

/-- An upload is under way and metrics are enabled, at the start and behind each of the acts. -/
def Underway : Site → List Act → Prop
  | w, [] => w.stage ≠ .idle ∧ w.daemon.gate.enabled = true
  | w, a :: acts => (w.stage ≠ .idle ∧ w.daemon.gate.enabled = true) ∧ Underway (w.step a) acts

/-- One of the calls took the permission back. -/
def Withdrawn (w : Site) (acts : List Act) : Prop :=
  ∃ before a after, acts = before ++ a :: after ∧ (w.run before).sets? a = some false

/-- The upload under way was begun by one of the acts, where uploads were allowed, and metrics have been
enabled since; so is the permission, unless it was withdrawn. -/
def Sanctioned (w : Site) (acts : List Act) : Prop :=
  ∃ before a after, acts = before ++ a :: after ∧ (w.run before).stage = .idle ∧
    (w.run before).daemon.gate.uploadAllowed = true ∧ Underway ((w.run before).step a) after ∧
    ((w.run acts).daemon.gate.uploadAllowed = true ∨ Withdrawn ((w.run before).step a) after)

variable {w : Site} {g : Nat}

theorem underway_append {acts : List Act} {a : Act} :
    Underway w (acts ++ [a]) ↔ Underway w acts ∧
      (w.run (acts ++ [a])).stage ≠ .idle ∧ (w.run (acts ++ [a])).daemon.gate.enabled = true := by
  induction acts generalizing w with
  | nil => rfl
  | cons b acts ih =>
    change _ ∧ Underway (w.step b) (acts ++ [a]) ↔ (_ ∧ Underway (w.step b) acts) ∧ _
    rw [ih, and_assoc, and_assoc, and_assoc]
    rfl

theorem underway_enabled {acts : List Act} (h : Underway w acts) :
    (w.run acts).daemon.gate.enabled = true := by
  induction acts generalizing w with
  | nil => exact h.2
  | cons a acts ih => exact ih h.2

theorem Withdrawn.append {acts : List Act} (h : Withdrawn w acts) (more : List Act) :
    Withdrawn w (acts ++ more) := by
  obtain ⟨before, a, after, rfl, hsets⟩ := h
  exact ⟨before, a, after ++ more, by simp, hsets⟩

theorem withdrawn_last {acts : List Act} {a : Act} (h : (w.run acts).sets? a = some false) :
    Withdrawn w (acts ++ [a]) := ⟨acts, a, [], rfl, h⟩

theorem checkUpload_ok {gate : Gate} (h : gate.checkUpload = .ok g) :
    gate.uploadAllowed = true ∧ g = gate.generation := by
  rw [checkUpload] at h
  rw [uploadAllowed, State.uploadAllowed]
  cases hon : gate.state.enabled <;> cases hup : gate.state.uploading <;>
    simp only [hon, hup, Bool.not_true, Bool.not_false, if_true, Bool.false_eq_true, if_false] at h
  all_goals cases h
  exact ⟨rfl, rfl⟩

theorem checkUpload_of_allowed {gate : Gate} (h : gate.uploadAllowed = true) :
    gate.checkUpload = .ok gate.generation ∧ gate.current gate.generation = true := by
  rw [uploadAllowed, State.uploadAllowed, Bool.and_eq_true] at h
  rw [checkUpload, Gate.current, Gate.enabled, h.1, h.2]
  exact ⟨rfl, beq_self_eq_true _⟩

theorem beginUpload_ok {d d' : Daemon} (h : d.beginUpload = (.ok g, d')) :
    d.gate.uploadAllowed = true ∧ g = d.gate.generation := by
  rw [beginUpload] at h
  split at h
  · next hc =>
    cases h
    exact checkUpload_ok hc
  · split at h <;> cases h
  · cases h

theorem begun_check (h : w.stage = .idle) {trigger : Trigger}
    (hg : (w.check trigger).stage.generation? = some g) :
    w.daemon.gate.uploadAllowed = true ∧ g = w.daemon.gate.generation := by
  rw [check, h] at hg
  cases hb : w.daemon.beginUpload with
  | mk r d =>
    rw [hb] at hg
    cases r with
    | ok generation =>
      cases hg
      exact beginUpload_ok hb
    | error e => cases hg

theorem generation_gather (hg : w.gather.stage.generation? = some g) :
    w.stage.generation? = some g := by
  rw [gather] at hg
  split at hg
  · next generation trigger hs =>
    rw [hs]
    cases hga : w.daemon.gather generation (w.daemon.uploadLimit trigger) with
    | mk r d =>
      rw [hga] at hg
      cases r with
      | error e => cases hg
      | ok f =>
        have hnoted : f.generation = generation := by
          rw [Daemon.gather] at hga
          split at hga
          · split at hga
            · cases hga
            · dsimp only at hga
              split at hga
              · cases hga
              · cases hga
                rfl
          · cases hga
        dsimp only at hg
        split at hg
        · cases hg
        · rw [← hnoted]
          exact hg
  · exact hg

theorem generation_attempt (hg : w.attempt.stage.generation? = some g) :
    w.stage.generation? = some g := by
  rw [attempt] at hg
  split at hg
  · next hs =>
    rw [hs]
    exact hg
  · next hs =>
    rw [hs]
    split at hg <;> exact hg
  · exact hg

theorem generation_answer {accepted : Bool} (hg : (w.answer accepted).stage.generation? = some g) :
    w.stage.generation? = some g := by
  rw [answer] at hg
  split at hg
  · next hs =>
    rw [hs]
    split at hg <;> exact hg
  · exact hg

theorem generation_complete (hg : w.complete.stage.generation? = some g) :
    w.stage.generation? = some g := by
  rw [complete] at hg
  split at hg
  · cases hg
  · cases hg
  · exact hg

theorem begun_or_noted {a : Act} (hg : (w.step a).stage.generation? = some g) :
    (w.stage = .idle ∧ w.daemon.gate.uploadAllowed = true ∧ g = w.daemon.gate.generation ∧
      (w.step a).daemon.gate = w.daemon.gate) ∨ w.stage.generation? = some g := by
  have hcheck (trigger : Trigger) (hg : (w.check trigger).stage.generation? = some g) :
      (w.stage = .idle ∧ w.daemon.gate.uploadAllowed = true ∧ g = w.daemon.gate.generation ∧
        (w.check trigger).daemon.gate = w.daemon.gate) ∨ w.stage.generation? = some g := by
    by_cases hi : w.stage = .idle
    · obtain ⟨hallowed, hnoted⟩ := begun_check hi hg
      exact .inl ⟨hi, hallowed, hnoted, (shifted_check w trigger).gate⟩
    · have hsame : w.check trigger = w := by
        rw [check]
        split
        · next hs => exact absurd hs hi
        · rfl
      rw [hsame] at hg
      exact .inr hg
  cases a with
  | request s r =>
    rw [step, request] at hg ⊢
    split at hg
    · next hr =>
      rw [if_pos hr]
      exact hcheck .requested hg
    · exact .inr hg
  | check trigger => exact hcheck trigger hg
  | gather => exact .inr (generation_gather hg)
  | attempt => exact .inr (generation_attempt hg)
  | answer accepted => exact .inr (generation_answer hg)
  | complete => exact .inr (generation_complete hg)
  | abandon => cases hg
  | restart =>
    rw [step, restart] at hg
    split at hg
    · cases hg
    · exact .inr hg
  | disconnect | advance | setToday | rollover | flush | shutdown | loseTally | loseCache =>
    exact .inr hg

theorem allowed_or_withdrawn {a : Act} (ha : a ≠ .restart)
    (hon : w.daemon.gate.enabled = true) (hon' : (w.step a).daemon.gate.enabled = true)
    (hallowed : w.daemon.gate.uploadAllowed = true) :
    (w.step a).daemon.gate.uploadAllowed = true ∨ w.sets? a = some false := by
  obtain ⟨s, enabled, -, -, hturn, -, hgate⟩ | ⟨s, uploading, -, hsets, hstate, -⟩ | ⟨-, hagrees⟩ :=
    consent_step w ha
  · rw [hgate] at hon'
    exact absurd (hon.trans hon'.symm) hturn
  · cases uploading with
    | false => exact .inr hsets
    | true =>
      rw [Gate.enabled] at hon'
      left
      rw [uploadAllowed, State.uploadAllowed, hon', hstate]
      rfl
  · left
    rw [uploadAllowed, hagrees.state]
    exact hallowed

theorem Sanctioned.enabled {acts : List Act} (h : Sanctioned w acts) :
    (w.run acts).daemon.gate.enabled = true := by
  obtain ⟨before, b, after, rfl, -, -, hunder, -⟩ := h
  rw [run_append, run_cons]
  exact underway_enabled hunder

theorem Sanctioned.append {acts : List Act} {a : Act} (h : Sanctioned w acts)
    (hstage : ((w.run acts).step a).stage ≠ .idle)
    (hon : ((w.run acts).step a).daemon.gate.enabled = true)
    (hkeep : (w.run acts).daemon.gate.uploadAllowed = true →
      ((w.run acts).step a).daemon.gate.uploadAllowed = true ∨
        (w.run acts).sets? a = some false) : Sanctioned w (acts ++ [a]) := by
  obtain ⟨before, b, after, rfl, hidle, hbegun, hunder, hallowed⟩ := h
  have hrun (more : List Act) :
      w.run (before ++ b :: more) = ((w.run before).step b).run more := by
    rw [run_append, run_cons]
  have hlast : ((w.run before).step b).run (after ++ [a]) =
      (((w.run before).step b).run after).step a := by
    rw [run_append]
    rfl
  have hsplit : (before ++ b :: after) ++ [a] = before ++ b :: (after ++ [a]) := by simp
  rw [hrun] at hstage hon hkeep hallowed
  refine ⟨before, b, after ++ [a], hsplit, hidle, hbegun, underway_append.2 ⟨hunder, ?_⟩, ?_⟩
  · rw [hlast]
    exact ⟨hstage, hon⟩
  · rw [hsplit, hrun, hlast]
    rcases hallowed with hallowed | hwithdrawn
    · rcases hkeep hallowed with hstill | hsets
      · exact .inl hstill
      · exact .inr (withdrawn_last hsets)
    · exact .inr (hwithdrawn.append [a])

theorem sanctioned_run (hw : w.stage = .idle) (acts : List Act)
    (hg : (w.run acts).stage.generation? = some g) :
    g ≤ (w.run acts).daemon.gate.generation ∧
      (g = (w.run acts).daemon.gate.generation → Sanctioned w acts) := by
  induction acts using List.reverseRecOn with
  | nil =>
    rw [run_nil, hw] at hg
    cases hg
  | append_singleton acts a ih =>
    have hlast : w.run (acts ++ [a]) = (w.run acts).step a := by
      rw [run_append]
      rfl
    rw [hlast] at hg ⊢
    have hstage : ((w.run acts).step a).stage ≠ .idle := by
      intro hi
      rw [hi] at hg
      cases hg
    by_cases ha : a = .restart
    · -- a restart that succeeds leaves no upload, and one that fails changes nothing
      have hsame : (w.run acts).step a = w.run acts := by
        rw [ha, step, restart] at hstage ⊢
        split
        · next hr =>
          rw [hr] at hstage
          exact absurd rfl hstage
        · rfl
      rw [hsame] at hg ⊢
      obtain ⟨hle, hsanctioned⟩ := ih hg
      refine ⟨hle, fun heq => ?_⟩
      have hs := hsanctioned heq
      refine hs.append hstage ?_ fun h => .inl ?_
      · rw [hsame]
        exact hs.enabled
      · rw [hsame]
        exact h
    · have hadvances := advances_step (w.run acts) ha
      rcases begun_or_noted hg with ⟨hidle, hallowed, hnoted, hgate⟩ | hbefore
      · have hon : (w.run acts).daemon.gate.enabled = true := by
          rw [uploadAllowed, State.uploadAllowed, Bool.and_eq_true] at hallowed
          exact hallowed.1
        refine ⟨by rw [hgate]; exact Nat.le_of_eq hnoted, fun _ => ?_⟩
        refine ⟨acts, a, [], rfl, hidle, hallowed, ⟨hstage, by rw [hgate]; exact hon⟩, .inl ?_⟩
        rw [hlast, hgate]
        exact hallowed
      · obtain ⟨hle, hsanctioned⟩ := ih hbefore
        refine ⟨Nat.le_trans hle hadvances.le, fun heq => ?_⟩
        have hs := hsanctioned (Nat.le_antisymm hle (heq ▸ hadvances.le))
        have hon : ((w.run acts).step a).daemon.gate.enabled = true := by
          cases hoff : ((w.run acts).step a).daemon.gate.enabled with
          | true => rfl
          | false =>
            have hlt := hadvances.lt hs.enabled hoff
            omega
        exact hs.append hstage hon (allowed_or_withdrawn ha hs.enabled hon)

/-- Only an attempt calls the collector, and it does so with the number that its upload noted. -/
theorem current_of_sent {a : Act} (h : (w.step a).sent ≠ w.sent) :
    a = .attempt ∧ ∃ g, w.stage.generation? = some g ∧ g = w.daemon.gate.generation := by
  cases a with
  | request s r =>
    rw [step, request] at h
    split at h
    · exact absurd (sent_check w .requested) h
    · exact absurd rfl h
  | check trigger => exact absurd (sent_check w trigger) h
  | gather => exact absurd (sent_step_gather w) h
  | attempt =>
    refine ⟨rfl, ?_⟩
    rw [step, attempt] at h
    split at h
    · exact absurd rfl h
    · next f left hs =>
      split at h
      · exact absurd rfl h
      · next hb =>
        rw [beginAttempt] at hb
        split at hb
        · next hcur => exact ⟨f.generation, by rw [hs]; rfl, hcur.symm⟩
        · cases hb
    · exact absurd rfl h
  | answer accepted =>
    refine absurd ?_ h
    rw [step, answer]
    split
    · split <;> rfl
    · rfl
  | complete =>
    refine absurd ?_ h
    rw [step, complete]
    split <;> rfl
  | restart =>
    refine absurd ?_ h
    rw [step, restart]
    split <;> rfl
  | disconnect | advance | setToday | rollover | flush | shutdown | loseTally | loseCache | abandon =>
    exact absurd rfl h

/-- Whenever the collector is called, it is by an attempt of an upload that was begun where uploads
were allowed. Metrics have been enabled ever since, and so has been the permission, unless a call
withdrew it in between. -/
theorem sanctioned_of_sent (d : Daemon) (acts : List Act) {a : Act}
    (h : (((opened d).run acts).step a).sent ≠ ((opened d).run acts).sent) :
    a = .attempt ∧ Sanctioned (opened d) acts ∧
      ((opened d).run acts).daemon.gate.enabled = true := by
  obtain ⟨ha, g, hg, hcur⟩ := current_of_sent h
  have hs := (sanctioned_run (w := opened d) rfl acts hg).2 hcur
  exact ⟨ha, hs, hs.enabled⟩

def withdrawnBetweenAttempts : List Act :=
  readyToGather ++ [.gather, .attempt, .answer false, .request (.fresh ⟨0⟩ 0) (.setUploading false)]

theorem sanctioned_withdrawnBetweenAttempts :
    ∃ d, assemble .standard .empty (.start .epoch) = .ok d ∧
      (((opened d).run withdrawnBetweenAttempts).step .attempt).sent ≠
        ((opened d).run withdrawnBetweenAttempts).sent ∧
      Sanctioned (opened d) withdrawnBetweenAttempts ∧
      ((opened d).run withdrawnBetweenAttempts).daemon.gate.enabled = true := by
  have ha : assemble .standard .empty (.start .epoch) = .ok _ := rfl
  refine ⟨_, ha, by decide +kernel, ?_⟩
  exact (sanctioned_of_sent (a := .attempt) _ _ (by decide +kernel)).2

/-- The permission to upload is not asked for again: the retry goes out behind its withdrawal. -/
theorem sent_without_permission :
    ∃ d, assemble .standard .empty (.start .epoch) = .ok d ∧
      ((opened d).run withdrawnBetweenAttempts).daemon.gate.state.uploading = false ∧
      (((opened d).run withdrawnBetweenAttempts).step .attempt).sent.length =
        ((opened d).run withdrawnBetweenAttempts).sent.length + 1 :=
  ⟨_, rfl, by decide +kernel, by decide +kernel⟩

end Site

end Telemetry
