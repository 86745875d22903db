import Telemetry.Proofs.Daemon.Passage
import Telemetry.Proofs.Daemon.Revocation

namespace Telemetry

open Consent Daemon Event Protocol Upload

namespace Site

structure Advances (g g' : Gate) : Prop where
  le : g.generation ≤ g'.generation
  lt : g.enabled = true → g'.enabled = false → g.generation < g'.generation

theorem Advances.of_eq {g g' : Gate} (h : g' = g) : Advances g g' := by
  subst h
  refine ⟨Nat.le_refl _, fun hon hoff => ?_⟩
  rw [hon] at hoff
  cases hoff

theorem Advances.of_effect {d d' : Daemon} (h : Effect d d') : Advances d.gate d'.gate := by
  cases h with
  | quiet | timed | permitted =>
    refine ⟨Nat.le_refl _, fun hon hoff => ?_⟩
    change d.gate.enabled = false at hoff
    rw [hon] at hoff
    cases hoff
  | turned enabled he =>
    rw [gate_turn]
    cases enabled with
    | true => exact ⟨Nat.le_refl _, fun _ hoff => by cases hoff⟩
    | false => exact ⟨Nat.le_succ _, fun _ _ => Nat.lt_succ_self _⟩

theorem daemon_answer (w : Site) (accepted : Bool) : (w.answer accepted).daemon = w.daemon := by
  rw [answer]
  split
  · split <;> rfl
  · rfl

theorem advances_step (w : Site) {a : Act} (ha : a ≠ .restart) :
    Advances w.daemon.gate (w.step a).daemon.gate := by
  cases a with
  | request s r =>
    change Advances w.daemon.gate (w.request s r).daemon.gate
    rw [request]
    split
    · exact .of_eq (shifted_check w .requested).gate
    · next hr =>
      rcases dispatch_cases w.daemon .fresh s hr with ⟨-, e, he⟩ | he
      · exact .of_eq (by dsimp only; rw [he]; rfl)
      · exact .of_effect he
  | disconnect client => exact .of_effect (effect_disconnect _ client)
  | rollover => exact .of_effect (effect_checkRollover _)
  | flush => exact .of_eq (shifted_flush _).gate
  | shutdown =>
    have hc := Advances.of_effect (effect_commitTimers w.daemon)
    have hf : w.daemon.shutdown.gate.generation = w.daemon.commitTimers.2.gate.generation ∧
        w.daemon.shutdown.gate.enabled = w.daemon.commitTimers.2.gate.enabled := by
      change w.daemon.commitTimers.2.flush.2.gate.generation = _ ∧
        w.daemon.commitTimers.2.flush.2.gate.enabled = _
      rw [(shifted_flush _).gate]
      exact ⟨rfl, rfl⟩
    refine ⟨?_, fun hon hoff => ?_⟩
    · rw [step, hf.1]
      exact hc.le
    · rw [step, hf.1]
      exact hc.lt hon (hf.2 ▸ hoff)
  | restart => exact absurd rfl ha
  | check trigger => exact .of_eq (shifted_check w trigger).gate
  | gather => exact .of_eq (shifted_step_gather w).gate
  | attempt => exact .of_eq (passed_attempt w).gate
  | answer accepted =>
    refine .of_eq ?_
    change (w.answer accepted).daemon.gate = w.daemon.gate
    rw [daemon_answer]
  | complete => exact .of_eq (shifted_complete w).gate
  | advance | setToday | loseTally | loseCache | abandon => exact .of_eq rfl

def Since (generation : Nat) (g : Gate) : Prop :=
  g.enabled = true ∧ g.generation = generation ∨ generation < g.generation

theorem Since.advance {generation : Nat} {g g' : Gate} (h : Since generation g)
    (ha : Advances g g') : Since generation g' := by
  rcases h with ⟨hon, rfl⟩ | h
  · cases hon' : g'.enabled with
    | true => exact (Nat.lt_or_eq_of_le ha.le).elim .inr fun heq => .inl ⟨hon', heq.symm⟩
    | false => exact .inr (ha.lt hon hon')
  · exact .inr (Nat.lt_of_lt_of_le h ha.le)

theorem Since.stale {generation : Nat} {g : Gate} (h : Since generation g)
    (hoff : g.enabled = false) : generation < g.generation := by
  rcases h with ⟨hon, -⟩ | h
  · rw [hoff] at hon
    cases hon
  · exact h

theorem check_of_flight {w : Site} {f : InFlight} (h : w.stage.flight? = some f)
    (trigger : Trigger) : w.check trigger = w := by
  rw [check]
  split
  · next hs =>
    rw [hs] at h
    cases h
  · rfl

theorem request_of_flight {w : Site} {f : InFlight} (h : w.stage.flight? = some f) (s : Session)
    (r : Request) : (w.request s r).stage = w.stage ∧ (w.request s r).sent = w.sent := by
  rw [request]
  split
  · rw [check_of_flight h]
    exact ⟨rfl, rfl⟩
  · exact ⟨rfl, rfl⟩

theorem gather_of_flight {w : Site} {f : InFlight} (h : w.stage.flight? = some f) :
    w.gather = w := by
  rw [gather]
  split
  · next hs =>
    rw [hs] at h
    cases h
  · rfl

theorem flight_attempt {w : Site} {f : InFlight} (h : w.stage.flight? = some f) :
    w.attempt.stage.flight? = some f := by
  rw [attempt]
  split
  · next hs =>
    rw [hs] at h
    exact h
  · next hs =>
    rw [hs] at h
    split <;> exact h
  · exact h

theorem flight_answer {w : Site} {f : InFlight} (h : w.stage.flight? = some f) (accepted : Bool) :
    (w.answer accepted).stage.flight? = some f := by
  rw [answer]
  split
  · next hs =>
    rw [hs] at h
    split <;> exact h
  · exact h

theorem flight_step {w : Site} {f : InFlight} (h : w.stage.flight? = some f) {a : Act}
    (ha : a.ends = false) : (w.step a).stage.flight? = some f := by
  cases a with
  | request s r =>
    change (w.request s r).stage.flight? = some f
    rw [(request_of_flight h s r).1]
    exact h
  | restart | complete | abandon => cases ha
  | check trigger =>
    change (w.check trigger).stage.flight? = some f
    rw [check_of_flight h]
    exact h
  | gather =>
    change w.gather.stage.flight? = some f
    rw [gather_of_flight h]
    exact h
  | attempt => exact flight_attempt h
  | answer accepted => exact flight_answer h accepted
  | disconnect | advance | setToday | rollover | flush | shutdown | loseTally | loseCache => exact h

theorem beginAttempt_of_stale {d : Daemon} {f : InFlight} (h : f.generation < d.gate.generation) :
    d.beginAttempt f = none := if_neg (Nat.ne_of_gt h)

theorem not_current_of_lt {g : Gate} {generation : Nat} (h : generation < g.generation) :
    ¬g.current generation = true := by
  intro hc
  exact Nat.ne_of_gt h (enabled_of_current hc).2

theorem completeDelivered_of_stale {d : Daemon} {f : InFlight}
    (h : f.generation < d.gate.generation) : d.completeDelivered f = d :=
  if_neg (not_current_of_lt h)

theorem completeFailed_of_stale {d : Daemon} {f : InFlight}
    (h : f.generation < d.gate.generation) : d.completeFailed f = d :=
  if_neg (not_current_of_lt h)

theorem complete_of_stale {w : Site} {f : InFlight} (hf : w.stage.flight? = some f)
    (h : f.generation < w.daemon.gate.generation) : w.complete.daemon = w.daemon := by
  rw [complete]
  split
  · next hs =>
    rw [hs] at hf
    cases hf
    exact completeDelivered_of_stale h
  · next hs =>
    rw [hs] at hf
    cases hf
    exact completeFailed_of_stale h
  · rfl

theorem sent_step_of_stale {w : Site} {f : InFlight} (hf : w.stage.flight? = some f)
    (h : f.generation < w.daemon.gate.generation) (a : Act) : (w.step a).sent = w.sent := by
  cases a with
  | request s r => exact (request_of_flight hf s r).2
  | restart =>
    change w.restart.sent = w.sent
    rw [restart]
    split <;> rfl
  | check trigger =>
    change (w.check trigger).sent = w.sent
    rw [check_of_flight hf]
  | gather =>
    change w.gather.sent = w.sent
    rw [gather_of_flight hf]
  | attempt =>
    change w.attempt.sent = w.sent
    rw [attempt]
    split
    · rfl
    · next hs =>
      rw [hs] at hf
      cases hf
      rw [beginAttempt_of_stale h]
    · rfl
  | answer accepted =>
    change (w.answer accepted).sent = w.sent
    rw [answer]
    split
    · split <;> rfl
    · rfl
  | complete =>
    change w.complete.sent = w.sent
    rw [complete]
    split <;> rfl
  | disconnect | advance | setToday | rollover | flush | shutdown | loseTally | loseCache | abandon =>
    rfl

/-- The upload under way goes on through all the acts. -/
def Going (acts : List Act) : Prop := ∀ a ∈ acts, a.ends = false

theorem ne_restart_of_ends {a : Act} (h : a.ends = false) : a ≠ .restart := by
  rintro rfl
  cases h

theorem since_run {w : Site} {f : InFlight} (hf : w.stage.flight? = some f)
    (h : Since f.generation w.daemon.gate) {acts : List Act} (ha : Going acts) :
    (w.run acts).stage.flight? = some f ∧ Since f.generation (w.run acts).daemon.gate := by
  induction acts generalizing w with
  | nil => exact ⟨hf, h⟩
  | cons a acts ih =>
    have he := ha a (by simp)
    have hs := h.advance (advances_step w (ne_restart_of_ends he))
    exact ih (flight_step hf he) hs fun b hb => ha b (by simp [hb])

theorem stale_run {w : Site} {f : InFlight} (hf : w.stage.flight? = some f)
    (h : f.generation < w.daemon.gate.generation) {acts : List Act} (ha : Going acts) :
    (w.run acts).stage.flight? = some f ∧
      f.generation < (w.run acts).daemon.gate.generation ∧ (w.run acts).sent = w.sent := by
  induction acts generalizing w with
  | nil => exact ⟨hf, h, rfl⟩
  | cons a acts ih =>
    have he := ha a (by simp)
    have hlt := Nat.lt_of_lt_of_le h (advances_step w (ne_restart_of_ends he)).le
    obtain ⟨hf', hlt', hs⟩ := ih (flight_step hf he) hlt fun b hb => ha b (by simp [hb])
    exact ⟨hf', hlt', hs.trans (sent_step_of_stale hf h a)⟩

theorem since_gather {w : Site} {f : InFlight} (hi : w.stage.flight? = none)
    (h : w.gather.stage.flight? = some f) : Since f.generation w.gather.daemon.gate := by
  rw [(shifted_step_gather w).gate]
  rw [gather] at h
  split at h
  · next generation trigger _ =>
    split at h
    · next g d hg =>
      dsimp only at h
      split at h
      · cases h
      · cases h
        rw [Daemon.gather] at hg
        split at hg
        · next hcur =>
          split at hg
          · cases hg
          · dsimp only at hg
            split at hg
            · cases hg
            · cases hg
              exact .inl (enabled_of_current hcur)
        · cases hg
    · cases h
  · rw [hi] at h
    cases h

/-- Once metrics were disabled after the gathering of an upload, it calls the collector no more and
its completion does nothing, however it ends and whatever happened since. -/
theorem stale_upload_inert {w : Site} {f : InFlight} (hi : w.stage.flight? = none)
    (hg : (w.step .gather).stage.flight? = some f) {before after : List Act}
    (hb : Going before) (ha : Going after)
    (hoff : ((w.step .gather).run before).daemon.gate.enabled = false) :
    ((w.step .gather).run (before ++ after)).stage.flight? = some f ∧
      ((w.step .gather).run (before ++ after)).sent = ((w.step .gather).run before).sent ∧
      (((w.step .gather).run (before ++ after)).step .attempt).sent =
        ((w.step .gather).run before).sent ∧
      (((w.step .gather).run (before ++ after)).step .complete).daemon =
        ((w.step .gather).run (before ++ after)).daemon := by
  obtain ⟨hf, hs⟩ := since_run hg (since_gather hi hg) hb
  obtain ⟨hf', hlt, hsent⟩ := stale_run hf (hs.stale hoff) ha
  rw [run_append]
  exact ⟨hf', hsent, (sent_step_of_stale hf' hlt .attempt).trans hsent, complete_of_stale hf' hlt⟩

theorem stale_upload_inert_regranted :
    ∃ d f, assemble .standard .empty (.start .epoch) = .ok d ∧
      ((opened d).run readyToGather).stage.flight? = none ∧
      (((opened d).run readyToGather).step .gather).stage.flight? = some f ∧
      Going [.attempt, .request (.fresh ⟨0⟩ 0) (.setEnabled false)] ∧
      Going [.request (.fresh ⟨0⟩ 0) (.setEnabled true), .answer true] ∧
      ((((opened d).run readyToGather).step .gather).run
        [.attempt, .request (.fresh ⟨0⟩ 0) (.setEnabled false)]).daemon.gate.enabled = false ∧
      (((((opened d).run readyToGather).step .gather).run
        ([.attempt, .request (.fresh ⟨0⟩ 0) (.setEnabled false)] ++
          [.request (.fresh ⟨0⟩ 0) (.setEnabled true), .answer true])).step .complete).daemon =
      ((((opened d).run readyToGather).step .gather).run
        ([.attempt, .request (.fresh ⟨0⟩ 0) (.setEnabled false)] ++
          [.request (.fresh ⟨0⟩ 0) (.setEnabled true), .answer true])).daemon := by
  have hb : Going [.attempt, .request (.fresh ⟨0⟩ 0) (.setEnabled false)] := by
    simp [Going, Act.ends]
  have ha : Going [.request (.fresh ⟨0⟩ 0) (.setEnabled true), .answer true] := by
    simp [Going, Act.ends]
  refine ⟨_, _, rfl, rfl, rfl, hb, ha, by decide, ?_⟩
  exact (stale_upload_inert rfl rfl hb ha (by decide)).2.2.2

end Site

end Telemetry
