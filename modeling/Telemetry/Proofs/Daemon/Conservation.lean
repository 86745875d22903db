import Telemetry.Proofs.Daemon.Places

namespace Telemetry

open Consent Daemon Event Protocol Upload

namespace Site

variable {w : Site} {t : CacheTable}

theorem balanced_check (trigger : Trigger) (h : Secure w t)
    (hroom : w.handed (.act (.check trigger)) ≠ [] →
      t.size + totalCost (w.handed (.act (.check trigger))) ≤ w.daemon.cache.limit) :
    Balanced w (w.check trigger) := by
  rw [check]
  split
  · next hs =>
    obtain ⟨generation, hb⟩ | ⟨hc, e, hb⟩ | ⟨e, hb⟩ := w.daemon.beginUpload_cases
    · rw [hb]
      exact h.landed (by rw [hs]; rfl) rfl
    · have hh : w.handed (.act (.check trigger)) = w.daemon.buffer.records := by
        simp only [handed, hs, hc]
      rw [hh] at hroom
      rw [hb]
      exact h.flush hroom
    · rw [hb]
      exact h.refl
  · exact h.refl

theorem balanced_request (h : Secure w t) {s : Session} {r : Request}
    (hm : w.Peaceful (.act (.request s r))) : Balanced w (w.request s r) := by
  rw [request]
  split
  · next hr =>
    subst hr
    have hroom := h.room hm
    exact balanced_check .requested h hroom
  · next hr =>
    have hconsent := hm.consent
    change _ → (w.request s r).daemon.gate.enabled = true at hconsent
    rw [request] at hconsent
    rw [if_neg hr] at hconsent
    rcases dispatch_cases w.daemon .fresh s hr with ⟨hon, e, he⟩ | he
    · rw [he]
      exact h.pushed hon e
    · exact h.still (.of_effect he hconsent) (h.kept.discreet.effect he)

theorem balanced_gather (h : Secure w t) {rows : List Tally.Row}
    (hrows : w.daemon.closedRows = .ok rows) : Balanced w w.gather := by
  rw [gather]
  split
  · next generation trigger hs =>
    have hlanded : w.stage.flight? = none := by rw [hs]; rfl
    obtain ⟨e, hg⟩ | ⟨f, d, t', hg, hk, hsame, hbuffer, ha⟩ :=
      h.kept.gather hrows generation (w.daemon.uploadLimit trigger)
    · rw [hg]
      exact h.landed hlanded rfl
    · have hlen : d.buffer.records.length ≤ w.daemon.buffer.records.length := by
        rw [← hbuffer, List.length_append]
        exact Nat.le_add_left _ _
      obtain ⟨hnone, hsettled⟩ := Stage.of_flight_eq_none hlanded
      rw [hg]
      dsimp only
      split
      · next he =>
        -- nothing was taken, and nothing was copied
        have hbuffered : f.buffered = [] := by
          have hb := ha.batch
          rw [Batch.records_of_isEmpty he] at hb
          exact (List.append_eq_nil_iff.1 hb.symm.eq_nil).2
        have hsec : Secure { w with daemon := d, stage := .idle } t' := .of_landed hk rfl
        rw [hbuffered, List.nil_append] at hbuffer
        refine ⟨⟨t', hsec⟩, ?_⟩
        rw [gained_eq_nil hlen, List.append_nil, hsec.places_eq rfl, h.places_eq hsettled, hsame,
          hnone, ← hbuffer]
        exact .refl _
      · have hsec : Secure { w with daemon := d, stage := .waiting f d.config.upload.maxAttempts }
            t' := by
          refine ⟨hk, fun f' hf => ?_, fun _ _ _ hf => by cases hf⟩
          cases hf
          exact ha
        refine ⟨⟨t', hsec⟩, ?_⟩
        rw [gained_eq_nil hlen, List.append_nil, hsec.places_eq rfl, h.places_eq hsettled, hsame,
          hnone, ← hbuffer, List.perm_iff_count]
        intro x
        simp only [List.count_append, List.count_nil]
        change _ + (_ + (List.count x f.buffered + List.count x w.delivered)) = _
        omega
  · exact h.refl

theorem balanced_attempt (h : Secure w t) : Balanced w w.attempt := by
  rw [attempt]
  split
  · next f hs =>
    exact h.carried (.refl _) h.kept.discreet w.sent (fun _ hf => by rw [hs]; exact hf)
      (by rw [hs]; rfl) (by rw [hs]; rfl) fun _ _ _ hf => by cases hf
  · next f left hs =>
    split
    · exact h.carried (.refl _) h.kept.discreet w.sent (fun _ hf => by rw [hs]; exact hf)
        (by rw [hs]; rfl) (by rw [hs]; rfl) fun _ _ _ hf => by cases hf
    · next b d hb =>
      have he := effect_beginAttempt hb
      have hstill : Still w.daemon d ∧ b.records = f.batch.records := by
        rw [beginAttempt] at hb
        split at hb
        · cases hb
          exact ⟨⟨rfl, rfl, fun _ hc => hc⟩, rfl⟩
        · cases hb
      refine h.carried hstill.1 (h.kept.discreet.effect he) _ (fun _ hf => by rw [hs]; exact hf)
        (by rw [hs]; rfl) (by rw [hs]; rfl) fun f' left' b' hf => ?_
      cases hf
      exact hstill.2
  · exact h.refl

theorem balanced_answer (h : Secure w t) (accepted : Bool) : Balanced w (w.answer accepted) := by
  rw [answer]
  split
  · next f left b hs =>
    split
    · have ha := h.aboard f (by rw [hs]; rfl)
      have hb := h.sending f left b hs
      have hsec : Secure { w with stage := .ended f true, accepted := w.accepted ++ [b] } t := by
        refine ⟨h.kept, fun f' hf => ?_, fun _ _ _ hf => by cases hf⟩
        cases hf
        exact ha
      refine ⟨⟨t, hsec⟩, ?_⟩
      have hgained : gained w { w with stage := .ended f true, accepted := w.accepted ++ [b] } = [] :=
        gained_eq_nil (Nat.le_refl _)
      have hdivide := recordsOf_divide t.rows f.cachedIds
      have hbatch := ha.batch
      have hplaces : w.places = _ := h.places_eq (by rw [hs]; rfl)
      have haboard : w.stage.aboard = f.buffered := by rw [hs]; rfl
      rw [hgained, List.append_nil, hplaces, haboard, places, hsec.undelivered_eq]
      rw [← hb, List.perm_iff_count] at hbatch
      rw [List.perm_iff_count] at hdivide ⊢
      intro x
      have hx := hbatch x
      have hx' := hdivide x
      simp only [List.count_append, delivered, List.flatMap_append, List.flatMap_singleton] at hx hx' ⊢
      change _ + (List.count x (recordsOf (t.rows.filter (·.id ∉ f.cachedIds))) +
        (List.count x ([] : List Record) + _)) = _
      rw [List.count_nil]
      omega
    · exact h.carried (.refl _) h.kept.discreet w.sent (fun _ hf => by rw [hs]; exact hf)
        (by rw [hs]; rfl) (by rw [hs]; rfl) fun _ _ _ hf => by cases hf
  · exact h.refl

theorem balanced_complete (h : Secure w t) (hm : w.Peaceful (.act .complete)) :
    Balanced w w.complete := by
  rw [complete]
  split
  · next f hs =>
    obtain ⟨hk, hbuffer⟩ := h.kept.completeDelivered (h.aboard f (by rw [hs]; rfl)).current
    have hsec : Secure { w with daemon := w.daemon.completeDelivered f, stage := .idle }
        (t.delete f.cachedIds) := .of_landed hk rfl
    have haboard : w.stage.aboard = [] := by rw [hs]; rfl
    have hsettled : w.stage.settled = f.cachedIds := by rw [hs]; rfl
    have hlen : (w.daemon.completeDelivered f).buffer.records.length ≤
        w.daemon.buffer.records.length := Nat.le_of_eq (by rw [hbuffer])
    refine ⟨⟨_, hsec⟩, ?_⟩
    rw [gained_eq_nil hlen, List.append_nil, hsec.places_eq rfl, places, h.undelivered_eq, haboard,
      hsettled]
    dsimp only
    rw [hbuffer]
    exact .refl _
  · next f hs =>
    have hh : w.handed (.act .complete) = f.buffered := by simp only [handed, hs]
    have hroom := h.room hm
    rw [hh] at hroom
    have ha := h.aboard f (by rw [hs]; rfl)
    obtain ⟨t', hk, hgrows, hbuffer⟩ := h.kept.completeFailed ha.current ha.small hroom
    have hsec : Secure { w with daemon := w.daemon.completeFailed f, stage := .idle } t' :=
      .of_landed hk rfl
    obtain ⟨new, hrows, -, hnew⟩ := hgrows.rows
    have haboard : w.stage.aboard = f.buffered := by rw [hs]; rfl
    have hlen : (w.daemon.completeFailed f).buffer.records.length ≤
        w.daemon.buffer.records.length := Nat.le_of_eq (by rw [hbuffer])
    refine ⟨⟨t', hsec⟩, ?_⟩
    rw [gained_eq_nil hlen, List.append_nil, hsec.places_eq rfl, h.places_eq (by rw [hs]; rfl),
      haboard, hrows, recordsOf_append, hnew]
    dsimp only
    rw [hbuffer, List.append_assoc]
    exact .refl _
  · exact h.refl

theorem balanced_reboot (h : Secure w t) (hm : w.Peaceful .reboot) :
    Balanced w (w.move .reboot) := by
  obtain ⟨haboard, hsettled⟩ := Stage.of_flight_eq_none (hm.landed rfl)
  obtain ⟨⟨t', hsec⟩, hperm⟩ := h.shutdown (h.room hm)
  have hempty : w.daemon.shutdown.buffer.records = [] := by
    obtain ⟨_, _, _, he⟩ := h.kept.shutdown (h.room hm)
    exact he
  have hconsent := hm.consent
  change Balanced w ({ w with daemon := w.daemon.shutdown } : Site).restart
  change _ → ({ w with daemon := w.daemon.shutdown } : Site).restart.daemon.gate.enabled = true
    at hconsent
  rw [restart] at hconsent ⊢
  split
  · next d hr =>
    rw [hr] at hconsent
    obtain ⟨t'', hk, hsame, hbuffer⟩ := hsec.kept.restart hr fun hon =>
      hconsent ((enabled_shutdown w.daemon).symm.trans hon)
    have hsec' : Secure { w with daemon := d, stage := .idle } t'' := .of_landed hk rfl
    have hfrom : ({ w with daemon := w.daemon.shutdown } : Site).places = _ :=
      hsec.places_eq hsettled
    refine ⟨⟨t'', hsec'⟩, ?_⟩
    rw [gained_eq_nil (by rw [hempty]; exact Nat.zero_le _), hfrom] at hperm
    rw [gained_eq_nil (by dsimp only; rw [hbuffer]; exact Nat.zero_le _), hsec'.places_eq rfl]
    dsimp only at hperm ⊢
    rw [hbuffer, hsame]
    rw [hempty, haboard] at hperm
    exact hperm
  · exact ⟨⟨t', hsec⟩, hperm⟩

theorem balanced_move (h : Secure w t) {m : Move} (hm : w.Peaceful m) : Balanced w (w.move m) := by
  have ho := hm.orderly
  cases m with
  | reboot => exact balanced_reboot h hm
  | act a =>
    have heffect (d : Daemon) (he : Effect w.daemon d)
        (hd : (w.move (.act a)).daemon = d) : Balanced w { w with daemon := d } :=
      h.still (.of_effect he (hd ▸ hm.consent)) (h.kept.discreet.effect he)
    cases a with
    | request s r => exact balanced_request h hm
    | disconnect client => exact heffect _ (effect_disconnect _ client) rfl
    | advance nanoseconds => exact heffect _ (effect_advance _ nanoseconds) rfl
    | setToday date => exact heffect _ (effect_setToday _ date) rfl
    | rollover => exact heffect _ (effect_checkRollover _) rfl
    | flush => exact h.flush (h.room hm)
    | shutdown => exact h.shutdown (h.room hm)
    | restart | loseTally | loseCache | abandon => cases ho
    | check trigger => exact balanced_check trigger h (h.room hm)
    | gather =>
      have hok := hm.readable rfl
      cases hrows : w.daemon.closedRows with
      | ok rows => exact balanced_gather h hrows
      | error e =>
        rw [hrows] at hok
        cases hok
    | attempt => exact balanced_attempt h
    | answer accepted => exact balanced_answer h accepted
    | complete => exact balanced_complete h hm

def moves (w : Site) (ms : List Move) : Site := ms.foldl move w

/-- Every move of a history is peaceful where it is made. -/
def AllPeaceful : Site → List Move → Prop
  | _, [] => True
  | w, m :: ms => w.Peaceful m ∧ AllPeaceful (w.move m) ms

instance decidableAllPeaceful : (w : Site) → (ms : List Move) → Decidable (AllPeaceful w ms)
  | _, [] => .isTrue trivial
  | w, m :: ms =>
    have := decidableAllPeaceful (w.move m) ms
    inferInstanceAs (Decidable (w.Peaceful m ∧ AllPeaceful (w.move m) ms))

/-- All that the buffer accepted in a history. -/
def accepts : Site → List Move → List Record
  | _, [] => []
  | w, m :: ms => gained w (w.move m) ++ accepts (w.move m) ms

theorem places_moves (h : Secure w t) {ms : List Move} (hms : AllPeaceful w ms) :
    (w.moves ms).places.Perm (w.places ++ accepts w ms) := by
  induction ms generalizing w t with
  | nil =>
    rw [accepts, List.append_nil]
    exact .refl _
  | cons m ms ih =>
    obtain ⟨⟨t', hsec⟩, hperm⟩ := balanced_move h hms.1
    have hrest := ih hsec hms.2
    rw [accepts, ← List.append_assoc]
    exact hrest.trans (hperm.append_right _)

/-- What was cached at the start and every event that the buffer accepted since is in one of the
places, as often as it came, and nothing else is. -/
theorem events_conserved {config : Daemon.Config} {disk : Disk} {clock : Clock} {d : Daemon}
    (ha : assemble config disk clock = .ok d) (hd : config.discards = true)
    (hdisk : ∀ t, disk.cache = some t → t.Sound) {ms : List Move}
    (hms : AllPeaceful (opened d) ms) :
    ((opened d).moves ms).places.Perm (recordsOf d.cache.rows ++ accepts (opened d) ms) := by
  have hsound : (disk.cache.getD .empty).Sound := by
    cases hc : disk.cache with
    | none => exact CacheTable.sound_empty
    | some t => exact hdisk t hc
  obtain ⟨hbuffer, t, hk, -⟩ := Kept.of_assemble ha hd hsound
  have hsec : Secure (opened d) t := .of_landed (w := opened d) hk rfl
  have hopened : (opened d).places = recordsOf d.cache.rows := by
    rw [hsec.places_eq rfl]
    change d.buffer.records ++ (recordsOf t.rows ++ ([] ++ [])) = _
    rw [hbuffer, List.nil_append, List.nil_append, List.append_nil]
    exact congrArg recordsOf hsec.kept.rows.symm
  rw [← hopened]
  exact places_moves hsec hms

def eventful : List Move :=
  [.act (.request (.fresh ⟨0⟩ 0) (.setEnabled true)),
   .act (.request (.fresh ⟨0⟩ 0) (.setUploading true)), .act (.request (.fresh ⟨1⟩ 1000)
     (.recordSingular 1000 (List.replicate 16 1) 5 ⟨false, .bool false⟩)),
   .act .flush, .act (.request (.fresh ⟨1⟩ 1000)
     (.recordSingular 1000 (List.replicate 16 2) 5 ⟨true, .int32 7⟩)),
   .act (.check .scheduled), .act .gather, .act .attempt, .act (.answer false),
   .act (.request (.fresh ⟨1⟩ 1000)
     (.recordSingular 1000 (List.replicate 16 3) 5 ⟨false, .bool false⟩)),
   .act .flush, .act .attempt, .act (.answer true), .act .complete,
   .act (.request (.fresh ⟨1⟩ 1000)
     (.recordSingular 1000 (List.replicate 16 4) 5 ⟨false, .bool false⟩)),
   .reboot]

theorem events_conserved_eventful :
    ∃ d, assemble .standard .empty (.start .epoch) = .ok d ∧
      Daemon.Config.standard.discards = true ∧
      (∀ t, Disk.empty.cache = some t → t.Sound) ∧ AllPeaceful (opened d) eventful ∧
      (accepts (opened d) eventful).length = 4 ∧
      ((opened d).moves eventful).delivered.length = 2 ∧
      ((opened d).moves eventful).undelivered.length = 2 ∧
      ((opened d).moves eventful).places.Perm (recordsOf d.cache.rows ++ accepts (opened d) eventful) := by
  have ha : assemble .standard .empty (.start .epoch) = .ok _ := rfl
  have hd : Daemon.Config.standard.discards = true := rfl
  have hdisk : ∀ t, Disk.empty.cache = some t → t.Sound := fun _ h => nomatch h
  refine ⟨_, ha, hd, hdisk, by decide +kernel, by decide +kernel, by decide +kernel,
    by decide +kernel, ?_⟩
  exact events_conserved ha hd hdisk (by decide +kernel)

end Site

end Telemetry
