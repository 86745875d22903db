import Telemetry.Proofs.Daemon.Staleness

namespace Telemetry

open Consent Daemon Event Protocol Timer Upload

namespace Consent.Gate

/-- The same consent, and as many revocations. -/
structure Agrees (g g' : Gate) : Prop where
  state : g'.state = g.state
  generation : g'.generation = g.generation

theorem Agrees.of_eq {g g' : Gate} (h : g' = g) : Agrees g g' := by
  subst h
  exact ⟨rfl, rfl⟩

theorem Agrees.trans {g g' g'' : Gate} (h : Agrees g g') (h' : Agrees g' g'') : Agrees g g'' :=
  ⟨h'.state.trans h.state, h'.generation.trans h.generation⟩

theorem Agrees.enabled {g g' : Gate} (h : Agrees g g') : g'.enabled = g.enabled := by
  rw [Gate.enabled, h.state]
  rfl

theorem setUploading_of_allowed {g : Gate} {user : UInt32}
    (ha : g.authority.allows user .setUploading = true) (hon : g.enabled = true) (uploading : Bool) :
    g.setUploading user uploading = .ok (if g.state.uploading = uploading then g
      else ({ g with state := { g.state with uploading := uploading } } : Gate).announce) := by
  have hn : ¬(!g.state.enabled) = true := by
    rw [Gate.enabled] at hon
    rw [hon]
    exact Bool.false_ne_true
  rw [setUploading, authorize, if_pos ha]
  change (if !g.state.enabled then _ else _) = _
  rw [if_neg hn]
  split <;> rfl

end Consent.Gate

namespace Daemon

open Gate

variable {d d' : Daemon}

theorem gate_commitEnded (d : Daemon) (is : List Tally.Increment) (timers : Registry) :
    (d.commitEnded is timers).2.gate = d.gate := by
  obtain ⟨tally, h⟩ := exists_tally_commitEnded d is timers
  rw [h]

theorem gate_disconnect (d : Daemon) (client : ClientId) : (d.disconnect client).gate = d.gate := by
  rw [disconnect]
  split
  · exact gate_commitEnded d _ _
  · rfl

theorem gate_commitTimers (d : Daemon) : d.commitTimers.2.gate = d.gate := by
  rw [commitTimers]
  split
  · exact gate_commitEnded d _ _
  · rfl

theorem gate_checkRollover (d : Daemon) : d.checkRollover.2.gate = d.gate := by
  rw [checkRollover, splitTimers]
  split
  · rfl
  · dsimp only
    split
    · exact gate_commitEnded { d with lastDay := d.clock.today } _ _
    · rfl

theorem agrees_shutdown (d : Daemon) : Agrees d.gate d.shutdown.gate := by
  have hgate : d.commitTimers.2.flush.2.gate = d.gate :=
    (shifted_flush _).gate.trans (gate_commitTimers d)
  have hclose : Agrees d.commitTimers.2.flush.2.gate d.shutdown.gate := ⟨rfl, rfl⟩
  rw [hgate] at hclose
  exact hclose

theorem gate_settled_commit (d : Daemon) (is : List Tally.Increment) :
    (d.settled (d.commit is)).2.gate = d.gate := by
  cases hc : d.commit is with
  | ok e =>
    obtain ⟨tally, rfl⟩ := exists_tally_of_commit hc
    rfl
  | error e => rfl

theorem gate_stopTimer (d : Daemon) (s : Session) (handle : TimerHandle) :
    (d.stopTimer s handle).2.gate = d.gate := by
  rw [stopTimer, release]
  split
  · rfl
  · next h =>
    split at h
    · cases h
    · cases h
      rfl
  · next h =>
    split at h
    · cases h
    · cases h
      rw [commitSince, since]
      split
      · exact gate_settled_commit _ _
      · rfl

theorem gate_setEnabled (d : Daemon) (user : UInt32) (enabled : Bool) :
    (d.settled (d.setEnabled user enabled)).2.gate =
      if d.gate.authority.allows user .setEnabled = true ∧ d.gate.enabled ≠ enabled then
        (d.gate.turn enabled).announce
      else d.gate := by
  rw [setEnabled, authorize]
  cases d.gate.authority.allows user .setEnabled with
  | false => rfl
  | true =>
    by_cases he : d.gate.enabled = enabled
    · simp [he, settled, bind, Except.bind, pure, Except.pure]
    · simp [he, settled, bind, Except.bind, pure, Except.pure, gate_turn]

theorem isOk_setUploading (d : Daemon) (user : UInt32) (uploading : Bool) :
    (d.setUploading user uploading).isOk = true ↔
      d.gate.authority.allows user .setUploading = true ∧ d.gate.enabled = true := by
  constructor
  · rw [setUploading, Gate.setUploading, authorize, Gate.enabled]
    cases d.gate.authority.allows user .setUploading with
    | false =>
      intro h
      cases h
    | true =>
      cases d.gate.state.enabled with
      | false =>
        intro h
        cases h
      | true => exact fun _ => ⟨rfl, rfl⟩
  · rintro ⟨ha, hon⟩
    rw [setUploading, setUploading_of_allowed ha hon]
    rfl

theorem state_setUploading {user : UInt32} {uploading : Bool}
    (h : d.setUploading user uploading = .ok d') :
    d'.gate.state = { d.gate.state with uploading := uploading } ∧
      d'.gate.generation = d.gate.generation := by
  have hok : (d.setUploading user uploading).isOk = true := by
    rw [h]
    rfl
  obtain ⟨ha, hon⟩ := (isOk_setUploading d user uploading).1 hok
  rw [setUploading, setUploading_of_allowed ha hon] at h
  cases h
  dsimp only
  split
  · next hu =>
    subst hu
    exact ⟨rfl, rfl⟩
  · exact ⟨rfl, rfl⟩

theorem gate_dispatch (d : Daemon) (c : Collector) (s : Session) {r : Request}
    (hu : r ≠ .uploadEvents) (he : ∀ enabled, r ≠ .setEnabled enabled)
    (hp : ∀ uploading, r ≠ .setUploading uploading) :
    ((⟨d, c⟩ : Host).dispatch s r).2.2.daemon.gate = d.gate := by
  have hserved := served_dispatch d c s hu
  generalize ((⟨d, c⟩ : Host).dispatch s r).2.2.daemon = d' at hserved ⊢
  cases hserved with
  | recorded | started | unchanged => rfl
  | stopped handle => exact gate_stopTimer d s handle
  | turned enabled => exact absurd rfl (he enabled)
  | permitted uploading => exact absurd rfl (hp uploading)

theorem agrees_undergo (d : Daemon) {m : Meanwhile} (hm : ∀ enabled, m ≠ .setEnabled enabled) :
    Agrees d.gate (d.undergo m).gate := by
  cases m with
  | setEnabled enabled => exact absurd rfl (hm enabled)
  | count i => exact .of_eq (gate_settled_commit d [i])
  | advance | loseTally | loseCache => exact .of_eq rfl

theorem agrees_foldl_undergo (d : Daemon) {ms : List Meanwhile}
    (hm : ∀ enabled, .setEnabled enabled ∉ ms) : Agrees d.gate (ms.foldl undergo d).gate := by
  induction ms generalizing d with
  | nil => exact .of_eq rfl
  | cons m ms ih =>
    have hfirst := agrees_undergo d (m := m) fun enabled he => hm enabled (by simp [he])
    exact hfirst.trans (ih _ fun enabled he => hm enabled (by simp [he]))

/-- Nobody changes consent while an attempt is under way. -/
def Undisputed (c : Collector) : Prop :=
  ∀ course ∈ c.script, ∀ enabled, .setEnabled enabled ∉ course.meanwhile

theorem agrees_attempts (f : InFlight) (total left : Nat) (last : Option Http.SendError) (d : Daemon)
    {c : Collector} (hc : Undisputed c) :
    Agrees d.gate (attempts f total left last d c).2.1.gate := by
  induction left generalizing last d c with
  | zero => exact .of_eq rfl
  | succ left ih =>
    rw [attempts]
    cases hb : d.beginAttempt f with
    | none => exact .of_eq rfl
    | some p =>
      obtain ⟨batch, d'⟩ := p
      have hbegin := (passed_beginAttempt hb).gate
      have hm : ∀ enabled, .setEnabled enabled ∉ c.course.meanwhile := by
        intro enabled
        rw [Collector.course]
        cases hs : c.script with
        | nil => simp [Course.smooth]
        | cons course rest => exact hc course (by simp [hs]) enabled
      have hmeanwhile := agrees_foldl_undergo d' hm
      rw [hbegin] at hmeanwhile
      dsimp only
      split
      · exact hmeanwhile.trans (ih _ _ fun course h => hc course (List.mem_of_mem_drop h))
      · exact hmeanwhile

theorem agrees_upload (d : Daemon) {c : Collector} (hc : Undisputed c) (trigger : Trigger) :
    Agrees d.gate (d.upload c trigger).2.1.gate := by
  have hbegin := (shifted_beginUpload d).gate
  rw [upload, prepare]
  cases hb : d.beginUpload with
  | mk r d₁ =>
    rw [hb] at hbegin
    cases r with
    | error e => exact .of_eq hbegin
    | ok generation =>
      have hgather := (shifted_gather d₁ generation (d₁.uploadLimit trigger)).gate
      dsimp only at hbegin ⊢
      cases hg : d₁.gather generation (d₁.uploadLimit trigger) with
      | mk r d₂ =>
        rw [hg] at hgather
        have hprepared : Agrees d.gate d₂.gate := .of_eq (hgather.trans hbegin)
        cases r with
        | error e => exact hprepared
        | ok f =>
          have hattempts := agrees_attempts f d₂.config.upload.maxAttempts
            d₂.config.upload.maxAttempts none d₂ hc
          dsimp only
          rw [deliver]
          split
          · exact hprepared
          · split
            · next ha =>
              rw [ha] at hattempts
              exact hprepared.trans (hattempts.trans (.of_eq (shifted_completeDelivered _ f).gate))
            · next ha =>
              rw [ha] at hattempts
              exact hprepared.trans (hattempts.trans (.of_eq (shifted_completeFailed _ f).gate))

end Daemon

namespace Site

open Gate

/-- What a call that succeeds sets the permission to. -/
def sets? (w : Site) : Act → Option Bool
  | .request s (.setUploading uploading) =>
    if (w.daemon.setUploading s.user uploading).isOk then some uploading else none
  | _ => none

/-- Through all of the acts `enabled` stays as it is and no call sets the permission. -/
def Unset : Site → List Act → Prop
  | _, [] => True
  | w, a :: acts =>
    (w.step a).daemon.gate.enabled = w.daemon.gate.enabled ∧ w.sets? a = none ∧ Unset (w.step a) acts

/-- The last call that sets the permission gives it, and `enabled` has not changed since. -/
def Permitted (w : Site) (acts : List Act) : Prop :=
  ∃ before a after, acts = before ++ a :: after ∧ (w.run before).sets? a = some true ∧
    Unset ((w.run before).step a) after

theorem permitted_nil (w : Site) : ¬Permitted w [] := by
  rintro ⟨before, a, after, hsplit, -⟩
  cases before <;> cases hsplit

theorem permitted_cons {w : Site} {a : Act} {acts : List Act} :
    Permitted w (a :: acts) ↔
      w.sets? a = some true ∧ Unset (w.step a) acts ∨ Permitted (w.step a) acts := by
  constructor
  · rintro ⟨before, b, after, hsplit, hsets, hunset⟩
    cases before with
    | nil =>
      cases hsplit
      exact .inl ⟨hsets, hunset⟩
    | cons c before =>
      cases hsplit
      exact .inr ⟨before, b, after, rfl, hsets, hunset⟩
  · rintro (⟨hsets, hunset⟩ | ⟨before, b, after, rfl, hsets, hunset⟩)
    · exact ⟨[], a, acts, rfl, hsets, hunset⟩
    · exact ⟨a :: before, b, after, rfl, hsets, hunset⟩

/-- What an act other than a restart can do to consent. -/
theorem consent_step (w : Site) {a : Act} (ha : a ≠ .restart) :
    (∃ s enabled, a = .request s (.setEnabled enabled) ∧
      w.daemon.gate.authority.allows s.user .setEnabled = true ∧ w.daemon.gate.enabled ≠ enabled ∧
      w.sets? a = none ∧ (w.step a).daemon.gate = (w.daemon.gate.turn enabled).announce) ∨
    (∃ s uploading, a = .request s (.setUploading uploading) ∧ w.sets? a = some uploading ∧
      (w.step a).daemon.gate.state = { w.daemon.gate.state with uploading := uploading } ∧
      (w.step a).daemon.gate.generation = w.daemon.gate.generation) ∨
    (w.sets? a = none ∧ Agrees w.daemon.gate (w.step a).daemon.gate) := by
  cases a with
  | request s r =>
    cases r with
    | setEnabled enabled =>
      have hgate := congrArg Daemon.gate (dispatch_setEnabled w.daemon .fresh s enabled)
      rw [gate_setEnabled] at hgate
      by_cases hturn : w.daemon.gate.authority.allows s.user .setEnabled = true ∧
          w.daemon.gate.enabled ≠ enabled
      · rw [if_pos hturn] at hgate
        exact .inl ⟨s, enabled, rfl, hturn.1, hturn.2, rfl, hgate⟩
      · rw [if_neg hturn] at hgate
        exact .inr (.inr ⟨rfl, .of_eq hgate⟩)
    | setUploading uploading =>
      have hdaemon : (w.step (.request s (.setUploading uploading))).daemon =
          (w.daemon.settled (w.daemon.setUploading s.user uploading)).2 :=
        dispatch_setUploading w.daemon .fresh s uploading
      rw [hdaemon, sets?]
      cases h : w.daemon.setUploading s.user uploading with
      | ok d =>
        obtain ⟨hstate, hgeneration⟩ := state_setUploading h
        exact .inr (.inl ⟨s, uploading, rfl, rfl, hstate, hgeneration⟩)
      | error e => exact .inr (.inr ⟨rfl, .of_eq rfl⟩)
    | uploadEvents => exact .inr (.inr ⟨rfl, .of_eq (shifted_check w .requested).gate⟩)
    | recordSingular | recordAggregate | recordSequence | startTimer | stopTimer | getEnabled
    | getUploading =>
      refine .inr (.inr ⟨rfl, .of_eq ?_⟩)
      exact gate_dispatch w.daemon .fresh s (fun h => nomatch h) (fun _ h => nomatch h)
        fun _ h => nomatch h
  | disconnect client => exact .inr (.inr ⟨rfl, .of_eq (gate_disconnect _ client)⟩)
  | rollover => exact .inr (.inr ⟨rfl, .of_eq (gate_checkRollover _)⟩)
  | flush => exact .inr (.inr ⟨rfl, .of_eq (shifted_flush _).gate⟩)
  | shutdown => exact .inr (.inr ⟨rfl, agrees_shutdown _⟩)
  | restart => exact absurd rfl ha
  | check trigger => exact .inr (.inr ⟨rfl, .of_eq (shifted_check w trigger).gate⟩)
  | gather => exact .inr (.inr ⟨rfl, .of_eq (shifted_step_gather w).gate⟩)
  | attempt => exact .inr (.inr ⟨rfl, .of_eq (passed_attempt w).gate⟩)
  | answer accepted =>
    refine .inr (.inr ⟨rfl, .of_eq ?_⟩)
    rw [step, daemon_answer]
  | complete => exact .inr (.inr ⟨rfl, .of_eq (shifted_complete w).gate⟩)
  | advance | setToday | loseTally | loseCache | abandon => exact .inr (.inr ⟨rfl, .of_eq rfl⟩)

theorem uploading_run {w : Site} {acts : List Act} (ha : ∀ a ∈ acts, a ≠ .restart) :
    (w.run acts).daemon.gate.state.uploading = true ↔
      Permitted w acts ∨ Unset w acts ∧ w.daemon.gate.state.uploading = true := by
  induction acts generalizing w with
  | nil => simp [permitted_nil, Unset]
  | cons a acts ih =>
    have hrest := ih (w := w.step a) fun b hb => ha b (by simp [hb])
    rw [run_cons, hrest, permitted_cons, Unset]
    obtain ⟨s, enabled, -, -, hturn, hsets, hgate⟩ | ⟨s, uploading, -, hsets, hstate, -⟩ |
      ⟨hsets, hagrees⟩ := consent_step w (ha a (by simp))
    · -- the change takes the permission away, and nothing before it counts
      have hoff : (w.step a).daemon.gate.state.uploading = false := by
        rw [hgate]
        rfl
      have hne : (w.step a).daemon.gate.enabled ≠ w.daemon.gate.enabled := by
        rw [hgate]
        exact Ne.symm hturn
      simp [hoff, hne, hsets]
    · have hnow : (w.step a).daemon.gate.state.uploading = uploading := by rw [hstate]
      simp [hnow, hsets, or_comm, and_comm]
    · have henabled := hagrees.enabled
      have hstate := hagrees.state
      simp [henabled, hstate, hsets]

/-- How often metrics were disabled. -/
def revocations : Site → List Act → Nat
  | _, [] => 0
  | w, a :: acts =>
    (if w.daemon.gate.enabled && !(w.step a).daemon.gate.enabled then 1 else 0) +
      revocations (w.step a) acts

theorem generation_run {w : Site} {acts : List Act} (ha : ∀ a ∈ acts, a ≠ .restart) :
    (w.run acts).daemon.gate.generation = w.daemon.gate.generation + revocations w acts := by
  induction acts generalizing w with
  | nil => rfl
  | cons a acts ih =>
    have hrest := ih (w := w.step a) fun b hb => ha b (by simp [hb])
    have hstep : (w.step a).daemon.gate.generation = w.daemon.gate.generation +
        if w.daemon.gate.enabled && !(w.step a).daemon.gate.enabled then 1 else 0 := by
      obtain ⟨s, enabled, -, -, hturn, -, hgate⟩ | ⟨s, uploading, -, -, hstate, hgeneration⟩ |
        ⟨-, hagrees⟩ := consent_step w (ha a (by simp))
      · rw [hgate]
        cases enabled with
        | true => simp [announce, Gate.turn, Gate.enabled]
        | false =>
          have hon : w.daemon.gate.enabled = true := by simpa using hturn
          rw [hon]
          rfl
      · rw [hgeneration, Gate.enabled, Gate.enabled, hstate]
        simp
      · rw [hagrees.generation, hagrees.enabled]
        simp
    rw [run_cons, hrest, hstep, revocations]
    omega

theorem revocations_le (w : Site) (acts : List Act) : revocations w acts ≤ acts.length := by
  induction acts generalizing w with
  | nil => exact Nat.le_refl 0
  | cons a acts ih =>
    have hrest := ih (w.step a)
    rw [revocations, List.length_cons]
    split <;> omega

/-- Whatever a start finds, uploads are allowed just where metrics are enabled and the permission was
given since they last changed, or was found by the start if they never changed, and was not taken
back. Revocations are counted, one for each act at most, so that their number has 64 bits as long as
that of the acts has. No call without authority and no act about other things changes consent, and a
whole upload does not either. -/
theorem uploads_allowed_iff {d : Daemon} {state : State} {authority : Authority}
    (hd : d.gate = .opened state authority) {acts : List Act} (ha : ∀ a ∈ acts, a ≠ .restart) :
    (((opened d).run acts).daemon.gate.uploadAllowed = true ↔
      ((opened d).run acts).daemon.gate.enabled = true ∧
        (Permitted (opened d) acts ∨ Unset (opened d) acts ∧ state.uploading = true)) ∧
    ((opened d).run acts).daemon.gate.generation = revocations (opened d) acts ∧
    revocations (opened d) acts ≤ acts.length ∧
    (∀ (w : Site) (s : Session) (uploading : Bool),
      w.sets? (.request s (.setUploading uploading)) = some uploading ↔
        w.daemon.gate.authority.allows s.user .setUploading = true ∧
          w.daemon.gate.enabled = true) ∧
    (∀ (w : Site) (a : Act), a ≠ .restart → w.sets? a = none →
      (∀ s enabled, a = .request s (.setEnabled enabled) →
        w.daemon.gate.authority.allows s.user .setEnabled = false) →
      Agrees w.daemon.gate (w.step a).daemon.gate) ∧
    ∀ (h : Host) (s : Session), Undisputed h.collector →
      Agrees h.daemon.gate (h.dispatch s .uploadEvents).2.2.daemon.gate := by
  refine ⟨?_, ?_, revocations_le _ acts, fun w s uploading => ?_, fun w a hr hsets hauth => ?_,
    fun h s hc => ?_⟩
  · have huploading := uploading_run (w := opened d) ha
    have hstart : (opened d).daemon.gate.state.uploading = state.uploading := by
      change d.gate.state.uploading = _
      rw [hd]
      rfl
    rw [hstart] at huploading
    rw [← huploading, uploadAllowed, State.uploadAllowed, Bool.and_eq_true]
    rfl
  · rw [generation_run ha]
    have hstart : (opened d).daemon.gate.generation = 0 := by
      change d.gate.generation = _
      rw [hd]
      rfl
    rw [hstart, Nat.zero_add]
  · rw [← isOk_setUploading w.daemon s.user uploading, sets?]
    split <;> simp_all
  · obtain ⟨s, enabled, rfl, hallows, -⟩ | ⟨s, uploading, -, hsome, -⟩ | ⟨-, hagrees⟩ :=
      consent_step w hr
    · rw [hauth s enabled rfl] at hallows
      cases hallows
    · rw [hsets] at hsome
      cases hsome
    · exact hagrees
  · have hupload := agrees_upload h.daemon hc .requested
    rw [host_dispatch]
    exact hupload

def permittedWhileDisabled : Disk :=
  { Disk.empty with consent := .file (State.toKeyFile ⟨false, true, .dev⟩).contents }

def permissionChanges : List Act :=
  [.request (.fresh ⟨0⟩ 0) (.setEnabled true), .request (.fresh ⟨0⟩ 0) (.setUploading true),
   .request (.fresh ⟨0⟩ 0) (.setEnabled false), .request (.fresh ⟨1⟩ 1000) (.setEnabled true),
   .request (.fresh ⟨0⟩ 0) (.setUploading true), .request (.fresh ⟨0⟩ 0) (.setEnabled true),
   .request (.fresh ⟨1⟩ 1000) (.setUploading true), .request (.fresh ⟨0⟩ 0) .uploadEvents]

theorem uploads_allowed_iff_changes :
    ∃ d, assemble .standard permittedWhileDisabled (.start .epoch) = .ok d ∧
      d.gate = .opened ⟨false, true, .dev⟩ .root ∧ (∀ a ∈ permissionChanges, a ≠ .restart) ∧
      ((opened d).run permissionChanges).daemon.gate.enabled = true ∧
      ((opened d).run permissionChanges).daemon.gate.generation = 1 ∧
      revocations (opened d) permissionChanges = 1 ∧
      ¬Permitted (opened d) permissionChanges := by
  have ha : assemble .standard permittedWhileDisabled (.start .epoch) = .ok _ := rfl
  have hd : ∀ a ∈ permissionChanges, a ≠ .restart := by decide
  refine ⟨_, ha, rfl, hd, by decide, by decide, ?_, ?_⟩
  · exact (uploads_allowed_iff (by rfl) hd).2.1.symm.trans (by decide)
  · exact fun hpermitted =>
      absurd ((uploads_allowed_iff (by rfl) hd).1.2 ⟨by decide, .inl hpermitted⟩) (by decide)

end Site

end Telemetry
