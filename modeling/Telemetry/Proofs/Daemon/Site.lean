import Telemetry.Protocol.Server

namespace Telemetry

open Calendar Event Protocol Upload

/-- How far the upload under way has come. -/
inductive Stage
  | idle
  | checked (generation : Nat) (trigger : Trigger)
  | waiting (f : InFlight) (left : Nat)
  | sending (f : InFlight) (left : Nat) (batch : Batch)
  | ended (f : InFlight) (delivered : Bool)
  deriving DecidableEq, Repr

def Stage.flight? : Stage → Option InFlight
  | idle => none
  | checked .. => none
  | waiting f _ => some f
  | sending f .. => some f
  | ended f _ => some f

structure Site where
  daemon : Daemon
  stage : Stage
  /-- Every batch that the collector was called with. -/
  sent : List Batch
  /-- The batches that it accepted. -/
  accepted : List Batch
  deriving DecidableEq, Repr

inductive Act
  | request (s : Session) (r : Request)
  | disconnect (client : ClientId)
  | advance (nanoseconds : Nat)
  | setToday (date : Date)
  | rollover
  | flush
  | shutdown
  | restart
  | loseTally
  | loseCache
  | check (trigger : Trigger)
  | gather
  | attempt
  | answer (accepted : Bool)
  | complete
  | abandon
  deriving DecidableEq, Repr

def Act.ends : Act → Bool
  | restart | complete | abandon => true
  | _ => false

namespace Site

def opened (d : Daemon) : Site := ⟨d, .idle, [], []⟩

def check (w : Site) (trigger : Trigger) : Site :=
  match w.stage with
  | .idle =>
    match w.daemon.beginUpload with
    | (.ok generation, d) => { w with daemon := d, stage := .checked generation trigger }
    | (.error _, d) => { w with daemon := d }
  | _ => w

def gather (w : Site) : Site :=
  match w.stage with
  | .checked generation trigger =>
    match w.daemon.gather generation (w.daemon.uploadLimit trigger) with
    | (.ok f, d) =>
      let stage := if f.batch.isEmpty then .idle else .waiting f d.config.upload.maxAttempts
      { w with daemon := d, stage := stage }
    | (.error _, d) => { w with daemon := d, stage := .idle }
  | _ => w

def attempt (w : Site) : Site :=
  match w.stage with
  | .waiting f 0 => { w with stage := .ended f false }
  | .waiting f (left + 1) =>
    match w.daemon.beginAttempt f with
    | none => { w with stage := .ended f false }
    | some (batch, d) =>
      { w with daemon := d, stage := .sending f left batch, sent := w.sent ++ [batch] }
  | _ => w

def answer (w : Site) (accepted : Bool) : Site :=
  match w.stage with
  | .sending f left batch =>
    if accepted then { w with stage := .ended f true, accepted := w.accepted ++ [batch] }
    else { w with stage := .waiting f left }
  | _ => w

def complete (w : Site) : Site :=
  match w.stage with
  | .ended f true => { w with daemon := w.daemon.completeDelivered f, stage := .idle }
  | .ended f false => { w with daemon := w.daemon.completeFailed f, stage := .idle }
  | _ => w

def restart (w : Site) : Site :=
  match w.daemon.restart with
  | .ok d => { w with daemon := d, stage := .idle }
  | .error _ => w

def request (w : Site) (s : Session) (r : Request) : Site :=
  if r = .uploadEvents then w.check .requested
  else { w with daemon := ((⟨w.daemon, .fresh⟩ : Host).dispatch s r).2.2.daemon }

def step (w : Site) : Act → Site
  | .request s r => w.request s r
  | .disconnect client => { w with daemon := w.daemon.disconnect client }
  | .advance nanoseconds => { w with daemon := w.daemon.advance nanoseconds }
  | .setToday date => { w with daemon := w.daemon.setToday date }
  | .rollover => { w with daemon := w.daemon.checkRollover.2 }
  | .flush => { w with daemon := w.daemon.flush.2 }
  | .shutdown => { w with daemon := w.daemon.shutdown }
  | .restart => w.restart
  | .loseTally => { w with daemon := { w.daemon with tally := w.daemon.tally.broken } }
  | .loseCache => { w with daemon := { w.daemon with cache := w.daemon.cache.broken } }
  | .check trigger => w.check trigger
  | .gather => w.gather
  | .attempt => w.attempt
  | .answer accepted => w.answer accepted
  | .complete => w.complete
  | .abandon => { w with stage := .idle }

def run (w : Site) (acts : List Act) : Site := acts.foldl step w

@[simp] theorem run_nil (w : Site) : w.run [] = w := rfl

@[simp] theorem run_cons (w : Site) (a : Act) (acts : List Act) :
    w.run (a :: acts) = (w.step a).run acts := rfl

theorem run_append (w : Site) (before after : List Act) :
    w.run (before ++ after) = (w.run before).run after := List.foldl_append

theorem run_induction {P : Site → Prop} (hstep : ∀ w a, P w → P (w.step a)) {w : Site} (h : P w)
    (acts : List Act) : P (w.run acts) := by
  induction acts generalizing w with
  | nil => exact h
  | cons a acts ih => exact ih (hstep w a h)

def beside (d : Daemon) (stage : Stage) (c : Collector) : Site :=
  ⟨d, stage, c.received.map Delivery.batch, c.accepted⟩

def Orderly (c : Collector) : Prop := ∀ course ∈ c.script, ∀ i, .count i ∉ course.meanwhile

theorem exists_act_undergo (w : Site) {m : Meanwhile} (h : ∀ i, m ≠ .count i) :
    ∃ a, w.step a = { w with daemon := w.daemon.undergo m } := by
  cases m with
  | setEnabled enabled =>
    refine ⟨.request (.fresh ⟨0⟩ 0) (.setEnabled enabled), ?_⟩
    simp only [step, request, reduceCtorEq, if_false, Host.dispatch, Host.execute, Host.changed,
      Session.fresh, Daemon.undergo, Daemon.settled]
    cases w.daemon.setEnabled 0 enabled <;> rfl
  | advance nanoseconds => exact ⟨.advance nanoseconds, rfl⟩
  | count i => exact absurd rfl (h i)
  | loseTally => exact ⟨.loseTally, rfl⟩
  | loseCache => exact ⟨.loseCache, rfl⟩

theorem exists_run_undergo (w : Site) {ms : List Meanwhile} (h : ∀ i, .count i ∉ ms) :
    ∃ acts, w.run acts = { w with daemon := ms.foldl Daemon.undergo w.daemon } := by
  induction ms generalizing w with
  | nil => exact ⟨[], rfl⟩
  | cons m ms ih =>
    obtain ⟨a, ha⟩ := exists_act_undergo w (m := m) fun i he => h i (by simp [he])
    obtain ⟨acts, hacts⟩ := ih (w.step a) fun i hi => h i (by simp [hi])
    refine ⟨a :: acts, ?_⟩
    rw [run_cons, hacts, ha]
    rfl

theorem exists_run_attempts (f : InFlight) (total left : Nat) (last : Option Http.SendError)
    (d : Daemon) {c : Collector} (hc : Orderly c) :
    ∃ acts, (beside d (.waiting f left) c).run acts =
      beside (Daemon.attempts f total left last d c).2.1
        (.ended f (Daemon.attempts f total left last d c).1.isOk)
        (Daemon.attempts f total left last d c).2.2 := by
  induction left generalizing last d c with
  | zero => exact ⟨[.attempt], rfl⟩
  | succ left ih =>
    rw [Daemon.attempts]
    cases hb : d.beginAttempt f with
    | none =>
      refine ⟨[.attempt], ?_⟩
      simp only [run_cons, run_nil, step, attempt, beside, hb]
      rfl
    | some p =>
      obtain ⟨batch, d'⟩ := p
      have hm : ∀ i, .count i ∉ c.course.meanwhile := by
        intro i
        rw [Collector.course]
        cases hs : c.script with
        | nil => simp [Course.smooth]
        | cons course rest => exact hc course (by simp [hs]) i
      have hc' : Orderly (c.receive batch) :=
        fun course h => hc course (List.mem_of_mem_drop h)
      obtain ⟨acts, hacts⟩ := exists_run_undergo
        ⟨d', .sending f left batch, c.received.map Delivery.batch ++ [batch], c.accepted⟩ hm
      have hfirst : (beside d (.waiting f (left + 1)) c).step .attempt =
          ⟨d', .sending f left batch, c.received.map Delivery.batch ++ [batch], c.accepted⟩ := by
        simp only [step, attempt, beside, hb]
      cases hr : c.course.refused with
      | false =>
        refine ⟨.attempt :: acts ++ [.answer true], ?_⟩
        rw [List.cons_append, run_cons, hfirst, run_append, hacts]
        simp [step, answer, beside, Collector.receive, Collector.accepted, hr, Except.isOk,
          Except.toBool]
      | true =>
        obtain ⟨more, hmore⟩ := ih (some (.status 503)) (c.course.meanwhile.foldl Daemon.undergo d')
          hc'
        refine ⟨.attempt :: acts ++ .answer false :: more, ?_⟩
        rw [List.cons_append, run_cons, hfirst, run_append, hacts, run_cons]
        have hsecond : (⟨c.course.meanwhile.foldl Daemon.undergo d', .sending f left batch,
              c.received.map Delivery.batch ++ [batch], c.accepted⟩ : Site).step (.answer false) =
            beside (c.course.meanwhile.foldl Daemon.undergo d') (.waiting f left)
              (c.receive batch) := by
          simp [step, answer, beside, Collector.receive, Collector.accepted, hr]
        rw [hsecond, hmore]
        rfl

/-- An upload that is made in one piece is a history. -/
theorem exists_run_upload (d : Daemon) {c : Collector} (hc : Orderly c) (trigger : Trigger) :
    ∃ acts, (beside d .idle c).run acts =
      beside (d.upload c trigger).2.1 .idle (d.upload c trigger).2.2 := by
  rw [Daemon.upload, Daemon.prepare]
  cases hb : d.beginUpload with
  | mk r d₁ =>
    cases r with
    | error e =>
      refine ⟨[.check trigger], ?_⟩
      simp only [run_cons, run_nil, step, check, beside, hb]
    | ok generation =>
      dsimp only
      have hcheck : (beside d .idle c).step (.check trigger) =
          beside d₁ (.checked generation trigger) c := by
        simp only [step, check, beside, hb]
      cases hg : d₁.gather generation (d₁.uploadLimit trigger) with
      | mk r d₂ =>
        cases r with
        | error e =>
          refine ⟨[.check trigger, .gather], ?_⟩
          rw [run_cons, hcheck]
          simp only [run_cons, run_nil, step, gather, beside, hg]
        | ok f =>
          dsimp only
          have hgather : (beside d₁ (.checked generation trigger) c).step .gather =
              beside d₂ (if f.batch.isEmpty then .idle
                else .waiting f d₂.config.upload.maxAttempts) c := by
            simp only [step, gather, beside, hg]
          rw [Daemon.deliver]
          cases he : f.batch.isEmpty with
          | true =>
            refine ⟨[.check trigger, .gather], ?_⟩
            rw [run_cons, hcheck, run_cons, hgather, he]
            rfl
          | false =>
            obtain ⟨acts, hacts⟩ := exists_run_attempts f d₂.config.upload.maxAttempts
              d₂.config.upload.maxAttempts none d₂ hc
            refine ⟨.check trigger :: .gather :: acts ++ [.complete], ?_⟩
            rw [List.cons_append, List.cons_append, run_cons, hcheck, run_cons, hgather, he,
              if_neg Bool.false_ne_true, if_neg Bool.false_ne_true, run_append, hacts]
            cases Daemon.attempts f d₂.config.upload.maxAttempts d₂.config.upload.maxAttempts none
                d₂ c with
            | mk r p => cases r <;> rfl

end Site

end Telemetry
