import Telemetry.Proofs.Daemon.Lightening
import Telemetry.Proofs.Daemon.Selection

namespace Telemetry

open Consent Daemon Event Protocol Upload

namespace Upload

/-- The batches were made of the records, each of its part of them in order. -/
inductive Batched : List Batch → List Record → Prop
  | nil : Batched [] []
  | cons (machine : Uuid) (part : List Record) (tallies : List Report) (number : UInt64)
      (clock : Clock) {bs : List Batch} {rs : List Record} (h : Batched bs rs) :
    Batched ((Batch.ofRecords machine part tallies).stamp number clock :: bs) (part ++ rs)

variable {bs bs' : List Batch} {rs rs' : List Record}

theorem Batched.append (h : Batched bs rs) (h' : Batched bs' rs') :
    Batched (bs ++ bs') (rs ++ rs') := by
  induction h with
  | nil => exact h'
  | cons machine part tallies number clock h ih =>
    rw [List.cons_append, List.append_assoc]
    exact .cons machine part tallies number clock ih

theorem batched_one (machine : Uuid) (rs : List Record) (tallies : List Report) (number : UInt64)
    (clock : Clock) : Batched [(Batch.ofRecords machine rs tallies).stamp number clock] rs := by
  have h := Batched.cons machine rs tallies number clock .nil
  rw [List.append_nil] at h
  exact h

theorem Batched.flatMap_eq {α : Type} {ofBatch : Batch → List α} {pick : Record → Option α}
    (hpick : ∀ machine part tallies number clock,
      ofBatch ((Batch.ofRecords machine part tallies).stamp number clock) = part.filterMap pick)
    (h : Batched bs rs) : bs.flatMap ofBatch = rs.filterMap pick := by
  induction h with
  | nil => rfl
  | cons machine part tallies number clock h ih =>
    rw [List.flatMap_cons, List.filterMap_append, hpick, ih]

/-- Nothing but time passes on the host while the collector is called. -/
def Collector.Calm (c : Collector) : Prop :=
  ∀ course ∈ c.script, ∀ m ∈ course.meanwhile, ∃ nanoseconds, m = .advance nanoseconds

variable {c : Collector}

theorem Collector.Calm.course (h : c.Calm) :
    ∀ m ∈ c.course.meanwhile, ∃ nanoseconds, m = .advance nanoseconds := by
  rw [Collector.course]
  cases hs : c.script with
  | nil => exact List.forall_mem_nil _
  | cons course rest => exact h course (by simp [hs])

theorem Collector.Calm.receive (h : c.Calm) (b : Batch) : (c.receive b).Calm :=
  fun course hcourse => h course (List.mem_of_mem_drop hcourse)

theorem Collector.Calm.orderly (h : c.Calm) : Site.Orderly c := by
  intro course hcourse i hi
  obtain ⟨_, hm⟩ := h course hcourse _ hi
  cases hm

end Upload

namespace Daemon

variable {d d' : Daemon} {c : Collector} {f : InFlight}

theorem foldl_undergo_of_calm (d : Daemon) {ms : List Meanwhile}
    (h : ∀ m ∈ ms, ∃ nanoseconds, m = .advance nanoseconds) :
    ∃ clock, ms.foldl undergo d = { d with clock := clock } := by
  induction ms generalizing d with
  | nil => exact ⟨d.clock, rfl⟩
  | cons m ms ih =>
    obtain ⟨nanoseconds, rfl⟩ := h m List.mem_cons_self
    obtain ⟨clock, hclock⟩ := ih (d.advance nanoseconds) fun m hm => h m (List.mem_cons_of_mem _ hm)
    exact ⟨clock, hclock⟩

/-- Attempts that nothing disturbs move the clock and the count of requests, and the collector accepts
one of them if there are enough. -/
theorem attempts_of_calm (total left : Nat) (last : Option Http.SendError) (hc : c.Calm)
    (hd : d.gate.generation = f.generation) :
    (∃ clock sendFile, (attempts f total left last d c).2.1 =
        { d with clock := clock, sendFile := sendFile }) ∧
      (attempts f total left last d c).2.2.Calm ∧
      ((attempts f total left last d c).1.isOk = true ↔ c.firstAccepted ≤ left) := by
  induction left generalizing last d c with
  | zero =>
    refine ⟨⟨d.clock, d.sendFile, rfl⟩, hc, iff_of_false Bool.false_ne_true ?_⟩
    exact Nat.not_succ_le_zero _
  | succ left ih =>
    rw [attempts, beginAttempt, if_pos hd]
    dsimp only
    generalize f.batch.stamp _ _ = b
    obtain ⟨clock, hclock⟩ := foldl_undergo_of_calm
      { d with sendFile := (SendCounter.next d.sendFile).2 } hc.course
    rw [hclock]
    cases hr : c.course.refused with
    | true =>
      obtain ⟨⟨clock', sendFile, hrest⟩, hcalm, hok⟩ := ih (some (.status 503)) (hc.receive b)
        (d := { d with sendFile := (SendCounter.next d.sendFile).2, clock := clock }) hd
      have hfirst := Collector.firstAccepted_of_refused hr b
      rw [if_pos rfl]
      refine ⟨⟨clock', sendFile, hrest⟩, hcalm, hok.trans ?_⟩
      rw [hfirst]
      exact Nat.succ_le_succ_iff.symm
    | false =>
      have hfirst := Collector.firstAccepted_of_accepted hr
      rw [if_neg Bool.false_ne_true]
      refine ⟨⟨clock, _, rfl⟩, hc.receive b, iff_of_true rfl ?_⟩
      rw [hfirst]
      exact Nat.succ_le_succ (Nat.zero_le left)

/-- How an upload that nothing disturbs ends once it has gathered. -/
inductive Ends (d : Daemon) (c : Collector) (f : InFlight) :
    Except RecorderError Upload.Stats × Daemon × Collector → Prop
  | nothing (he : f.batch.isEmpty = true) : Ends d c f (.ok .none, d, c)
  | delivered (stats : Upload.Stats) {d' : Daemon} {c' : Collector} (he : Effect d d')
      (hs : Still d d') (hc : c'.Calm) (number : UInt64) (clock : Clock)
      (ha : c'.accepted = c.accepted ++ [f.batch.stamp number clock]) :
    Ends d c f (.ok stats, d'.completeDelivered f, c')
  | failed (e : RecorderError) {d' : Daemon} {c' : Collector} (he : Effect d d')
      (hs : Still d d') (hc : c'.Calm) (hleft : d.config.upload.maxAttempts < c.firstAccepted)
      (ha : c'.accepted = c.accepted) : Ends d c f (.error e, d'.completeFailed f, c')

theorem ends_deliver (hc : c.Calm) (hd : d.gate.generation = f.generation) :
    Ends d c f (d.deliver c f) := by
  rw [deliver]
  split
  · next he => exact .nothing he
  · obtain ⟨⟨clock, sendFile, hd'⟩, hcalm, hok⟩ := attempts_of_calm (f := f)
      d.config.upload.maxAttempts d.config.upload.maxAttempts none hc hd
    obtain ⟨haccepted, hrefused⟩ := accepted_attempts f d.config.upload.maxAttempts
      d.config.upload.maxAttempts none d c
    cases ha : attempts f d.config.upload.maxAttempts d.config.upload.maxAttempts none d c with
    | mk r p =>
      obtain ⟨d', c'⟩ := p
      rw [ha] at hd' hcalm hok haccepted hrefused
      dsimp only at hd' hcalm
      subst hd'
      have he : Effect d { d with clock := clock, sendFile := sendFile } :=
        .quiet clock d.gate.outbox d.consentFile sendFile d.lastDay
      have hs : Still d { d with clock := clock, sendFile := sendFile } := ⟨rfl, rfl, fun _ h => h⟩
      cases r with
      | ok n =>
        obtain ⟨number, clock', hone⟩ := haccepted n rfl
        exact .delivered _ he hs hcalm number clock' hone
      | error e =>
        refine .failed _ he hs hcalm (Nat.lt_of_not_le fun hle => ?_) (hrefused e rfl)
        exact absurd (hok.2 hle) Bool.false_ne_true

theorem ends_upload {d₁ : Daemon} {trigger : Trigger} (hc : c.Calm)
    (hp : d.prepare trigger = (.ok f, d₁)) : Ends d₁ c f (d.upload c trigger) := by
  obtain ⟨-, hgather⟩ := prepare_ok hp
  obtain ⟨_, _, _, hgathered⟩ := gather_ok hgather
  have hnoted : d₁.gate.generation = f.generation := by rw [hgathered.left, hgathered.noted]
  rw [upload, hp]
  exact ends_deliver hc hnoted

theorem Ends.calm {r : Except RecorderError Upload.Stats × Daemon × Collector} (h : Ends d c f r)
    (hc : c.Calm) : r.2.2.Calm := by
  cases h with
  | nothing => exact hc
  | delivered _ _ _ hc' => exact hc'
  | failed _ _ _ hc' => exact hc'

theorem Ends.lighter {r : Except RecorderError Upload.Stats × Daemon × Collector}
    (h : Ends d c f r) : Lighter d r.2.1 := by
  cases h with
  | nothing => exact .of_eq rfl
  | delivered _ _ hs => exact Lighter.trans (.of_eq hs.buffer) (lighter_completeDelivered _ f)
  | failed _ _ hs => exact Lighter.trans (.of_eq hs.buffer) (lighter_completeFailed _ f)

theorem lighter_prepare (d : Daemon) (trigger : Trigger) : Lighter d (d.prepare trigger).2 := by
  have hbegun := lighter_beginUpload d
  rw [prepare]
  split
  · next hb =>
    rw [hb] at hbegun
    exact hbegun
  · next hb =>
    rw [hb] at hbegun
    exact hbegun.trans (lighter_gather _ _ _)

theorem lighter_upload (d : Daemon) (hc : c.Calm) (trigger : Trigger) :
    Lighter d (d.upload c trigger).2.1 := by
  have hprepared := d.lighter_prepare trigger
  cases hp : d.prepare trigger with
  | mk r d₁ =>
    rw [hp] at hprepared
    cases r with
    | error e =>
      rw [upload_of_refused hp]
      exact hprepared
    | ok f => exact hprepared.trans (ends_upload hc hp).lighter

theorem calm_upload (d : Daemon) (hc : c.Calm) (trigger : Trigger) :
    (d.upload c trigger).2.2.Calm := by
  cases hp : d.prepare trigger with
  | mk r d₁ =>
    cases r with
    | error e =>
      rw [upload_of_refused hp]
      exact hc
    | ok f => exact (ends_upload hc hp).calm hc

end Daemon

end Telemetry
