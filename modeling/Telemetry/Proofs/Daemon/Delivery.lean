import Telemetry.Proofs.Daemon.Turns

namespace Telemetry

open Calendar Consent Daemon Event Protocol Upload

namespace Protocol.Host

theorem stored_of_nil {t : CacheTable} (h : t.rows = []) : t.Sound ∧ Encoded t.rows := by
  have hnone {P : CacheRow → Prop} : ∀ r ∈ t.rows, P r := by
    rw [h]
    exact List.forall_mem_nil _
  refine ⟨⟨?_, hnone⟩, hnone⟩
  rw [h]
  exact List.nodup_nil

theorem pending_of_assemble {config : Daemon.Config} {disk : Disk} {clock : Clock} {d : Daemon}
    (ha : assemble config disk clock = .ok d) (hd : config.discards = true)
    (hdisk : ∀ t, disk.cache = some t → t.rows = []) :
    d.cache.table.isSome = true ∧ d.pending = [] := by
  have hrows : (disk.cache.getD .empty).rows = [] := by
    cases ht : disk.cache with
    | none => rfl
    | some t => exact hdisk t ht
  obtain ⟨hbuffer, t, hk, ht⟩ := Kept.of_assemble ha hd (stored_of_nil hrows).1
  have hempty : t.rows = [] := by
    rcases ht with rfl | ⟨-, hempty⟩
    · exact hrows
    · exact hempty
  refine ⟨by rw [hk.table]; rfl, ?_⟩
  rw [pending, hk.rows, hempty, hbuffer]
  rfl

/-- What was accepted of each kind comes first in what was recorded of it: the batches were made of
records that stand, in order, before those that wait. -/
theorem delivered_in_order {config : Daemon.Config} {disk : Disk} {clock : Clock} {d : Daemon}
    {c : Collector} (ha : assemble config disk clock = .ok d) (hd : config.discards = true)
    (hdisk : ∀ t, disk.cache = some t → t.rows = []) (hc : c.Calm) (hfresh : c.received = [])
    {es : List Turn} (hes : AllPeaceful ⟨d, c⟩ es) (hrequested : .scheduled ∉ es) :
    let h := (⟨d, c⟩ : Host).turns es
    let events := accepts ⟨d, c⟩ es
    h.collector.accepted.flatMap Batch.singulars <+: events.filterMap singularOf? ∧
      h.collector.accepted.flatMap Batch.aggregates <+: events.filterMap aggregateOf? ∧
      h.collector.accepted.flatMap Batch.sequences <+: events.filterMap sequenceOf? ∧
      ∃ sent, Batched h.collector.accepted sent ∧ sent ++ h.daemon.pending = events := by
  intro h events
  obtain ⟨htable, hnothing⟩ := pending_of_assemble ha hd hdisk
  have hw : Whole ⟨d, c⟩ := whole_run ha hd (fun t ht => stored_of_nil (hdisk t ht)) hc []
  obtain ⟨-, sent, hdelivers, horder⟩ := delivers_turns hw htable hes
  obtain ⟨bs, hbs, hbatched⟩ := hdelivers.batched
  have hnone : c.accepted = [] := by
    rw [Collector.accepted, hfresh]
    rfl
  rw [hnone, List.nil_append] at hbs
  rw [← hbs] at hbatched
  have hevents : sent ++ h.daemon.pending = events := by
    have heq : sent ++ h.daemon.pending = d.pending ++ events := horder hrequested
    rw [heq, hnothing, List.nil_append]
  have hpart {α : Type} {ofBatch : Batch → List α} {pick : Record → Option α}
      (hpick : ∀ machine part tallies number clock,
        ofBatch ((Batch.ofRecords machine part tallies).stamp number clock) = part.filterMap pick) :
      h.collector.accepted.flatMap ofBatch <+: events.filterMap pick := by
    rw [hbatched.flatMap_eq hpick, ← hevents, List.filterMap_append]
    exact List.prefix_append _ _
  exact ⟨hpart fun _ _ _ _ _ => rfl, hpart fun _ _ _ _ _ => rfl, hpart fun _ _ _ _ _ => rfl, sent,
    hbatched, hevents⟩

def hasty : Daemon.Config :=
  { Daemon.Config.standard with upload := { Upload.Config.standard with maxAttempts := 2 } }

def reluctant : Collector := .plan .fresh [⟨[.advance 5], true⟩, ⟨[], true⟩]

theorem calm_reluctant : reluctant.Calm := by
  intro course hcourse m hm
  have hcourses : course = ⟨[.advance 5], true⟩ ∨ course = ⟨[], true⟩ := by
    simpa [reluctant, Collector.plan, Collector.fresh] using hcourse
  rcases hcourses with rfl | rfl
  · exact ⟨5, List.mem_singleton.1 hm⟩
  · exact nomatch hm

def administrator : Session := .fresh ⟨0⟩ 0

def single (n : UInt8) : Turn :=
  .request Site.client (.recordSingular 1000 (List.replicate 16 n) 5 ⟨false, .bool false⟩)

def counted (n : UInt8) : Turn :=
  .request Site.client (.recordAggregate 1000 (List.replicate 16 n) 3 5 ⟨false, .bool false⟩)

def resumed : List Turn :=
  [.request administrator (.setEnabled true), .request administrator (.setUploading true), single 1,
   counted 2, .request Site.client .uploadEvents, single 3,
   .request administrator (.setUploading false), .request Site.client .uploadEvents, counted 4,
   .reboot, single 5, .request administrator (.setUploading true),
   .request Site.client .uploadEvents, single 6]

theorem delivered_in_order_resumed :
    ∃ d, assemble hasty .empty (.start .epoch) = .ok d ∧ hasty.discards = true ∧
      (∀ t, Disk.empty.cache = some t → t.rows = []) ∧ reluctant.Calm ∧ reluctant.received = [] ∧
      AllPeaceful ⟨d, reluctant⟩ resumed ∧ .scheduled ∉ resumed ∧
      let h := (⟨d, reluctant⟩ : Host).turns resumed
      let events := accepts ⟨d, reluctant⟩ resumed
      h.collector.accepted.flatMap Batch.singulars <+: events.filterMap singularOf? ∧
        (h.collector.accepted.flatMap Batch.singulars).length = 3 ∧
        (events.filterMap singularOf?).length = 4 ∧
        h.collector.accepted.flatMap Batch.aggregates <+: events.filterMap aggregateOf? ∧
        (h.collector.accepted.flatMap Batch.aggregates).length = 2 := by
  have ha : assemble hasty .empty (.start .epoch) = .ok _ := rfl
  have hdisk : ∀ t, Disk.empty.cache = some t → t.rows = [] := fun _ h => nomatch h
  have hes {d : Daemon} (h : assemble hasty .empty (.start .epoch) = .ok d) :
      AllPeaceful ⟨d, reluctant⟩ resumed := by
    cases h
    decide +kernel
  obtain ⟨hsingulars, haggregates, -, -⟩ :=
    delivered_in_order ha rfl hdisk calm_reluctant rfl (hes ha) (by decide)
  exact ⟨_, ha, rfl, hdisk, calm_reluctant, rfl, hes ha, by decide, hsingulars, by decide +kernel,
    by decide +kernel, haggregates, by decide +kernel⟩

end Protocol.Host

end Telemetry
