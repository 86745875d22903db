import Telemetry.Proofs.Daemon.Retry
import Telemetry.Proofs.Event.Caching
import Telemetry.Proofs.Event.Canonical

namespace Telemetry

open Codec Consent Event Upload

namespace Event

theorem Record.four_lt_cost (r : Record) : 4 < r.cost := by
  cases r with
  | singular e =>
    rw [Record.cost, Singular.size]
    omega
  | aggregate e =>
    rw [Record.cost, Aggregate.size]
    omega
  | sequence e =>
    rw [Record.cost, Sequence.size]
    omega

theorem CacheRow.cost_le_of_cached? {r : CacheRow} {x : Cached} (h : r.cached? = some x) :
    x.record.cost ≤ x.cost := by
  obtain ⟨e, he, rfl⟩ := Option.map_eq_some_iff.1 h
  exact Record.cost_le_of_decode (decode_of_record? he)

theorem Cache.load_within {c c' : Cache} {limit : Option Nat} {cached : List Cached}
    (h : c.load limit = .ok (cached, c')) :
    Within limit (sumOf Cached.cost cached) ∧
      totalCost (cached.map Cached.record) ≤ sumOf Cached.cost cached := by
  rw [load] at h
  split at h
  · cases h
  · next t _ =>
    obtain ⟨front, rest, -, hhalts, hrecords, -⟩ := exists_scan limit 0 t.rows
    cases h
    rw [hrecords]
    constructor
    · rw [sumOf_cost_cached]
      exact hhalts.within
    · rw [totalCost, sumOf_map]
      refine sumOf_mono fun x hx => ?_
      obtain ⟨r, -, hr⟩ := List.mem_filterMap.1 hx
      exact CacheRow.cost_le_of_cached? hr

end Event

namespace Daemon

variable {d d' : Daemon} {f : InFlight}

theorem Gathered.within {generation : Nat} {limit : Option Nat} {cached : List Cached} {cache : Cache}
    {rows : List Tally.Row} (h : Gathered d generation limit f d' cached cache rows) :
    Within limit f.batch.eventPart.length := by
  obtain ⟨hcached, hrecords⟩ := Cache.load_within h.load
  have hbuffered := (d.buffer.longest_take (limit.map (· - sumOf Cached.cost cached))).within
  rw [← h.buffered] at hbuffered
  refine (hcached.add hbuffered).mono ?_
  have hperm := Batch.records_ofRecords d.machine (cached.map Cached.record ++ f.buffered)
    (rows.map Report.ofRow)
  rw [h.batch, Batch.length_eventPart, sumOf_perm _ hperm, sumOf_append]
  refine Nat.add_le_add (Nat.le_trans ?_ hrecords) ?_
  · exact sumOf_mono fun r _ => Nat.sub_le r.cost 4
  · exact sumOf_mono fun r _ => Nat.sub_le r.cost 4

theorem gather_within {generation : Nat} {limit : Option Nat}
    (h : d.gather generation limit = (.ok f, d')) : Within limit f.batch.eventPart.length := by
  obtain ⟨cached, cache, rows, hg⟩ := gather_ok h
  exact hg.within

theorem upload_within (d : Daemon) (c : Collector) (trigger : Trigger) :
    ∃ calls, (d.upload c trigger).2.2.received = c.received ++ calls ∧
      ∀ call ∈ calls, Within (d.uploadLimit trigger) call.batch.eventPart.length := by
  cases hp : d.prepare trigger with
  | mk r d₁ =>
    cases r with
    | error fault =>
      rw [upload_of_refused hp]
      exact ⟨[], (List.append_nil _).symm, List.forall_mem_nil _⟩
    | ok f =>
      have hwithin := gather_within (prepare_ok hp).2
      cases he : f.batch.isEmpty with
      | true =>
        rw [upload_of_isEmpty hp he]
        exact ⟨[], (List.append_nil _).symm, List.forall_mem_nil _⟩
      | false =>
        obtain ⟨-, -, -, hc⟩ := upload_attempts (c := c) hp he
        obtain ⟨calls, hreceived, hcalls, -⟩ := received_attempts f d₁.config.upload.maxAttempts
          d₁.config.upload.maxAttempts none d₁ c
        rw [← hc] at hreceived
        refine ⟨calls, hreceived, fun call hcall => ?_⟩
        obtain ⟨number, clock, hstamp⟩ := hcalls call hcall
        rw [hstamp]
        exact hwithin

end Daemon

namespace Site

open Daemon

variable {w : Site} {f : InFlight}

theorem sent_run_of_flight (hf : w.stage.flight? = some f) {acts : List Act} (ha : Going acts) :
    ∃ calls, (w.run acts).sent = w.sent ++ calls ∧
      ∀ b ∈ calls, ∃ number clock, b = f.batch.stamp number clock := by
  induction acts generalizing w with
  | nil => exact ⟨[], (List.append_nil _).symm, List.forall_mem_nil _⟩
  | cons a acts ih =>
    have hacts : Going acts := fun b hb => ha b (List.mem_cons_of_mem a hb)
    obtain ⟨calls, hsent, hcalls⟩ := ih (flight_step hf (ha a List.mem_cons_self)) hacts
    rw [run_cons, hsent]
    obtain ⟨hsame, -⟩ | ⟨f', b, hf', hb, hnew⟩ := sent_step w a
    · rw [hsame]
      exact ⟨calls, rfl, hcalls⟩
    · obtain rfl : f = f' := Option.some.inj (hf.symm.trans hf')
      rw [hnew, List.append_assoc]
      exact ⟨b :: calls, rfl, List.forall_mem_cons.2 ⟨stamp_of_beginAttempt hb, hcalls⟩⟩

theorem step_gather_within {generation : Nat} {trigger : Trigger}
    (hs : w.stage = .checked generation trigger) (hf : (w.step .gather).stage.flight? = some f) :
    Within (w.daemon.uploadLimit trigger) f.batch.eventPart.length := by
  rw [step, gather, hs] at hf
  dsimp only at hf
  cases hg : w.daemon.gather generation (w.daemon.uploadLimit trigger) with
  | mk r d =>
    rw [hg] at hf
    cases r with
    | error fault => cases hf
    | ok f' =>
      dsimp only at hf
      split at hf
      · cases hf
      · cases hf
        exact gather_within hg

theorem sent_step_gather_within {generation : Nat} {trigger : Trigger}
    (hs : w.stage = .checked generation trigger) (hf : (w.step .gather).stage.flight? = some f)
    {acts : List Act} (ha : Going acts) :
    ∃ calls, ((w.step .gather).run acts).sent = w.sent ++ calls ∧
      ∀ b ∈ calls, Within (w.daemon.uploadLimit trigger) b.eventPart.length := by
  obtain ⟨calls, hsent, hcalls⟩ := sent_run_of_flight hf ha
  refine ⟨calls, hsent.trans (congrArg (· ++ calls) (sent_step_gather w)), fun b hb => ?_⟩
  obtain ⟨number, clock, rfl⟩ := hcalls b hb
  exact step_gather_within hs hf

/-- A record costs what its encoding takes; that is what its row takes in the cache, and what it takes in
a batch but for the tag of its kind. So the events of a scheduled upload take no more than its limit,
whether the upload is made in one piece or other things happen meanwhile, and whatever the stores hold. -/
theorem sizes_agree :
    (∀ r : Record, r.encode.length = r.cost ∧ 4 < r.cost) ∧
      (∀ (c : Cache) (t : CacheTable) (rs : List Record), c.table = some t →
        ∃ n c' new, c.store rs = .ok (n, c') ∧ c'.table = some ⟨t.rows ++ new, t.nextId + n⟩ ∧
          new.map CacheRow.blob = (rs.take n).map Record.encode ∧
          new.map CacheRow.size = (rs.take n).map Record.cost) ∧
      (∀ (machine : Uuid) (records : List Record) (tallies : List Report),
        let b := Batch.ofRecords machine records tallies
        b.eventPart.length = sumOf (fun r => r.cost - 4) records ∧
          b.encode.length = 80 + sumOf (fun r => r.cost - 4) records
            + sumOf (fun t => t.encode.length) tallies ∧
          ∀ number clock, (b.stamp number clock).eventPart = b.eventPart ∧
            (b.stamp number clock).encode.length = b.encode.length) ∧
      (∀ (d : Daemon) (c : Collector), ∃ calls,
        (d.upload c .scheduled).2.2.received = c.received ++ calls ∧
          ∀ call ∈ calls, call.batch.eventPart.length ≤ d.config.upload.scheduledMaxBytes) ∧
      ∀ (w : Site) (generation : Nat) (f : InFlight) (acts : List Act),
        w.stage = .checked generation .scheduled → (w.step .gather).stage.flight? = some f →
          Going acts → ∃ calls, ((w.step .gather).run acts).sent = w.sent ++ calls ∧
            ∀ b ∈ calls, b.eventPart.length ≤ w.daemon.config.upload.scheduledMaxBytes := by
  refine ⟨fun r => ⟨r.length_encode, r.four_lt_cost⟩, fun c t rs hc => ?_, ?_, fun d c => ?_, ?_⟩
  · obtain ⟨n, c', hs⟩ := Cache.exists_stores hc rs
    refine ⟨n, c', CacheTable.numbered t.nextId (rs.take n), hs.result, ?_, ?_, ?_⟩
    · rw [hs.table, CacheTable.extend, hs.count]
    · exact CacheTable.map_blob_numbered t.nextId (rs.take n)
    · exact CacheTable.map_size_numbered t.nextId (rs.take n)
  · intro machine records tallies b
    refine ⟨?_, Batch.length_encode_ofRecords machine records tallies, fun number clock =>
      ⟨rfl, b.length_encode_stamp number clock⟩⟩
    exact b.length_eventPart.trans (sumOf_perm _ (Batch.records_ofRecords machine records tallies))
  · obtain ⟨calls, hreceived, hcalls⟩ := upload_within d c .scheduled
    exact ⟨calls, hreceived, fun call hcall => hcalls call hcall _ rfl⟩
  · intro w generation f acts hs hf ha
    obtain ⟨calls, hsent, hcalls⟩ := sent_step_gather_within hs hf ha
    exact ⟨calls, hsent, fun b hb => hcalls b hb _ rfl⟩

def divided : List Act := [event 1, .flush, event 2, event 3]

theorem sizes_agree_divided :
    ∃ d, assemble sparing continued (.start .epoch) = .ok d ∧
      (∃ n c' new, Cache.store ⟨100, some .empty, false⟩ Batch.mixed = .ok (n, c') ∧
        c'.table = some ⟨new, 1 + n⟩ ∧ new.map CacheRow.size = [41] ∧ n = 1) ∧
      (∃ calls, (((opened d).run divided).daemon.upload .fresh .scheduled).2.2.received = calls ∧
        calls.map (fun call => call.batch.eventPart.length) = [74] ∧
          ∀ call ∈ calls, call.batch.eventPart.length ≤ 100) ∧
      let w := (opened d).run (divided ++ [.check .scheduled])
      ∃ f calls, w.stage = .checked 0 .scheduled ∧ (w.step .gather).stage.flight? = some f ∧
        Going [.attempt, event 4, .answer false, .attempt] ∧
          ((w.step .gather).run [.attempt, event 4, .answer false, .attempt]).sent = calls ∧
          calls.map (fun b => b.eventPart.length) = [74, 74] ∧
            ∀ b ∈ calls, b.eventPart.length ≤ 100 := by
  obtain ⟨-, hstore, -, hupload, hsent⟩ := sizes_agree
  refine ⟨_, rfl, ?_, ?_, ?_⟩
  · obtain ⟨n, c', new, hs, htable, -, hsizes⟩ :=
      hstore ⟨100, some .empty, false⟩ .empty Batch.mixed rfl
    have hn : (Cache.store ⟨100, some .empty, false⟩ Batch.mixed).toOption.map Prod.fst = some 1 := by
      decide +kernel
    rw [hs] at hn
    cases hn
    exact ⟨1, c', new, hs, htable, hsizes, rfl⟩
  · obtain ⟨calls, hreceived, hcalls⟩ := hupload _ .fresh
    refine ⟨calls, hreceived, ?_, hcalls⟩
    have htaken := congrArg (List.map fun call => call.batch.eventPart.length) hreceived
    exact htaken.symm.trans (by decide +kernel)
  · intro w
    have hgoing : Going [.attempt, event 4, .answer false, .attempt] := by
      simp [Going, event, Act.ends]
    obtain ⟨calls, hcalled, hcalls⟩ := hsent w 0 _ [.attempt, event 4, .answer false, .attempt] rfl
      rfl hgoing
    refine ⟨_, calls, rfl, rfl, hgoing, hcalled, ?_, hcalls⟩
    have htaken := congrArg (List.map fun b => b.eventPart.length) hcalled
    exact htaken.symm.trans (by decide +kernel)

end Site

end Telemetry
