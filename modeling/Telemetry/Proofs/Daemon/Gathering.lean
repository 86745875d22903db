import Telemetry.Proofs.Daemon.Sending

namespace Telemetry

open Consent Event Upload

theorem Upload.Collector.accepted_receive (c : Collector) (b : Batch) :
    (c.receive b).accepted = c.accepted ++ if c.course.refused then [] else [b] := by
  rw [Collector.accepted, Collector.receive, List.filterMap_append]
  cases c.course.refused <;> rfl

namespace Daemon

variable {d d' : Daemon} {f : InFlight}

/-- What a gathering carries away, and the daemon that it leaves. -/
structure Gathered (d : Daemon) (generation : Nat) (limit : Option Nat) (f : InFlight) (d' : Daemon)
    (cached : List Cached) (cache : Cache) (rows : List Tally.Row) : Prop where
  current : d.gate.current generation = true
  load : d.cache.load limit = .ok (cached, cache)
  closed : d.closedRows = .ok rows
  noted : f.generation = generation
  cachedIds : f.cachedIds = cached.map Cached.id
  buffered : f.buffered = (d.buffer.take (limit.map (· - sumOf Cached.cost cached))).1
  reported : f.rows = rows
  batch : f.batch = .ofRecords d.machine (cached.map Cached.record ++ f.buffered)
    (rows.map Report.ofRow)
  left : d' = { d with
    cache := cache
    buffer := (d.buffer.take (limit.map (· - sumOf Cached.cost cached))).2 }

theorem gather_ok {generation : Nat} {limit : Option Nat}
    (h : d.gather generation limit = (.ok f, d')) :
    ∃ cached cache rows, Gathered d generation limit f d' cached cache rows := by
  rw [gather] at h
  split at h
  · next hcur =>
    split at h
    · cases h
    · next cached cache hl =>
      dsimp only at h
      split at h
      · cases h
      · next rows hr =>
        cases h
        exact ⟨cached, cache, rows, hcur, hl, hr, rfl, rfl, rfl, rfl, rfl, rfl⟩
  · cases h

theorem exists_gather {generation : Nat} {limit : Option Nat} {cached : List Cached} {cache : Cache}
    {rows : List Tally.Row} (hcur : d.gate.current generation = true)
    (hl : d.cache.load limit = .ok (cached, cache)) (hr : d.closedRows = .ok rows) :
    ∃ f d', d.gather generation limit = (.ok f, d') ∧
      Gathered d generation limit f d' cached cache rows := by
  rw [gather, if_pos hcur, hl]
  dsimp only
  rw [closedRows_of_taken, hr]
  exact ⟨_, _, rfl, hcur, hl, hr, rfl, rfl, rfl, rfl, rfl, rfl⟩

theorem prepare_ok {trigger : Trigger} (h : d.prepare trigger = (.ok f, d')) :
    d.gate.uploadAllowed = true ∧
      d.gather d.gate.generation (d.uploadLimit trigger) = (.ok f, d') := by
  rw [prepare] at h
  split at h
  · cases h
  · next hb =>
    obtain ⟨hallowed, rfl⟩ := Site.beginUpload_ok hb
    obtain ⟨_, hsame⟩ | ⟨-, _, hflush⟩ | ⟨_, herror⟩ := d.beginUpload_cases
    · rw [hsame] at hb
      cases hb
      exact ⟨hallowed, h⟩
    · rw [hflush] at hb
      cases hb
    · rw [herror] at hb
      cases hb

variable {c c' : Collector} {trigger : Trigger}

theorem upload_of_refused {e : RecorderError} (h : d.prepare trigger = (.error e, d')) :
    d.upload c trigger = (.error e, d', c) := by
  rw [upload, h]

theorem upload_of_isEmpty (h : d.prepare trigger = (.ok f, d')) (he : f.batch.isEmpty = true) :
    d.upload c trigger = (.ok .none, d', c) := by
  rw [upload, h]
  exact if_pos he

theorem upload_of_accepted {d₁ : Daemon} {n : Nat} (h : d.prepare trigger = (.ok f, d₁))
    (he : f.batch.isEmpty = false) (ha : attempts f d₁.config.upload.maxAttempts
      d₁.config.upload.maxAttempts none d₁ c = (.ok n, d', c')) :
    d.upload c trigger =
      (.ok ⟨f.batch.recordCount, f.batch.tallies.length, n⟩, d'.completeDelivered f, c') := by
  rw [upload, h]
  dsimp only
  rw [deliver, he, ha]
  rfl

theorem upload_of_failed {d₁ : Daemon} {e : SendFailure} (h : d.prepare trigger = (.ok f, d₁))
    (he : f.batch.isEmpty = false) (ha : attempts f d₁.config.upload.maxAttempts
      d₁.config.upload.maxAttempts none d₁ c = (.error e, d', c')) :
    d.upload c trigger = (.error (.upload e.message), d'.completeFailed f, c') := by
  rw [upload, h]
  dsimp only
  rw [deliver, he, ha]
  rfl

theorem stamp_of_beginAttempt {b : Batch} (h : d.beginAttempt f = some (b, d')) :
    ∃ number clock, b = f.batch.stamp number clock := by
  rw [beginAttempt] at h
  split at h
  · cases h
    exact ⟨_, _, rfl⟩
  · cases h

theorem received_attempts (f : InFlight) (total left : Nat) (last : Option Http.SendError)
    (d : Daemon) (c : Collector) :
    ∃ calls, (attempts f total left last d c).2.2.received = c.received ++ calls ∧
      (∀ call ∈ calls, ∃ number clock, call.batch = f.batch.stamp number clock) ∧
      (d.gate.generation = f.generation → 0 < left → calls ≠ []) := by
  induction left generalizing last d c with
  | zero =>
    exact ⟨[], (List.append_nil _).symm, List.forall_mem_nil _, fun _ h => absurd h (by decide)⟩
  | succ left ih =>
    rw [attempts]
    cases hb : d.beginAttempt f with
    | none =>
      refine ⟨[], (List.append_nil _).symm, List.forall_mem_nil _, fun hg => ?_⟩
      simp [beginAttempt, hg] at hb
    | some p =>
      obtain ⟨b, d₁⟩ := p
      have hcarried := stamp_of_beginAttempt hb
      dsimp only
      split
      -- a refused attempt is the first call, before those that follow
      · obtain ⟨calls, hreceived, hcalls, -⟩ :=
          ih (some (.status 503)) (c.course.meanwhile.foldl undergo d₁) (c.receive b)
        refine ⟨⟨b, !c.course.refused⟩ :: calls, ?_, ?_, fun _ _ => List.cons_ne_nil _ _⟩
        · rw [hreceived, Collector.receive, List.append_assoc]
          rfl
        · exact List.forall_mem_cons.2 ⟨hcarried, hcalls⟩
      · exact ⟨[⟨b, !c.course.refused⟩], rfl, by simpa using hcarried,
          fun _ _ => List.cons_ne_nil _ _⟩

/-- Where the attempts come to an end with success, the collector has accepted the batch once, and
else it has accepted nothing. -/
theorem accepted_attempts (f : InFlight) (total left : Nat) (last : Option Http.SendError)
    (d : Daemon) (c : Collector) :
    (∀ n, (attempts f total left last d c).1 = .ok n → ∃ number clock,
        (attempts f total left last d c).2.2.accepted = c.accepted ++ [f.batch.stamp number clock]) ∧
      ∀ e, (attempts f total left last d c).1 = .error e →
        (attempts f total left last d c).2.2.accepted = c.accepted := by
  induction left generalizing last d c with
  | zero => exact ⟨fun _ h => (by cases h), fun _ _ => rfl⟩
  | succ left ih =>
    rw [attempts]
    cases hb : d.beginAttempt f with
    | none => exact ⟨fun _ h => (by cases h), fun _ _ => rfl⟩
    | some p =>
      obtain ⟨b, d₁⟩ := p
      have hreceived := c.accepted_receive b
      dsimp only
      cases hr : c.course.refused with
      | true =>
        rw [hr, if_pos rfl, List.append_nil] at hreceived
        have hrest := ih (some (.status 503)) (c.course.meanwhile.foldl undergo d₁) (c.receive b)
        rw [hreceived] at hrest
        exact hrest
      | false =>
        rw [hr] at hreceived
        refine ⟨fun _ _ => ?_, fun _ h => by cases h⟩
        obtain ⟨number, clock, rfl⟩ := stamp_of_beginAttempt hb
        exact ⟨number, clock, hreceived⟩

end Daemon

end Telemetry
