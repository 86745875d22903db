import Telemetry.Proofs.Daemon.Faults

namespace Telemetry

open Consent Event Protocol Upload

namespace Event.Cache

variable {c c' : Cache}

theorem encoded_store (h : Encoded c.rows) {rs : List Record}
    (hrs : ∀ r ∈ rs, r.cost ≤ maxRecordCost) {n : Nat} (hs : c.store rs = .ok (n, c')) :
    Encoded c'.rows := by
  cases ht : c.table with
  | none =>
    rw [store, ht] at hs
    split at hs
    · cases hs
      exact h
    · cases hs
  | some t =>
    rw [store_eq ht] at hs
    cases hs
    obtain ⟨new, hrows, hnew, -⟩ := t.exists_insertAll (fitting (some c.limit) t.size rs)
    rw [rows_of_table ht] at h
    change Encoded (t.saved c.limit rs).rows
    rw [CacheTable.saved, hrows]
    refine h.append fun r hr => ?_
    obtain ⟨-, e, he, hb⟩ := hnew r hr
    have hkept : e ∈ rs := by
      rw [← fitting_prefix (some c.limit) t.size rs]
      exact List.mem_append_left _ he
    exact ⟨e, hb, hrs e hkept⟩

theorem encoded_load (h : Encoded c.rows) {limit : Option Nat} {cached : List Cached}
    (hl : c.load limit = .ok (cached, c')) : Encoded c'.rows := by
  cases ht : c.table with
  | none =>
    rw [load, ht] at hl
    cases hl
  | some t =>
    rw [load, ht] at hl
    cases hl
    rw [rows_of_table ht] at h
    exact h.sublist List.filter_sublist

theorem encoded_remove (h : Encoded c.rows) {ids : List Nat} (hr : c.remove ids = .ok c') :
    Encoded c'.rows := by
  rw [remove] at hr
  split at hr
  · cases hr
    exact h
  · split at hr
    · cases hr
    · next t ht =>
      cases hr
      rw [rows_of_table ht] at h
      exact h.sublist List.filter_sublist

theorem encoded_clear (h : Encoded c.rows) : Encoded (c.clear.toOption.getD c).rows := by
  cases ht : c.table with
  | none =>
    rw [clear, ht]
    exact h
  | some t =>
    rw [clear, ht]
    exact List.forall_mem_nil _

end Event.Cache

namespace Daemon

variable {d d' : Daemon}

structure Modest (d : Daemon) : Prop where
  cached : Encoded d.cache.rows
  buffered : d.buffer.Small

theorem Modest.effect (h : d.Modest) (he : Effect d d') : d'.Modest := by
  rcases stock_of_effect he with ⟨hb, hc⟩ | ⟨hb, hc⟩
  · exact ⟨hc ▸ h.cached, hb ▸ h.buffered⟩
  · exact ⟨hc ▸ Cache.encoded_clear h.cached, hb ▸ (Buffer.sound_clear d.buffer).small⟩

theorem Modest.push (h : d.Modest) (r : Record) : (d.push r).Modest :=
  ⟨h.cached, Buffer.small_push h.buffered r⟩

theorem Modest.flush (h : d.Modest) : d.flush.2.Modest := by
  obtain ⟨htaken, hleft⟩ := Buffer.small_take h.buffered none
  rw [Daemon.flush]
  split
  · dsimp only
    split
    · next hs => exact ⟨Cache.encoded_store h.cached htaken hs, hleft⟩
    · exact ⟨h.cached, hleft⟩
  · exact h

theorem Modest.beginUpload (h : d.Modest) : d.beginUpload.2.Modest := by
  obtain ⟨_, hb⟩ | ⟨-, _, hb⟩ | ⟨_, hb⟩ := d.beginUpload_cases
  · rw [hb]
    exact h
  · rw [hb]
    exact h.flush
  · rw [hb]
    exact h

theorem Modest.shutdown (h : d.Modest) : d.shutdown.Modest :=
  ((h.effect (effect_commitTimers d)).flush).effect (effect_closeOutbox _)

theorem Modest.gather (h : d.Modest) (generation : Nat) (limit : Option Nat) :
    (d.gather generation limit).2.Modest ∧
      ∀ f, (d.gather generation limit).1 = .ok f → ∀ r ∈ f.buffered, r.cost ≤ maxRecordCost := by
  rw [Daemon.gather]
  split
  · split
    · exact ⟨h, fun _ hf => by cases hf⟩
    · next cached cache hl =>
      obtain ⟨htaken, hleft⟩ :=
        Buffer.small_take h.buffered (limit.map (· - sumOf Cached.cost cached))
      have hcached := Cache.encoded_load h.cached hl
      dsimp only
      split
      · exact ⟨⟨hcached, hleft⟩, fun _ hf => by cases hf⟩
      · refine ⟨⟨hcached, hleft⟩, fun f hf => ?_⟩
        cases hf
        exact htaken
  · exact ⟨h, fun _ hf => by cases hf⟩

theorem Modest.completeDelivered (h : d.Modest) (f : InFlight) : (d.completeDelivered f).Modest := by
  rw [Daemon.completeDelivered]
  split
  · split
    · exact h
    · next hr =>
      have hcached := Cache.encoded_remove h.cached hr
      dsimp only
      split <;> exact ⟨hcached, h.buffered⟩
  · exact h

theorem Modest.completeFailed (h : d.Modest) {f : InFlight}
    (hf : ∀ r ∈ f.buffered, r.cost ≤ maxRecordCost) : (d.completeFailed f).Modest := by
  rw [Daemon.completeFailed]
  split
  · split
    · exact h
    · next hs => exact ⟨Cache.encoded_store h.cached hf hs, h.buffered⟩
  · exact h

theorem modest_of_assemble {config : Config} {disk : Disk} {clock : Clock}
    (ha : assemble config disk clock = .ok d)
    (hdisk : ∀ t, disk.cache = some t → Encoded t.rows) : d.Modest := by
  have hopened : Encoded (Cache.opened config.maxCached disk.cache).rows := by
    cases ht : disk.cache with
    | none => exact List.forall_mem_nil _
    | some t => exact hdisk t ht
  obtain ⟨hb, hc⟩ := stock_of_assemble ha
  refine ⟨?_, hb ▸ Buffer.small_empty _⟩
  rcases hc with hc | hc
  · exact hc ▸ hopened
  · exact hc ▸ Cache.encoded_clear hopened

theorem Modest.restart (h : d.Modest) (hr : d.restart = .ok d') : d'.Modest := by
  refine modest_of_assemble hr fun t ht => ?_
  rw [← Cache.rows_of_table (c := d.cache) ht]
  exact h.cached

end Daemon

namespace Site

open Daemon

/-- The daemon's stores and the upload under way hold nothing that is too large. -/
structure Modest (w : Site) : Prop where
  daemon : w.daemon.Modest
  carried : ∀ f, w.stage.flight? = some f → ∀ r ∈ f.buffered, r.cost ≤ maxRecordCost

variable {w : Site} {d : Daemon}

theorem modest_opened (h : d.Modest) : (opened d).Modest := ⟨h, fun _ hf => by cases hf⟩

theorem Modest.beside (h : w.Modest) (hd : d.Modest) : Modest { w with daemon := d } :=
  ⟨hd, h.carried⟩

theorem Modest.landed (hd : d.Modest) {s : Stage} (hs : s.flight? = none) :
    Modest { w with daemon := d, stage := s } := by
  refine ⟨hd, fun f hf => ?_⟩
  rw [hs] at hf
  cases hf

theorem modest_check (h : w.Modest) (trigger : Trigger) : (w.check trigger).Modest := by
  have hb := h.daemon.beginUpload
  rw [check]
  split
  · split
    · next hbu =>
      rw [hbu] at hb
      exact .landed hb rfl
    · next hbu =>
      rw [hbu] at hb
      exact h.beside hb
  · exact h

theorem modest_gather (h : w.Modest) : w.gather.Modest := by
  rw [gather]
  split
  · next generation trigger _ =>
    obtain ⟨hd, hf⟩ := h.daemon.gather generation (w.daemon.uploadLimit trigger)
    split
    · next f d hg =>
      rw [hg] at hd hf
      dsimp only
      split
      · exact .landed hd rfl
      · refine ⟨hd, fun f' hf' => ?_⟩
        cases hf'
        exact hf f rfl
    · next hg =>
      rw [hg] at hd
      exact .landed hd rfl
  · exact h

theorem Modest.further (h : w.Modest) (hd : d.Modest) {f : InFlight}
    (hw : w.stage.flight? = some f) {s : Stage} (hs : s.flight? = some f) (sent accepted : List Batch) :
    Modest ⟨d, s, sent, accepted⟩ := by
  refine ⟨hd, fun f' hf => ?_⟩
  rw [hs] at hf
  cases hf
  exact h.carried f hw

theorem modest_attempt (h : w.Modest) : w.attempt.Modest := by
  rw [attempt]
  split
  · next f hs => exact h.further h.daemon (by rw [hs]; rfl) rfl _ _
  · next f left hs =>
    split
    · exact h.further h.daemon (by rw [hs]; rfl) rfl _ _
    · next hb =>
      exact h.further (h.daemon.effect (effect_beginAttempt hb)) (by rw [hs]; rfl) rfl _ _
  · exact h

theorem modest_answer (h : w.Modest) (accepted : Bool) : (w.answer accepted).Modest := by
  rw [answer]
  split
  · next f left b hs =>
    split
    · exact h.further h.daemon (by rw [hs]; rfl) rfl _ _
    · exact h.further h.daemon (by rw [hs]; rfl) rfl _ _
  · exact h

theorem modest_complete (h : w.Modest) : w.complete.Modest := by
  rw [complete]
  split
  · next f hs => exact .landed (h.daemon.completeDelivered f) rfl
  · next f hs => exact .landed (h.daemon.completeFailed (h.carried f (by rw [hs]; rfl))) rfl
  · exact h

theorem modest_step (w : Site) (a : Act) (h : w.Modest) : (w.step a).Modest := by
  have heffect {d : Daemon} (he : Effect w.daemon d) : Modest { w with daemon := d } :=
    h.beside (h.daemon.effect he)
  cases a with
  | request s r =>
    rw [step, request]
    split
    · exact modest_check h .requested
    · next hr =>
      rcases dispatch_cases w.daemon .fresh s hr with ⟨-, e, he⟩ | he
      · rw [he]
        exact h.beside (h.daemon.push e)
      · exact heffect he
  | disconnect client => exact heffect (effect_disconnect _ client)
  | advance nanoseconds => exact heffect (effect_advance _ nanoseconds)
  | setToday date => exact heffect (effect_setToday _ date)
  | rollover => exact heffect (effect_checkRollover _)
  | flush => exact h.beside h.daemon.flush
  | shutdown => exact h.beside h.daemon.shutdown
  | restart =>
    rw [step, restart]
    split
    · next hr => exact .landed (h.daemon.restart hr) rfl
    · exact h
  | loseTally => exact h.beside ⟨h.daemon.cached, h.daemon.buffered⟩
  | loseCache => exact h.beside ⟨List.forall_mem_nil _, h.daemon.buffered⟩
  | check trigger => exact modest_check h trigger
  | gather => exact modest_gather h
  | attempt => exact modest_attempt h
  | answer accepted => exact modest_answer h accepted
  | complete => exact modest_complete h
  | abandon => exact .landed h.daemon rfl

theorem modest_run (h : w.Modest) (acts : List Act) : (w.run acts).Modest :=
  run_induction (P := Modest) modest_step h acts

end Site

end Telemetry
