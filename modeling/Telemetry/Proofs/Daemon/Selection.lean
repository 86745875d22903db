import Telemetry.Proofs.Daemon.Faults
import Telemetry.Proofs.Daemon.Retry

namespace Telemetry

open Consent Event Protocol Upload

namespace Event.Cache

variable {c c' : Cache} {n : Nat} {old : List CacheRow}

/-- The cache holds some rows, and behind them none but rows with numbers from `n` on. -/
structure Continues (n : Nat) (old : List CacheRow) (c : Cache) : Prop where
  rows : ∃ new, c.rows = old ++ new ∧ ∀ r ∈ new, n ≤ r.id
  next : ∀ t, c.table = some t → n ≤ t.nextId

theorem continues_rows {t : CacheTable} (h : c.table = some t) : Continues t.nextId t.rows c := by
  refine ⟨⟨[], ?_, List.forall_mem_nil _⟩, fun t' h' => ?_⟩
  · rw [rows_of_table h, List.append_nil]
  · rw [h] at h'
    cases h'
    exact Nat.le_refl _

theorem Continues.store (h : Continues n old c) {rs : List Record} {k : Nat}
    (hs : c.store rs = .ok (k, c')) : Continues n old c' := by
  cases ht : c.table with
  | none =>
    rw [Cache.store, ht] at hs
    split at hs
    · cases hs
      exact h
    · cases hs
  | some t =>
    rw [store_eq ht] at hs
    cases hs
    obtain ⟨new, hrows, hnew⟩ := h.rows
    rw [rows_of_table ht] at hrows
    have hle := h.next t ht
    obtain ⟨more, hmore, hids, hnext⟩ := t.exists_insertAll (fitting (some c.limit) t.size rs)
    refine ⟨⟨new ++ more, ?_, ?_⟩, fun t' h' => ?_⟩
    · change (t.saved c.limit rs).rows = _
      rw [CacheTable.saved, hmore, hrows, List.append_assoc]
    · intro r hr
      rcases List.mem_append.1 hr with hr | hr
      · exact hnew r hr
      · exact Nat.le_trans hle (hids r hr).1
    · cases h'
      exact Nat.le_trans hle hnext

theorem Continues.clear (h : Continues n old c) : Continues n [] (c.clear.toOption.getD c) := by
  rw [Cache.clear]
  cases ht : c.table with
  | none => exact ⟨⟨[], rows_of_lost ht, List.forall_mem_nil _⟩, h.next⟩
  | some t =>
    refine ⟨⟨[], rfl, List.forall_mem_nil _⟩, fun t' h' => ?_⟩
    cases h'
    exact h.next t ht

theorem continues_broken (c : Cache) : Continues n [] c.broken :=
  ⟨⟨[], rfl, List.forall_mem_nil _⟩, fun _ h => nomatch h⟩

theorem filter_front {t : CacheTable} (hs : t.Sound) {front : List CacheRow}
    (hf : front <+: t.rows) :
    t.rows.filter (·.id ∉ front.map CacheRow.id) = t.rows.drop front.length := by
  obtain ⟨rest, hrest⟩ := hf
  rw [(hs.filter_front hrest.symm).2, ← hrest, List.drop_left]

end Event.Cache

namespace Daemon

variable {d d' : Daemon} {t : CacheTable} {f : InFlight}

/-- What a gathering within a limit takes from a cache table and a buffer, and what it leaves. -/
structure Selected (d : Daemon) (t : CacheTable) (limit : Option Nat) (f : InFlight) (d' : Daemon)
    (front : List CacheRow) : Prop where
  cached : Longest CacheRow.size limit t.rows front
  buffered : Longest Record.cost (limit.map (· - sumOf CacheRow.size front)) d.buffer.records
    f.buffered
  batch : f.batch = .ofRecords d.machine (recordsOf front ++ f.buffered) (f.rows.map Report.ofRow)
  size : Within limit (sumOf CacheRow.size front + totalCost f.buffered)
  cost : Encoded t.rows → Within limit (totalCost (recordsOf front ++ f.buffered))
  everything : limit = none → recordsOf front ++ f.buffered = d.pending
  cachedIds : f.cachedIds = front.map CacheRow.id
  rest : f.buffered ++ d'.buffer.records = d.buffer.records
  bytes : d'.buffer.bytes = totalCost d'.buffer.records
  cache : d'.cache = d.cache

theorem exists_selected (ht : d.cache.table = some t) (hr : Readable t.rows)
    (hb : d.buffer.bytes = totalCost d.buffer.records) {generation : Nat}
    (hcur : d.gate.current generation = true) {rows : List Tally.Row}
    (hrows : d.closedRows = .ok rows) (limit : Option Nat) :
    ∃ f d' front, d.gather generation limit = (.ok f, d') ∧ f.generation = generation ∧
      d'.gate = d.gate ∧ d'.config = d.config ∧ Selected d t limit f d' front := by
  obtain ⟨cached, front, hload, hlongest, hids, hrecords, hcost⟩ := Cache.load_of_readable ht hr limit
  obtain ⟨f, d', hgather, hg⟩ := exists_gather hcur hload hrows
  have htaken := d.buffer.longest_take (limit.map (· - sumOf CacheRow.size front))
  have hbuffered := hg.buffered
  rw [hcost] at hbuffered
  rw [← hbuffered] at htaken
  have hsize := hlongest.within.add htaken.within
  have hleft := hg.left
  rw [hcost] at hleft
  refine ⟨f, d', front, hgather, hg.noted, by rw [hleft], by rw [hleft],
    hlongest, htaken, ?_, hsize, fun he => ?_, fun hnone => ?_, ?_, ?_, ?_, ?_⟩
  · rw [hg.batch, hg.reported, hrecords]
  · have heq := (he.sublist hlongest.front.sublist).size_eq
    rw [totalCost, sumOf_append, ← totalCost, ← heq]
    exact hsize
  · subst hnone
    rw [pending, Cache.rows_of_table ht, hlongest.eq_of_none, htaken.eq_of_none]
  · rw [hg.cachedIds, hids]
  · rw [hleft, hbuffered]
    exact d.buffer.take_append _
  · rw [hleft]
    exact Buffer.bytes_take hb _
  · rw [hleft]

theorem continues_flush {n : Nat} {old : List CacheRow} (h : d.cache.Continues n old) :
    d.flush.2.cache.Continues n old := by
  rw [flush]
  split
  · dsimp only
    split
    · next hs => exact h.store hs
    · exact h
  · exact h

theorem rows_completeDelivered (d : Daemon) (f : InFlight) :
    (d.completeDelivered f).cache.rows =
      if d.gate.current f.generation then d.cache.rows.filter (·.id ∉ f.cachedIds)
      else d.cache.rows := by
  rw [completeDelivered]
  split
  · cases ht : d.cache.table with
    | none =>
      have hnone : d.cache.rows.filter (·.id ∉ f.cachedIds) = d.cache.rows := by
        rw [Cache.rows_of_lost ht]
        rfl
      rw [hnone, Cache.remove, ht]
      split
      · rfl
      · next hr =>
        split at hr
        · cases hr
          dsimp only
          split <;> rfl
        · cases hr
    | some t =>
      obtain ⟨c, hremove, htable⟩ := Cache.exists_remove ht f.cachedIds
      have hrows : c.rows = d.cache.rows.filter (·.id ∉ f.cachedIds) := by
        rw [Cache.rows_of_table htable, Cache.rows_of_table ht, CacheTable.delete]
      rw [hremove]
      dsimp only
      split <;> exact hrows
  · rfl

/-- An upload that succeeds has sent what it gathered, once, unless that was nothing, and its counts
are those of what it sent. -/
structure Told (d : Daemon) (c : Collector) (trigger : Trigger) (stats : Upload.Stats)
    (f : InFlight) (d' : Daemon) (accepted : List Batch) : Prop where
  prepared : d.prepare trigger = (.ok f, d')
  answered : (d.upload c trigger).2.2.accepted = c.accepted ++ accepted
  sent : f.batch.isEmpty = true ∧ accepted = [] ∨
    f.batch.isEmpty = false ∧ ∃ number clock, accepted = [f.batch.stamp number clock]
  events : stats.events = sumOf Batch.recordCount accepted
  tallies : stats.tallies = sumOf (fun b => b.tallies.length) accepted

theorem told_of_upload {c : Collector} {trigger : Trigger} {stats : Upload.Stats}
    (h : (d.upload c trigger).1 = .ok stats) :
    ∃ f d' accepted, Told d c trigger stats f d' accepted := by
  cases hp : d.prepare trigger with
  | mk r d' =>
    cases r with
    | error e =>
      rw [upload_of_refused hp] at h
      cases h
    | ok f =>
      cases he : f.batch.isEmpty with
      | true =>
        have hu := upload_of_isEmpty (c := c) hp he
        rw [hu] at h
        cases h
        exact ⟨f, d', [], hp, by rw [hu, List.append_nil], .inl ⟨he, rfl⟩, rfl, rfl⟩
      | false =>
        obtain ⟨hok, -⟩ := accepted_attempts f d'.config.upload.maxAttempts
          d'.config.upload.maxAttempts none d' c
        cases ha : attempts f d'.config.upload.maxAttempts d'.config.upload.maxAttempts none d' c with
        | mk r p =>
          obtain ⟨d₂, c'⟩ := p
          rw [ha] at hok
          cases r with
          | error e =>
            rw [upload_of_failed hp he ha] at h
            cases h
          | ok n =>
            obtain ⟨number, clock, haccepted⟩ := hok n rfl
            have hu := upload_of_accepted hp he ha
            rw [hu] at h
            cases h
            refine ⟨f, d', [f.batch.stamp number clock], hp, by rw [hu]; exact haccepted,
              .inr ⟨he, number, clock, rfl⟩, ?_, ?_⟩
            · rw [sumOf_cons, sumOf_nil, Nat.add_zero]
              rfl
            · rw [sumOf_cons, sumOf_nil, Nat.add_zero]
              rfl

def Stands (t : CacheTable) (f : InFlight) (lost : Prop) (d : Daemon) : Prop :=
  d.gate.current f.generation = true ∧ d.cache.Continues t.nextId t.rows ∨
    (f.generation < d.gate.generation ∨ lost) ∧ d.cache.Continues t.nextId []

variable {lost : Prop}

theorem Stands.saved (h : Stands t f lost d) (hgate : d'.gate = d.gate)
    (hc : ∀ old, d.cache.Continues t.nextId old → d'.cache.Continues t.nextId old) :
    Stands t f lost d' := by
  rw [Stands, hgate]
  exact h.imp (And.imp_right (hc _)) (And.imp_right (hc _))

theorem Stands.effect (h : Stands t f lost d) (hd : d.config.discards = true) (he : Effect d d') :
    Stands t f lost d' := by
  cases he with
  | quiet | timed | permitted => exact h
  | turned enabled he =>
    cases enabled with
    | true =>
      rcases h with ⟨hcur, -⟩ | ⟨hgone, hc⟩
      · exact absurd (enabled_of_current hcur).1 he
      · have hgate : (d.turn true).gate.generation = d.gate.generation := by
          rw [gate_turn]
          rfl
        have hcache : (d.turn true).cache = d.cache := by simp [turn]
        rw [Stands, hgate, hcache]
        exact .inr ⟨hgone, hc⟩
    | false =>
      have hgate : (d.turn false).gate.generation = d.gate.generation + 1 := by
        rw [gate_turn]
        rfl
      have hcache : (d.turn false).cache = d.cache.clear.toOption.getD d.cache := by
        simp [turn, hd, discard, discardStored]
      rw [Stands, hgate, hcache]
      right
      rcases h with ⟨hcur, hc⟩ | ⟨hgone, hc⟩
      · exact ⟨.inl (by rw [(enabled_of_current hcur).2]; exact Nat.lt_succ_self _), hc.clear⟩
      · exact ⟨hgone.imp_left Nat.lt_succ_of_lt, hc.clear⟩

end Daemon

namespace Site

open Daemon

variable {w : Site} {t : CacheTable} {f : InFlight} {lost : Prop}

theorem stands_step (hf : w.stage.flight? = some f) (hd : w.daemon.Discreet)
    (h : Stands t f lost w.daemon) {a : Act} (ha : a.ends = false) (hlost : a = .loseCache → lost) :
    Stands t f lost (w.step a).daemon := by
  have heffect {d : Daemon} (he : Effect w.daemon d) : Stands t f lost d := h.effect hd.discards he
  have hsaved {d : Daemon} (hs : Stands t f lost d) : Stands t f lost d.flush.2 :=
    hs.saved (shifted_flush d).gate fun _ hc => continues_flush hc
  cases a with
  | request s r =>
    rw [step, request]
    split
    · rw [check_of_flight hf]
      exact h
    · next hr =>
      rcases dispatch_cases w.daemon .fresh s hr with ⟨-, e, he⟩ | he
      · dsimp only
        rw [he]
        exact h.saved rfl fun _ hc => hc
      · exact heffect he
  | disconnect client => exact heffect (effect_disconnect _ client)
  | advance nanoseconds => exact heffect (effect_advance _ nanoseconds)
  | setToday date => exact heffect (effect_setToday _ date)
  | rollover => exact heffect (effect_checkRollover _)
  | flush => exact hsaved h
  | shutdown =>
    have hs := hsaved (heffect (effect_commitTimers w.daemon))
    exact hs.effect (hd.effect (effect_commitTimers w.daemon)).flush.discards (effect_closeOutbox _)
  | restart | complete | abandon => cases ha
  | loseTally => exact h.saved rfl fun _ hc => hc
  | loseCache => exact .inr ⟨.inr (hlost rfl), w.daemon.cache.continues_broken⟩
  | check trigger =>
    rw [step, check_of_flight hf]
    exact h
  | gather =>
    rw [step, gather_of_flight hf]
    exact h
  | attempt =>
    rw [step, attempt]
    split
    · exact h
    · split
      · exact h
      · next hb => exact heffect (effect_beginAttempt hb)
    · exact h
  | answer accepted =>
    rw [step, daemon_answer]
    exact h

theorem stands_run (hf : w.stage.flight? = some f) (hd : w.daemon.Discreet)
    (h : Stands t f lost w.daemon) {acts : List Act} (ha : Going acts)
    (hlost : .loseCache ∈ acts → lost) : Stands t f lost (w.run acts).daemon := by
  induction acts generalizing w with
  | nil => exact h
  | cons a acts ih =>
    have he := ha a List.mem_cons_self
    refine ih (flight_step hf he) (discreet_step w a hd) ?_ (fun b hb => ha b ?_) fun hl => hlost ?_
    · exact stands_step hf hd h he fun hl => hlost (hl ▸ List.mem_cons_self)
    · exact List.mem_cons_of_mem a hb
    · exact List.mem_cons_of_mem a hl

/-- A delivery takes the rows at the front that it gathered out of the cache, and leaves the others and
what was saved meanwhile. If the rows have been discarded or lost, it takes nothing. -/
structure Leaves (t : CacheTable) (front : List CacheRow) (f : InFlight) (acts : List Act)
    (d d' : Daemon) (old new : List CacheRow) : Prop where
  before : d.cache.rows = old ++ new
  after : d'.cache.rows = old.drop front.length ++ new
  numbers : ∀ r ∈ new, t.nextId ≤ r.id
  found : old = t.rows ∨ old = [] ∧ (f.generation < d.gate.generation ∨ .loseCache ∈ acts)

theorem exists_leaves (hs : t.Sound) {front : List CacheRow} (hfront : front <+: t.rows)
    (hids : f.cachedIds = front.map CacheRow.id) {acts : List Act} {d : Daemon}
    (h : Stands t f (.loseCache ∈ acts) d) :
    ∃ old new, Leaves t front f acts d (d.completeDelivered f) old new := by
  have hafter := rows_completeDelivered d f
  -- what was saved since has numbers that were not given out at the gathering
  have hlater {new : List CacheRow} (hnew : ∀ r ∈ new, t.nextId ≤ r.id) :
      new.filter (·.id ∉ f.cachedIds) = new := by
    refine List.filter_eq_self.2 fun r hr => ?_
    rw [decide_eq_true_eq, hids]
    intro hmem
    obtain ⟨r', hr', heq⟩ := List.mem_map.1 hmem
    have hlt := hs.fresh r' (hfront.subset hr')
    have hle := hnew r hr
    omega
  rcases h with ⟨hcur, hc⟩ | ⟨hgone, hc⟩
  · obtain ⟨new, hrows, hnew⟩ := hc.rows
    rw [if_pos hcur, hrows, List.filter_append, hlater hnew, hids, Cache.filter_front hs hfront]
      at hafter
    exact ⟨t.rows, new, hrows, hafter, hnew, .inl rfl⟩
  · obtain ⟨new, hrows, hnew⟩ := hc.rows
    rw [List.nil_append] at hrows
    rw [hrows, hlater hnew, ite_self] at hafter
    refine ⟨[], new, hrows, ?_, hnew, .inr ⟨rfl, hgone⟩⟩
    rw [List.drop_nil]
    exact hafter

/-- A gathering takes the longest run that the limit allows from the cache, and the longest that the
rest of it allows from the buffer, where all else stays. However the upload goes on and whatever
happens beside it, once it is delivered the cache has the other rows and what was saved meanwhile. The
counts of an upload are those of the batch that was accepted. -/
theorem selects_longest {d : Daemon} {t : CacheTable} (ht : d.cache.table = some t) (hs : t.Sound)
    (hr : Readable t.rows) (hb : d.buffer.bytes = totalCost d.buffer.records)
    (hd : d.config.discards = true) {generation : Nat} (hcur : d.gate.current generation = true)
    {rows : List Tally.Row} (hrows : d.closedRows = .ok rows) (limit : Option Nat) :
    ∃ f d' front, d.gather generation limit = (.ok f, d') ∧ Selected d t limit f d' front ∧
      (∀ (w : Site) (acts : List Act), w.daemon = d' → w.stage.flight? = some f → Going acts →
        (w.run acts).stage = .ended f true →
          ∃ old new, Leaves t front f acts (w.run acts).daemon
            ((w.run acts).step .complete).daemon old new) ∧
      ∀ (e : Daemon) (c : Collector) (trigger : Trigger) (stats : Upload.Stats),
        (e.upload c trigger).1 = .ok stats →
          ∃ f e' accepted, Told e c trigger stats f e' accepted := by
  obtain ⟨f, d', front, hgather, hnoted, hgate, hconfig, hselected⟩ :=
    exists_selected ht hr hb hcur hrows limit
  refine ⟨f, d', front, hgather, hselected, fun w acts hw hf ha hend => ?_, fun _ _ _ _ hok =>
    told_of_upload hok⟩
  have hcur' : w.daemon.gate.current f.generation = true := by
    rw [hw, hgate, hnoted]
    exact hcur
  have hdiscreet : w.daemon.Discreet := by
    refine ⟨by rw [hw, hconfig]; exact hd, fun hoff => ?_⟩
    rw [(enabled_of_current hcur').1] at hoff
    cases hoff
  have hstands : Stands t f (.loseCache ∈ acts) w.daemon := by
    refine .inl ⟨hcur', ?_⟩
    rw [hw, hselected.cache]
    exact Cache.continues_rows ht
  have hcomplete : ((w.run acts).step .complete).daemon = (w.run acts).daemon.completeDelivered f := by
    rw [step, complete, hend]
  rw [hcomplete]
  exact exists_leaves hs hselected.cached.front hselected.cachedIds
    (stands_run hf hdiscreet hstands ha id)

def stocked : List Act := [event 1, .flush, event 2, event 3]

def deliveredBeside : List Act :=
  [.attempt, .answer false, event 4, .flush, .attempt, .answer true]

theorem selects_longest_stocked :
    ∃ d, assemble sparing continued (.start .epoch) = .ok d ∧
      let e := ((opened d).run stocked).daemon
      ∃ t f e' front old new, e.cache.table = some t ∧ t.Sound ∧ Readable t.rows ∧
        e.buffer.bytes = totalCost e.buffer.records ∧ e.config.discards = true ∧
        e.gate.current 0 = true ∧ e.closedRows = .ok [] ∧
        e.gather 0 (some 100) = (.ok f, e') ∧ Selected e t (some 100) f e' front ∧
        front.length = 1 ∧ f.buffered.length = 1 ∧
        let w : Site := (⟨e', .waiting f 2, [], []⟩ : Site).run deliveredBeside
        Leaves t front f deliveredBeside w.daemon (w.step .complete).daemon old new ∧
        old.length = 1 ∧ new.length = 2 := by
  have ha : assemble sparing continued (.start .epoch) = .ok _ := rfl
  refine ⟨_, ha, ?_⟩
  intro e
  obtain ⟨t, ht⟩ : ∃ t, e.cache.table = some t := ⟨_, rfl⟩
  have hs : t.Sound := sound_cache_run ha (fun _ h => nomatch h) stocked t ht
  have hr : Readable t.rows := by
    have hread : e.cache.rows.all (fun r => r.record?.isSome) = true := by decide +kernel
    rw [Cache.rows_of_table ht, List.all_eq_true] at hread
    exact fun r hmem => Option.isSome_iff_exists.1 (hread r hmem)
  have hb : e.buffer.bytes = totalCost e.buffer.records := by decide +kernel
  have hcur : e.gate.current 0 = true := by decide +kernel
  have hrows : e.closedRows = .ok [] := by decide +kernel
  obtain ⟨f, e', front, hgather, hselected, hleaves, -⟩ :=
    selects_longest ht hs hr hb (by decide +kernel) hcur hrows (some 100)
  have hruns : (e.gather 0 (some 100)).1.toOption.map (fun f =>
      let w := (⟨(e.gather 0 (some 100)).2, .waiting f 2, [], []⟩ : Site).run deliveredBeside
      decide (f.cachedIds.length = 1 ∧ f.buffered.length = 1 ∧ w.stage = .ended f true ∧
        w.daemon.gate.generation = f.generation ∧ w.daemon.cache.rows.length = 3)) = some true := by
    decide +kernel
  rw [hgather] at hruns
  obtain ⟨hfront, hbuffered, hend, hnoted, hcached⟩ := of_decide_eq_true (Option.some.inj hruns)
  have hgoing : Going deliveredBeside := by simp [Going, deliveredBeside, event, Act.ends]
  obtain ⟨old, new, hleft⟩ :=
    hleaves ⟨e', .waiting f 2, [], []⟩ deliveredBeside rfl rfl hgoing hend
  have hold : old.length = 1 := by
    have hone : e.cache.rows.length = 1 := by decide +kernel
    rw [Cache.rows_of_table ht] at hone
    rcases hleft.found with rfl | ⟨-, hlt | hlost⟩
    · exact hone
    · exact absurd hnoted.symm (Nat.ne_of_lt hlt)
    · exact absurd hlost (by decide)
  rw [hselected.cachedIds, List.length_map] at hfront
  rw [hleft.before, List.length_append, hold] at hcached
  exact ⟨t, f, e', front, old, new, ht, hs, hr, hb, by decide +kernel, hcur, hrows, hgather,
    hselected, hfront, hbuffered, hleft, hold, by omega⟩

end Site

end Telemetry
