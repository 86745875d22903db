import Telemetry.Proofs.Daemon.Calm
import Telemetry.Proofs.Tally.Closing

namespace Telemetry

open Calendar Consent Event Tally Upload

namespace Daemon

variable {e : Daemon} {t : Table} {is : List Increment} {d : Date}

theorem reads_closedRows (h : t.Filled is) (hdates : ∀ i ∈ is, i.date.FourDigits)
    (hd : d.FourDigits) (ht : e.tally.table = some t) (htoday : e.clock.today = d)
    (hsum : ∀ k, Due d k.bucket → Table.counted is k < 2 ^ 63) :
    ∃ rows, e.closedRows = .ok rows ∧ t.Lists (Due d) rows := by
  have hstore : e.tally = ⟨some t, e.tally.prepared⟩ := by rw [← ht]
  obtain ⟨days, hdays, hlists⟩ :=
    h.reads_rowsBefore hdates hd e.tally.prepared fun k hk => hsum k (.inl hk)
  obtain ⟨months, hmonths, hlists'⟩ :=
    h.reads_rowsBefore hdates hd e.tally.prepared fun k hk => hsum k (.inr hk)
  rw [← hstore] at hdays hmonths
  refine ⟨days ++ months, ?_, hlists.append hlists' h.ids (not_closed_both d)⟩
  rw [closedRows, htoday, hdays, hmonths]
  rfl

/-- What an upload of the daemon makes of the closed counters: it reports the rows of the due buckets,
and none of a bucket of the date, in each of its calls. -/
structure Reported (t : Table) (d : Date) (e : Daemon) (c c' : Collector) (rows : List Row)
    (calls : List Delivery) : Prop where
  lists : t.Lists (Due d) rows
  current : ∀ row ∈ rows, ∀ p : Period, row.bucket ≠ p.key d
  made : c'.received = c.received ++ calls
  carried : ∀ call ∈ calls, call.batch.tallies = rows.map Report.ofRow
  sent : rows ≠ [] → 0 < e.config.upload.maxAttempts → calls ≠ []

theorem reported_of_gathered {trigger : Trigger} {f : InFlight} {e' : Daemon} {generation : Nat}
    {limit : Option Nat} {cached : List Cached} {cache : Cache} {rows : List Row} (c : Collector)
    (hg : Gathered e generation limit f e' cached cache rows)
    (hnoted : generation = e.gate.generation) (hprepare : e.prepare trigger = (.ok f, e'))
    (hlists : t.Lists (Due d) rows) :
    ∃ calls, Reported t d e c (e.upload c trigger).2.2 rows calls := by
  have htallies : f.batch.tallies = rows.map Report.ofRow := by
    rw [hg.batch]
    rfl
  have hnever : ∀ row ∈ rows, ∀ p : Period, row.bucket ≠ p.key d :=
    fun row hrow => (hlists.chosen_bucket hrow).ne_key
  cases hempty : f.batch.isEmpty with
  | true =>
    have hnone : rows = [] := by
      simp only [Batch.isEmpty, Bool.and_eq_true, List.isEmpty_iff, htallies,
        List.map_eq_nil_iff] at hempty
      exact hempty.2
    rw [upload_of_isEmpty hprepare hempty]
    exact ⟨[], hlists, hnever, (List.append_nil _).symm, List.forall_mem_nil _,
      fun hsome => absurd hnone hsome⟩
  | false =>
    have hgate : e'.gate.generation = f.generation := by rw [hg.left, hg.noted, hnoted]
    have hconfig : e'.config = e.config := by rw [hg.left]
    obtain ⟨-, -, -, hc⟩ := upload_attempts (c := c) hprepare hempty
    obtain ⟨calls, hreceived, hcalls, hfirst⟩ := received_attempts f e'.config.upload.maxAttempts
      e'.config.upload.maxAttempts none e' c
    rw [← hc] at hreceived
    rw [hconfig] at hfirst
    have hcarried : ∀ call ∈ calls, call.batch.tallies = rows.map Report.ofRow := by
      intro call hcall
      obtain ⟨number, clock, hstamp⟩ := hcalls call hcall
      rw [hstamp]
      exact htallies
    exact ⟨calls, hlists, hnever, hreceived, hcarried, fun _ => hfirst hgate⟩

theorem reported_upload (c : Collector) (trigger : Trigger) {rows : List Row}
    (hrows : e.closedRows = .ok rows) (hlists : t.Lists (Due d) rows)
    (hallowed : e.gate.uploadAllowed = true) (hcache : e.cache.table.isSome = true) :
    ∃ calls, Reported t d e c (e.upload c trigger).2.2 rows calls := by
  obtain ⟨hcheck, hcurrent⟩ := Site.checkUpload_of_allowed hallowed
  obtain ⟨ct, hct⟩ := Option.isSome_iff_exists.1 hcache
  obtain ⟨⟨cached, cache⟩, hload⟩ : ∃ loaded, e.cache.load (e.uploadLimit trigger) = .ok loaded := by
    rw [Cache.load, hct]
    exact ⟨_, rfl⟩
  have hprepare : e.prepare trigger = e.gather e.gate.generation (e.uploadLimit trigger) := by
    rw [prepare, beginUpload, hcheck]
  obtain ⟨f, e', hgather, hg⟩ := exists_gather hcurrent hload hrows
  exact reported_of_gathered c hg rfl (hprepare.trans hgather) hlists

/-- In a store that increments of the years of four digits made, the rows before a date of these years
are those of the days, and of the months, that lie before it, each once, as long as what was counted
under each of their keys is below 2^63. An upload on that date then reports all of them, and no row of
its day or month. -/
theorem closed_buckets_reported (prepared : Bool) (commits : List (List Increment)) (d : Date)
    (hdates : ∀ i ∈ commits.flatten, i.date.FourDigits) (hd : d.FourDigits)
    (hpayload : ∀ i ∈ commits.flatten, i.payload.store.length < Codec.capacity 8) :
    ∃ t, Store.commitAll ⟨some [], prepared⟩ commits = .ok ⟨some t, prepared⟩ ∧
      (∀ p, (∀ k, Closed p d k.bucket → Table.counted commits.flatten k < 2 ^ 63) →
        ∃ rows, Store.rowsBefore ⟨some t, prepared⟩ p d = .ok rows ∧ t.Lists (Closed p d) rows) ∧
      ((∀ k, Due d k.bucket → Table.counted commits.flatten k < 2 ^ 63) →
        ∀ (e : Daemon) (c : Collector) (trigger : Trigger), e.tally.table = some t →
          e.clock.today = d → e.gate.uploadAllowed = true → e.cache.table.isSome = true →
            ∃ rows calls, Reported t d e c (e.upload c trigger).2.2 rows calls) := by
  have hfilled := Table.filled_commit hpayload
  refine ⟨_, Store.commitAll_eq prepared [] commits,
    fun p hsum => hfilled.reads_rowsBefore hdates hd prepared hsum, ?_⟩
  intro hsum e c trigger ht htoday hallowed hcache
  obtain ⟨rows, hrows, hlists⟩ := reads_closedRows hfilled hdates hd ht htoday hsum
  exact ⟨rows, reported_upload c trigger hrows hlists hallowed hcache⟩

def aroundNewYear : List (List Increment) :=
  [[⟨.nil, ⟨2023, 12, 30, by decide⟩, 1000, none, 7⟩, ⟨.nil, ⟨2023, 12, 31, by decide⟩, 1000, none, 5⟩],
    [⟨.nil, ⟨2024, 1, 1, by decide⟩, 1000, none, 3⟩]]

theorem closed_buckets_reported_newYear :
    let newYear : Date := ⟨2024, 1, 1, by decide⟩
    newYear.FourDigits ∧ (∀ i ∈ aroundNewYear.flatten, i.date.FourDigits) ∧
      (∀ k, Table.counted aroundNewYear.flatten k < 2 ^ 63) ∧
      ∃ t d, Store.commitAll ⟨some [], false⟩ aroundNewYear = .ok ⟨some t, false⟩ ∧
        (∃ rows, Store.rowsBefore ⟨some t, false⟩ .month newYear = .ok rows ∧
          t.Lists (Closed .month newYear) rows) ∧
        assemble .standard { Site.continued with tally := some t } (.start newYear) = .ok d ∧
        ∃ rows calls, t.Lists (Due newYear) rows ∧ rows ≠ [] ∧ calls ≠ [] ∧
          (d.upload .fresh .requested).2.2.received = calls ∧
          ∀ call ∈ calls, call.batch.tallies = rows.map Report.ofRow := by
  intro newYear
  have hnewYear : newYear.FourDigits := by decide
  have hdates : ∀ i ∈ aroundNewYear.flatten, i.date.FourDigits := by decide
  obtain ⟨t, ht, hreads, hupload⟩ :=
    closed_buckets_reported false aroundNewYear newYear hdates hnewYear (by decide)
  have hroom (k : Key) : Table.counted aroundNewYear.flatten k < 2 ^ 63 :=
    Nat.lt_of_le_of_lt (Table.counted_le _ k) (by decide)
  have hstored : ∃ s ∈ t, Due newYear s.key.bucket := by
    rw [Store.commitAll_eq] at ht
    have htable : Table.commit [] aroundNewYear.flatten = t :=
      Option.some.inj (congrArg Store.table (Except.ok.inj ht))
    have hkey := (Table.mem_keys_commit [] aroundNewYear.flatten _).2
      (.inr ⟨_, List.mem_cons_self, .inl rfl⟩)
    obtain ⟨s, hs, hk⟩ := List.mem_map.1 hkey
    rw [htable] at hs
    refine ⟨s, hs, ?_⟩
    rw [hk]
    exact .inl ⟨⟨2023, 12, 30, by decide⟩, rfl, .inl (.inl (by decide))⟩
  obtain ⟨d, ha, htally, htoday, hallowed, hcache, hconfig⟩ : ∃ d : Daemon,
      assemble .standard { Site.continued with tally := some t } (.start newYear) = .ok d ∧
        d.tally.table = some t ∧ d.clock.today = newYear ∧ d.gate.uploadAllowed = true ∧
        d.cache.table.isSome = true ∧ d.config = .standard :=
    ⟨_, rfl, rfl, rfl, rfl, rfl, rfl⟩
  have hattempts : 0 < d.config.upload.maxAttempts := by
    rw [hconfig]
    decide
  obtain ⟨rows, calls, hreported⟩ := hupload (fun k _ => hroom k) d .fresh .requested htally htoday
    hallowed hcache
  have hrows : rows ≠ [] := by
    rintro rfl
    obtain ⟨s, hs, hdue⟩ := hstored
    cases (hreported.lists.exact _).2 ⟨s, hs, hdue, rfl⟩
  exact ⟨hnewYear, hdates, fun k => hroom k, t, d, ht, hreads .month fun k _ => hroom k, ha, rows,
    calls, hreported.lists, hrows, hreported.sent hrows hattempts, hreported.made, hreported.carried⟩

def most : Increment := ⟨.nil, ⟨2023, 12, 31, by decide⟩, 1000, none, 4294967295⟩

def pastRange : List (List Increment) := List.replicate 2147483649 [most]

theorem counter_pastRange :
    ¬fits ((Table.commit [] pastRange.flatten).counter most.dayKeyOf) := by
  have hlast : pastRange.flatten = List.replicate 2147483648 most ++ [most] := by
    rw [pastRange, List.flatten_replicate_singleton, ← List.replicate_succ']
  have hfull := Table.counter_commit_replicate most 2147483648 (by decide)
  have hne : most.monthKeyOf ≠ most.dayKeyOf := (Increment.dayKeyOf_ne_monthKeyOf most most).symm
  rw [hlast, Table.commit_append, Table.commit, List.foldl_cons, List.foldl_nil, Table.count,
    Table.counter_add_of_ne _ hne, Table.counter_add_self, hfull]
  decide +kernel

/-- Where a counter has gone past 64 bits, the day that closed with it is not read. -/
theorem closed_day_not_read :
    let newYear : Date := ⟨2024, 1, 1, by decide⟩
    newYear.FourDigits ∧ (∀ i ∈ pastRange.flatten, i.date.FourDigits) ∧
      ∃ t, Store.commitAll ⟨some [], false⟩ pastRange = .ok ⟨some t, false⟩ ∧
        (∃ s ∈ t, Closed .day newYear s.key.bucket) ∧
        Store.rowsBefore ⟨some t, false⟩ .day newYear = .error .readTallyRow := by
  intro newYear
  have hall : ∀ i ∈ pastRange.flatten, i = most := by
    rw [pastRange, List.flatten_replicate_singleton]
    exact fun i hi => (List.mem_replicate.1 hi).2
  have hmost : most ∈ pastRange.flatten := by
    rw [pastRange, List.flatten_replicate_singleton]
    exact List.mem_replicate.2 ⟨by decide, rfl⟩
  have hkey := (Table.mem_keys_commit [] pastRange.flatten most.dayKeyOf).2
    (.inr ⟨most, hmost, .inl rfl⟩)
  obtain ⟨s, hs, hk⟩ := List.mem_map.1 hkey
  have hkeys : ((Table.commit [] pastRange.flatten).map Stored.key).Nodup :=
    Table.nodup_keys_commit pastRange.flatten
  have hwide := counter_pastRange
  rw [← hk, Table.counter_of_mem hkeys hs] at hwide
  refine ⟨by decide, fun i hi => ?_, _, Store.commitAll_eq false [] pastRange, ⟨s, hs, ?_⟩, ?_⟩
  · rw [hall i hi]
    decide
  · rw [hk]
    exact ⟨most.date, rfl, .inl (.inl (by decide))⟩
  · refine Table.rowsBefore_of_not_fits false hs ?_ hwide
    rw [hk]
    decide

end Daemon

end Telemetry
