import Mathlib.Data.List.Perm.Basic
import Telemetry.Proofs.Tally.Contents

namespace Telemetry.Tally

open Calendar

namespace Stored

def deducted (rows : List Row) (s : Stored) : Stored :=
  match rows.find? (·.id = s.id) with
  | some r => { s with counter := minus s.counter r.counter.toNat }
  | none => s

variable {rows : List Row} {s : Stored}

theorem deducted_eq_self (h : ∀ r ∈ rows, r.id ≠ s.id) : s.deducted rows = s := by
  have hnone : rows.find? (·.id = s.id) = none := by
    rw [List.find?_eq_none]
    intro r hr
    rw [decide_eq_true_eq]
    exact h r hr
  simp only [deducted, hnone]

theorem id_deducted (rows : List Row) (s : Stored) : (s.deducted rows).id = s.id := by
  rw [deducted]
  split <;> rfl

theorem key_deducted (rows : List Row) (s : Stored) : (s.deducted rows).key = s.key := by
  rw [deducted]
  split <;> rfl

theorem deducted_of_mem (hrows : (rows.map Row.id).Nodup) {r : Row} (hr : r ∈ rows)
    (hid : r.id = s.id) :
    s.deducted rows = { s with counter := minus s.counter r.counter.toNat } := by
  obtain ⟨r', hr'⟩ : ∃ r', rows.find? (·.id = s.id) = some r' :=
    Option.isSome_iff_exists.1 (List.find?_isSome.2 ⟨r, hr, decide_eq_true hid⟩)
  have hid' : r'.id = s.id := by simpa using List.find?_some hr'
  have hsame : r' = r :=
    List.inj_on_of_nodup_map hrows (List.mem_of_find?_eq_some hr') hr (hid'.trans hid.symm)
  simp only [deducted, hr', hsame]

end Stored

namespace Table

variable {t : Table} {rows : List Row}

/-- The table of the schema, with counters that are not below zero: the numbers of the rows are
distinct, and so are their keys. -/
structure Proper (t : Table) : Prop where
  ids : (t.map Stored.id).Nodup
  keys : (t.map Stored.key).Nodup
  nonneg : ∀ s ∈ t, 0 ≤ s.counter

theorem Proper.add (ht : t.Proper) (key : Key) (amount : UInt32) :
    (t.add key amount.toNat).Proper where
  ids := ids_add ht.ids key amount.toNat
  keys := nodup_keys_add ht.keys key amount.toNat
  nonneg := by
    intro s hs
    rw [Table.add] at hs
    split at hs
    · obtain ⟨a, ha, rfl⟩ := List.mem_map.1 hs
      split
      · exact le_plus (n := 0) (ht.nonneg a ha) amount
      · exact ht.nonneg a ha
    · rcases List.mem_append.1 hs with hs | hs
      · exact ht.nonneg s hs
      · rw [List.mem_singleton.1 hs]
        exact Int.natCast_nonneg _

theorem Proper.commit (ht : t.Proper) (is : List Increment) : (t.commit is).Proper :=
  commit_induction (P := Proper) (fun _ i _ key _ h => h.add key i.amount) ht

def Covers (t : Table) (rows : List Row) : Prop :=
  ∀ s ∈ t, ∀ r ∈ rows, r.id = s.id → (r.counter.toNat : Int) ≤ s.counter

theorem Proper.covers_commit (ht : t.Proper) {keep : Stored → Bool} {read : List Row}
    (hread : report (t.filter keep) = .ok read) (hsub : rows ⊆ read) (is : List Increment) :
    (t.commit is).Covers rows := by
  intro s hs r hr hid
  obtain ⟨a, ha, -, hreport⟩ := mem_of_report hread r (hsub hr)
  obtain ⟨s', hs', hid', -, hreached⟩ := exists_mem_commit ha is
  have hsame : s' = s := by
    apply eq_of_id (ht.commit is).ids hs' hs
    rw [hid', ← hid, id_of_report? hreport]
  rw [← hsame]
  apply hreached
  have hnonneg := ht.nonneg a ha
  rw [counter_of_report? hreport, toNat_saturate]
  omega

theorem foldl_subtract_eq_map (hrows : (rows.map Row.id).Nodup) (t : Table) :
    rows.foldl subtract t = t.map (Stored.deducted rows) := by
  induction rows generalizing t with
  | nil => exact (List.map_id t).symm
  | cons r rows ih =>
    have hcons := hrows
    rw [List.map_cons, List.nodup_cons] at hcons
    rw [List.foldl_cons, ih hcons.2, subtract, List.map_map]
    apply List.map_congr_left
    intro s _
    rw [Function.comp_apply]
    by_cases hid : s.id = r.id
    · have hrest : ∀ r' ∈ rows, r'.id ≠ s.id := fun r' hr' he =>
        hcons.1 (List.mem_map.2 ⟨r', hr', he.trans hid⟩)
      rw [if_pos hid, Stored.deducted_of_mem hrows List.mem_cons_self hid.symm]
      exact Stored.deducted_eq_self hrest
    · have hfirst : (r :: rows).find? (·.id = s.id) = rows.find? (·.id = s.id) :=
        List.find?_cons_of_neg (by simpa using Ne.symm hid)
      rw [if_neg hid, Stored.deducted, Stored.deducted, hfirst]

theorem settle_eq (hrows : (rows.map Row.id).Nodup) (t : Table) :
    t.settle rows = (t.map (Stored.deducted rows)).filter fun s => 0 < s.counter := by
  rw [settle, foldl_subtract_eq_map hrows]

theorem counter_deducted_nonpos {s : Stored} (hs : s.counter ≤ 0)
    (hcovers : ∀ r ∈ rows, r.id = s.id → (r.counter.toNat : Int) ≤ s.counter) :
    (s.deducted rows).counter ≤ 0 := by
  rw [Stored.deducted]
  split
  · next r hr =>
    have hid : r.id = s.id := by simpa using List.find?_some hr
    have hle := hcovers r (List.mem_of_find?_eq_some hr) hid
    have hcounter : s.counter = 0 := by omega
    have hamount : r.counter.toNat = 0 := by omega
    rw [hcounter, hamount]
    change minus 0 0 ≤ 0
    decide
  · exact hs

theorem settle_filter (hrows : (rows.map Row.id).Nodup) (hcovers : t.Covers rows) :
    Table.settle (t.filter fun s => 0 < s.counter) rows = t.settle rows := by
  rw [settle_eq hrows, settle_eq hrows, List.filter_map, List.filter_map, List.filter_filter]
  congr 1
  apply List.filter_congr
  intro s hs
  by_cases hpos : 0 < s.counter
  · simp [hpos]
  · have hnone := counter_deducted_nonpos (Int.not_lt.1 hpos) (hcovers s hs)
    have hnone' : ¬0 < (s.deducted rows).counter := Int.not_lt.2 hnone
    simp [hpos, hnone']

theorem settle_append {part part' : List Row} (hrows : ((part ++ part').map Row.id).Nodup)
    (hcovers : t.Covers (part ++ part')) :
    (t.settle part).settle part' = t.settle (part ++ part') := by
  have hparts := hrows
  rw [List.map_append, List.nodup_append] at hparts
  obtain ⟨hpart, hpart', hdisjoint⟩ := hparts
  -- no row of the second part has lost anything to the first
  have hrest : Covers (part.foldl subtract t) part' := by
    rw [foldl_subtract_eq_map hpart]
    rintro s hs r hr hid
    obtain ⟨a, ha, rfl⟩ := List.mem_map.1 hs
    rw [Stored.id_deducted] at hid
    rw [Stored.deducted_eq_self]
    · exact hcovers a ha r (List.mem_append_right part hr) hid
    · intro r' hr' hid'
      exact hdisjoint _ (List.mem_map_of_mem hr') _ (List.mem_map_of_mem hr) (hid'.trans hid.symm)
  calc (t.settle part).settle part'
    _ = (part.foldl subtract t).settle part' := settle_filter hpart' hrest
    _ = t.settle (part ++ part') := by rw [settle, settle, List.foldl_append]

theorem settle_perm {rows' : List Row} (hrows : (rows.map Row.id).Nodup) (h : rows'.Perm rows)
    (t : Table) : t.settle rows' = t.settle rows := by
  have hrows' : (rows'.map Row.id).Nodup := (h.map Row.id).nodup_iff.2 hrows
  rw [settle_eq hrows', settle_eq hrows]
  congr 2
  funext s
  by_cases hs : ∃ r ∈ rows, r.id = s.id
  · obtain ⟨r, hr, hid⟩ := hs
    rw [Stored.deducted_of_mem hrows hr hid, Stored.deducted_of_mem hrows' (h.mem_iff.2 hr) hid]
  · have hnone : ∀ r ∈ rows, r.id ≠ s.id := fun r hr hid => hs ⟨r, hr, hid⟩
    have hnone' : ∀ r ∈ rows', r.id ≠ s.id := fun r hr => hnone r (h.mem_iff.1 hr)
    rw [Stored.deducted_eq_self hnone, Stored.deducted_eq_self hnone']

theorem Proper.counter_deducted_nonneg (ht : t.Proper) (hrows : (rows.map Row.id).Nodup)
    (hcovers : t.Covers rows) {s : Stored} (hs : s ∈ t) : 0 ≤ (s.deducted rows).counter := by
  by_cases hlisted : ∃ r ∈ rows, r.id = s.id
  · obtain ⟨r, hr, hid⟩ := hlisted
    rw [Stored.deducted_of_mem hrows hr hid]
    exact minus_nonneg (hcovers s hs r hr hid)
  · rw [Stored.deducted_eq_self fun r hr hid => hlisted ⟨r, hr, hid⟩]
    exact ht.nonneg s hs

theorem Proper.counter_settle (ht : t.Proper) (hrows : (rows.map Row.id).Nodup)
    (hcovers : t.Covers rows) {s : Stored} (hs : s ∈ t) :
    (t.settle rows).counter s.key = (s.deducted rows).counter := by
  have hkeys : ((t.map (Stored.deducted rows)).map Stored.key).Nodup := by
    have hsame : Stored.key ∘ Stored.deducted rows = Stored.key := funext (Stored.key_deducted rows)
    rw [List.map_map, hsame]
    exact ht.keys
  have hleft := counter_of_mem hkeys (List.mem_map_of_mem hs)
  rw [Stored.key_deducted] at hleft
  have hnonneg := ht.counter_deducted_nonneg hrows hcovers hs
  rw [← hleft] at hnonneg
  rw [settle_eq hrows, counter_filter hkeys hnonneg, hleft]

theorem key_not_mem_settle (hrows : (rows.map Row.id).Nodup) {k : Key}
    (hk : k ∉ t.map Stored.key) : k ∉ (t.settle rows).map Stored.key := by
  rw [settle_eq hrows]
  intro hmem
  obtain ⟨s, hs, rfl⟩ := List.mem_map.1 hmem
  obtain ⟨a, ha, rfl⟩ := List.mem_map.1 (List.mem_filter.1 hs).1
  exact hk (List.mem_map.2 ⟨a, ha, (Stored.key_deducted rows a).symm⟩)

/-- What the settlement of rows that were read of the table `t` leaves of the table `now` that it has
become. -/
structure Deducts (t now : Table) (rows : List Row) (next : Table) : Prop where
  lowered : ∀ r ∈ rows, ∃ a ∈ t, a.report? = some r ∧
    (r.counter.toNat : Int) ≤ now.counter a.key ∧ 0 ≤ next.counter a.key ∧
    (fits (now.counter a.key) → next.counter a.key = now.counter a.key - r.counter.toNat)
  kept : ∀ k, (∀ a ∈ t, a.key = k → ∀ r ∈ rows, a.report? ≠ some r) →
    next.counter k = now.counter k
  positive : ∀ a ∈ next, 0 < a.counter

theorem Proper.deducts (ht : t.Proper) {keep : Stored → Bool} {read : List Row}
    (hread : report (t.filter keep) = .ok read) (hsub : rows ⊆ read)
    (hrows : (rows.map Row.id).Nodup) (is : List Increment) :
    t.Deducts (t.commit is) rows ((t.commit is).settle rows) := by
  have hnow := ht.commit is
  have hcovers := ht.covers_commit hread hsub is
  have hlisted : ∀ r ∈ rows, ∃ a ∈ t, a.report? = some r ∧
      ∃ s ∈ t.commit is, r.id = s.id ∧ s.key = a.key := by
    intro r hr
    obtain ⟨a, ha, -, hreport⟩ := mem_of_report hread r (hsub hr)
    obtain ⟨s, hs, hid, hkey, -⟩ := exists_mem_commit ha is
    exact ⟨a, ha, hreport, s, hs, (id_of_report? hreport).trans hid.symm, hkey⟩
  refine ⟨fun r hr => ?_, fun k hk => ?_, fun a ha => ?_⟩
  · obtain ⟨a, ha, hreport, s, hs, hid, hkey⟩ := hlisted r hr
    have hle := hcovers s hs r hr hid
    have hleft := hnow.counter_settle hrows hcovers hs
    rw [Stored.deducted_of_mem hrows hr hid] at hleft
    refine ⟨a, ha, hreport, ?_⟩
    rw [← hkey, counter_of_mem hnow.keys hs, hleft]
    exact ⟨hle, minus_nonneg hle, minus_eq_sub hle⟩
  · by_cases hmem : k ∈ (t.commit is).map Stored.key
    · obtain ⟨s, hs, rfl⟩ := List.mem_map.1 hmem
      -- a number stands for the row that was read under it, commits give no number away
      have hother : ∀ r ∈ rows, r.id ≠ s.id := by
        intro r hr hid
        obtain ⟨a, ha, hreport, s', hs', hid', hkey⟩ := hlisted r hr
        rw [eq_of_id hnow.ids hs' hs (hid'.symm.trans hid)] at hkey
        exact hk a ha hkey.symm r hr hreport
      rw [hnow.counter_settle hrows hcovers hs, Stored.deducted_eq_self hother,
        counter_of_mem hnow.keys hs]
    · rw [counter_of_not_mem hmem, counter_of_not_mem (key_not_mem_settle hrows hmem)]
  · exact of_decide_eq_true (List.mem_filter.1 ha).2

end Table

open Table

theorem Store.settle_of_ne_nil {rows : List Row} (h : rows ≠ []) (t : Table) (prepared : Bool) :
    settle ⟨some t, prepared⟩ rows = .ok ⟨some (t.settle rows), true⟩ := by
  cases rows with
  | nil => exact absurd rfl h
  | cons r rows => rfl

/-- Rows that one query read, of whichever buckets, are settled after any commits. What was read of
a row is taken off its counter, which reaches zero at the lowest; a counter that the commits carried
out of 64 bits loses it in double precision. Under every other key the counter is what it was, and no
row stays that has nothing left. The rows may be settled in two parts, in any order. -/
theorem settlement_framed {t : Table} (ht : t.Proper) (prepared : Bool) {keep : Stored → Bool}
    {read rows : List Row} (hread : Store.query ⟨some t, prepared⟩ keep = .ok read)
    (hsub : rows ⊆ read) (hne : rows ≠ []) (hrows : rows.Nodup) (commits : List (List Increment)) :
    ∃ now next, Store.commitAll ⟨some t, prepared⟩ commits = .ok ⟨some now, prepared⟩ ∧
      Store.settle ⟨some now, prepared⟩ rows = .ok ⟨some next, true⟩ ∧
      t.Deducts now rows next ∧
      ∀ part part', (part ++ part').Perm rows → part ≠ [] → part' ≠ [] →
        ∃ between, Store.settle ⟨some now, prepared⟩ part = .ok ⟨some between, true⟩ ∧
          Store.settle ⟨some between, true⟩ part' = .ok ⟨some next, true⟩ := by
  have hids : (rows.map Row.id).Nodup := by
    have hread' := nodup_ids_report ht.ids hread
    exact hrows.map_on fun a ha b hb hid =>
      List.inj_on_of_nodup_map hread' (hsub ha) (hsub hb) hid
  refine ⟨_, _, Store.commitAll_eq prepared t commits, Store.settle_of_ne_nil hne _ prepared,
    ht.deducts hread hsub hids commits.flatten, fun part part' hperm hpart hpart' => ?_⟩
  refine ⟨_, Store.settle_of_ne_nil hpart _ prepared, ?_⟩
  have hcovers := ht.covers_commit hread hsub commits.flatten
  have hcovers' : (t.commit commits.flatten).Covers (part ++ part') := fun s hs r hr =>
    hcovers s hs r (hperm.mem_iff.1 hr)
  have hids' : ((part ++ part').map Row.id).Nodup := (hperm.map Row.id).nodup_iff.2 hids
  rw [Store.settle_of_ne_nil hpart', settle_append hids' hcovers', settle_perm hids hperm]

theorem settlement_framed_in_parts :
    let key (user : Int) : Key := ⟨dayKey .epoch, .nil, user, []⟩
    let t : Table := [⟨1, key 1000, 5000000000⟩, ⟨2, key 1001, 0⟩]
    let wide : Row := ⟨1, .nil, dayKey .epoch, 1000, none, 4294967295⟩
    let spent : Row := ⟨2, .nil, dayKey .epoch, 1001, none, 0⟩
    let seven : Increment := ⟨.nil, .epoch, 1000, none, 7⟩
    ∃ now between next, Store.commitAll ⟨some t, false⟩ [[seven], [], [seven]] =
        .ok ⟨some now, false⟩ ∧
      Store.settle ⟨some now, false⟩ [wide, spent] = .ok ⟨some next, true⟩ ∧
      Store.settle ⟨some now, false⟩ [spent] = .ok ⟨some between, true⟩ ∧
      Store.settle ⟨some between, true⟩ [wide] = .ok ⟨some next, true⟩ ∧
      next.counter (key 1000) = 705032719 ∧ next.counter (key 1001) = 0 ∧
      next.counter seven.monthKeyOf = 14 ∧ next.length = 2 := by
  intro key t wide spent seven
  have ht : t.Proper := ⟨by decide, by decide, by decide⟩
  have hread : Store.query ⟨some t, false⟩ (fun _ => true) = .ok [wide, spent] := by
    have hsorted : Table.sorted (t.filter fun _ => true) = t :=
      List.mergeSort_of_pairwise (by decide +kernel)
    simp only [Store.query, report, hsorted]
    decide +kernel
  obtain ⟨now, next, hnow, hnext, -, hparts⟩ := settlement_framed ht false hread
    (List.Subset.refl _) (List.cons_ne_nil _ _) (by decide) [[seven], [], [seven]]
  obtain ⟨between, hbetween, hsame⟩ := hparts [spent] [wide] (by decide) (by decide) (by decide)
  refine ⟨now, between, next, hnow, hnext, hbetween, hsame, ?_⟩
  have hcommitted : t.commit [[seven], [], [seven]].flatten = now := by
    rw [Store.commitAll_eq] at hnow
    exact Option.some.inj (congrArg Store.table (Except.ok.inj hnow))
  have hsettled : now.settle [wide, spent] = next := by
    rw [Store.settle_of_ne_nil (List.cons_ne_nil _ _)] at hnext
    exact Option.some.inj (congrArg Store.table (Except.ok.inj hnext))
  rw [← hsettled, ← hcommitted]
  decide +kernel

/-- A counter that a commit carries to 2 ^ 63 is lowered by one more than was read of it. -/
theorem lowered_by_more_past_int64 :
    let key : Key := ⟨dayKey .epoch, .nil, 1000, []⟩
    let t : Table := [⟨1, key, 9223372036854775807⟩]
    let wide : Row := ⟨1, .nil, dayKey .epoch, 1000, none, 4294967295⟩
    let one : Increment := ⟨.nil, .epoch, 1000, none, 1⟩
    t.Proper ∧ Store.readAll ⟨some t, false⟩ = .ok [wide] ∧
      ∃ now next, Store.commit ⟨some t, false⟩ [one] = .ok ⟨some now, false⟩ ∧
        Store.settle ⟨some now, false⟩ [wide] = .ok ⟨some next, true⟩ ∧
        now.counter key = 9223372036854775808 ∧
        next.counter key = 9223372032559808512 ∧
        next.counter key ≠ now.counter key - wide.counter.toNat := by
  intro key t wide one
  refine ⟨⟨by decide, by decide, by decide⟩, ?_, _, _, rfl, rfl, ?_⟩
  · have hsorted : t.sorted = t := List.mergeSort_singleton _
    rw [Store.readAll_eq]
    simp only [report, hsorted]
    decide +kernel
  · decide +kernel

end Telemetry.Tally
