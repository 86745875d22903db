import Mathlib.Data.List.Induction
import Mathlib.Data.List.Nodup
import Mathlib.Data.Set.List
import Telemetry.Proofs.Calendar.Reading
import Telemetry.Proofs.Text.Order
import Telemetry.SumOf
import Telemetry.Viewer.Report

namespace Telemetry.Viewer

open Tally Calendar

/-- What the rows with a key come to. -/
def totalOf (key : Row → List Char) (rows : List Row) (k : List Char) : Total :=
  ⟨k, (rows.filter (key · = k)).length, sumOf (·.counter.toNat) (rows.filter (key · = k))⟩

section Counting

variable {k : List Char} {counter : Nat} {ts : List Total}

theorem mem_keys_countRow (l : List Char) :
    l ∈ (countRow k counter ts).map Total.key ↔ l = k ∨ l ∈ ts.map Total.key := by
  induction ts with
  | nil => simp [countRow]
  | cons t ts ih =>
    rw [countRow]
    split
    · next hk => simp [hk]
    · split
      · simp
      · rw [List.map_cons, List.mem_cons, ih, List.map_cons, List.mem_cons, or_left_comm]

theorem pairwise_countRow (h : (ts.map Total.key).Pairwise (· < ·)) :
    ((countRow k counter ts).map Total.key).Pairwise (· < ·) := by
  induction ts with
  | nil => exact List.pairwise_singleton _ _
  | cons t ts ih =>
    rw [List.map_cons, List.pairwise_cons] at h
    obtain ⟨hbehind, hts⟩ := h
    rw [countRow]
    split
    · next hk =>
      rw [List.map_cons, hk, List.pairwise_cons]
      exact ⟨hbehind, hts⟩
    · next hk =>
      split
      · next hlt =>
        rw [List.map_cons, List.map_cons, List.pairwise_cons, List.pairwise_cons]
        refine ⟨fun l hl => ?_, hbehind, hts⟩
        rcases List.mem_cons.1 hl with rfl | hl
        · exact hlt
        · exact List.lt_trans hlt (hbehind l hl)
      · next hlt =>
        rw [List.map_cons, List.pairwise_cons]
        refine ⟨fun l hl => ?_, ih hts⟩
        rcases (mem_keys_countRow l).1 hl with rfl | hl
        · by_contra hge
          exact hk (List.le_antisymm (List.not_lt.1 hge) (List.not_lt.1 hlt))
        · exact hbehind l hl

theorem sumOf_countRow {measure : Total → Nat} {amount : Nat} (hnone : measure ⟨k, 0, 0⟩ = 0)
    (hmore : ∀ n s, measure ⟨k, n + 1, s + counter⟩ = measure ⟨k, n, s⟩ + amount) :
    sumOf measure (countRow k counter ts) = sumOf measure ts + amount := by
  have hfirst : measure ⟨k, 1, counter⟩ = amount := by
    have hone := hmore 0 0
    rwa [Nat.zero_add, Nat.zero_add, hnone, Nat.zero_add] at hone
  induction ts with
  | nil => rw [countRow, sumOf_cons, hfirst, sumOf_nil, Nat.add_comm]
  | cons t ts ih =>
    obtain ⟨l, n, s⟩ := t
    rw [countRow]
    split
    · next hk =>
      subst hk
      simp only [sumOf_cons, hmore]
      omega
    · split
      · rw [sumOf_cons, hfirst, Nat.add_comm]
      · rw [sumOf_cons, ih, sumOf_cons]
        omega

end Counting

section Totals

variable (key : Row → List Char) (rows : List Row)

theorem totals_concat (r : Row) : totals key (rows ++ [r]) =
    countRow (key r) r.counter.toNat (totals key rows) := by
  rw [totals, List.foldl_append]
  rfl

theorem mem_keys_totals (k : List Char) :
    k ∈ (totals key rows).map Total.key ↔ ∃ r ∈ rows, key r = k := by
  -- from the end, since the fold counts the last row last
  induction rows using List.reverseRecOn with
  | nil => simp [totals]
  | append_singleton rows r ih =>
    rw [totals_concat, mem_keys_countRow, ih]
    simp only [List.mem_append, List.mem_singleton, or_and_right, exists_or, exists_eq_left]
    rw [or_comm, eq_comm]

theorem pairwise_totals : ((totals key rows).map Total.key).Pairwise (· < ·) := by
  induction rows using List.reverseRecOn with
  | nil => exact List.Pairwise.nil
  | append_singleton rows r ih =>
    rw [totals_concat]
    exact pairwise_countRow ih

variable {key} in
theorem sumOf_totals {measure : Total → Nat} {amount : Row → Nat}
    (hnone : ∀ k, measure ⟨k, 0, 0⟩ = 0)
    (hmore : ∀ r n s, measure ⟨key r, n + 1, s + r.counter.toNat⟩ =
      measure ⟨key r, n, s⟩ + amount r) :
    sumOf measure (totals key rows) = sumOf amount rows := by
  induction rows using List.reverseRecOn with
  | nil => rfl
  | append_singleton rows r ih =>
    rw [totals_concat, sumOf_countRow (hnone _) (hmore r), ih, sumOf_append, sumOf_cons, sumOf_nil,
      Nat.add_zero]

theorem sumOf_rows_totals : sumOf Total.rows (totals key rows) = rows.length := by
  rw [← Nat.mul_one rows.length, ← sumOf_const]
  exact sumOf_totals rows (fun _ => rfl) fun _ _ _ => rfl

theorem sumOf_sum_totals :
    sumOf Total.sum (totals key rows) = sumOf (·.counter.toNat) rows :=
  sumOf_totals rows (fun _ => rfl) fun _ _ _ => rfl

variable {key rows}

theorem sumOf_at_key {ts : List Total} (h : (ts.map Total.key).Nodup) {t : Total} (ht : t ∈ ts)
    (measure : Total → Nat) :
    sumOf (fun u => if u.key = t.key then measure u else 0) ts = measure t := by
  have hsame : ∀ u ∈ ts, (if u.key = t.key then measure u else 0) =
      if t = u then measure t else 0 := by
    intro u hu
    by_cases hk : u.key = t.key
    · rw [List.inj_on_of_nodup_map h hu ht hk, if_pos rfl, if_pos rfl]
    · have hne : t ≠ u := fun he => hk (congrArg Total.key he.symm)
      rw [if_neg hk, if_neg hne]
  rw [sumOf_congr hsame, sumOf_ite_eq (List.Nodup.of_map _ h), if_pos ht]

theorem eq_totalOf {t : Total} (ht : t ∈ totals key rows) : t = totalOf key rows t.key := by
  have hnodup : ((totals key rows).map Total.key).Nodup := by
    refine (pairwise_totals key rows).imp ?_
    rintro k _ hlt rfl
    exact List.lt_irrefl k hlt
  have hrows : t.rows = (rows.filter (key · = t.key)).length := by
    rw [← sumOf_at_key hnodup ht Total.rows, ← Nat.mul_one (List.length _), ← sumOf_const,
      sumOf_filter]
    refine sumOf_totals rows (fun _ => by simp) fun r n s => ?_
    by_cases hk : key r = t.key <;> simp [hk]
  have hsum : t.sum = sumOf (·.counter.toNat) (rows.filter (key · = t.key)) := by
    rw [← sumOf_at_key hnodup ht Total.sum, sumOf_filter]
    refine sumOf_totals rows (fun _ => by simp) fun r n s => ?_
    by_cases hk : key r = t.key <;> simp [hk]
  rw [totalOf, ← hrows, ← hsum]

variable (key rows)

theorem totals_eq_map :
    totals key rows = ((totals key rows).map Total.key).map (totalOf key rows) := by
  rw [List.map_map]
  refine (List.map_id _).symm.trans (List.map_congr_left fun t ht => ?_)
  exact eq_totalOf ht

end Totals

theorem sumOf_counter_le (rows : List Row) :
    sumOf (·.counter.toNat) rows ≤ rows.length * 4294967295 := by
  rw [← sumOf_const]
  exact sumOf_mono fun r _ => Nat.le_pred_of_lt r.counter.toNat_lt

theorem sum_lt_of_mem_totals {key : Row → List Char} {rows : List Row} {t : Total}
    (ht : t ∈ totals key rows) (hrows : rows.length ≤ 2 ^ 32) : t.sum < 2 ^ 64 := by
  have hpart := le_sumOf Total.sum ht
  rw [sumOf_sum_totals] at hpart
  have hall := sumOf_counter_le rows
  omega

theorem periodLabel_eq_name_iff (r : Row) (p : Period) :
    periodLabel r = p.name.toList ↔ Period.ofKey? r.bucket = some p := by
  rw [periodLabel, Row.period]
  cases Period.ofKey? r.bucket with
  | none => cases p <;> decide
  | some q => cases p <;> cases q <;> decide

theorem periodLabel_eq_unknown_iff (r : Row) :
    periodLabel r = "unknown".toList ↔ Period.ofKey? r.bucket = none := by
  rw [periodLabel, Row.period]
  cases Period.ofKey? r.bucket with
  | none => decide
  | some q => cases q <;> decide

theorem exists_ids (rows : List Row) : ∃ ids : List EventId,
    (eventTotals rows).map Total.key = ids.map Uuid.toChars ∧
      ids.Pairwise (fun a b => a.before b) ∧ ∀ id, id ∈ ids ↔ ∃ r ∈ rows, r.event = id := by
  have hkeys (k : List Char) := mem_keys_totals (fun r => r.event.toChars) rows k
  obtain ⟨ids, hids⟩ : (eventTotals rows).map Total.key ∈ Set.range (List.map Uuid.toChars) := by
    rw [Set.range_list_map]
    intro k hk
    obtain ⟨r, -, hr⟩ := (hkeys k).1 hk
    exact ⟨r.event, hr⟩
  refine ⟨ids, hids.symm, ?_, fun id => ?_⟩
  · have hsorted := pairwise_totals (fun r => r.event.toChars) rows
    rw [← eventTotals, ← hids, List.pairwise_map] at hsorted
    exact hsorted.imp fun h => (Uuid.toChars_lt_iff _ _).1 h
  · have hid := hkeys id.toChars
    rw [← eventTotals, ← hids, List.mem_map_of_injective fun _ _ => Uuid.toChars_inj] at hid
    rw [hid]
    exact exists_congr fun r => and_congr_right fun _ => ⟨Uuid.toChars_inj, congrArg Uuid.toChars⟩

/-- The statistics have a line for each label of the rows, with their number and the sum of their
counters, and these add up to all rows and all counters. A label is the period that the bucket's key
denotes, if it denotes one. The summary has a line for each event of the rows, in the order of their
identifiers, with the sum of their counters. All counters together come to less than 2 ^ 32 for each
row, and so up to 2 ^ 32 rows every total has 64 bits. -/
theorem totals_exact (rows : List Row) :
    (∃ labels : List (List Char), labels.Pairwise (· < ·) ∧
      (∀ l, l ∈ labels ↔ ∃ r ∈ rows, periodLabel r = l) ∧
      statistics rows = "📊 Tally Statistics".toList :: [] ::
        ("Total Rows:      ".toList ++ Decimal.integer rows.length) ::
        labels.map (fun l => periodLine (totalOf periodLabel rows l)) ∧
      sumOf (fun l => (totalOf periodLabel rows l).rows) labels = rows.length ∧
      sumOf (fun l => (totalOf periodLabel rows l).sum) labels =
        sumOf (·.counter.toNat) rows) ∧
    (∀ (r : Row) (p : Period), periodLabel r = p.name.toList ↔ Period.ofKey? r.bucket = some p) ∧
    (∀ r : Row, periodLabel r = "unknown".toList ↔ Period.ofKey? r.bucket = none) ∧
    (∀ (p : Period) (d : Date), Period.ofKey? (p.key d) = some p) ∧
    (∃ ids : List EventId, ids.Pairwise (fun a b => a.before b) ∧
      (∀ id, id ∈ ids ↔ ∃ r ∈ rows, r.event = id) ∧
      Format.lines rows .summary = ids.map fun id => id.toChars ++ bar ++
        Decimal.integer (sumOf (·.counter.toNat) (rows.filter (·.event = id)))) ∧
    sumOf (·.counter.toNat) rows ≤ rows.length * 4294967295 ∧
    (rows.length ≤ 2 ^ 32 → ∀ t ∈ periodTotals rows ++ eventTotals rows, t.sum < 2 ^ 64) := by
  refine ⟨?_, periodLabel_eq_name_iff, periodLabel_eq_unknown_iff, ofKey?_key, ?_,
    sumOf_counter_le rows, fun hrows t ht => ?_⟩
  · have htotals := totals_eq_map periodLabel rows
    refine ⟨(periodTotals rows).map Total.key, pairwise_totals _ rows, mem_keys_totals _ rows,
      ?_, ?_, ?_⟩
    · have hlines := congrArg (List.map periodLine) htotals
      rw [List.map_map] at hlines
      rw [statistics, periodTotals, hlines]
      rfl
    · rw [← sumOf_map Total.rows, periodTotals, ← htotals, sumOf_rows_totals]
    · rw [← sumOf_map Total.sum, periodTotals, ← htotals, sumOf_sum_totals]
  · obtain ⟨ids, hids, hsorted, hmem⟩ := exists_ids rows
    refine ⟨ids, hsorted, hmem, ?_⟩
    have htotals := totals_eq_map (fun r => r.event.toChars) rows
    rw [← eventTotals, hids, List.map_map] at htotals
    rw [Format.lines, htotals, List.map_map]
    apply List.map_congr_left
    intro id _
    have hsame : (rows.filter fun r => r.event.toChars = id.toChars) =
        rows.filter fun r => r.event = id := by
      apply List.filter_congr
      intro r _
      rw [decide_eq_decide]
      exact ⟨Uuid.toChars_inj, congrArg Uuid.toChars⟩
    rw [Function.comp_apply, Function.comp_apply, summaryLine, totalOf, hsame]
  · rcases List.mem_append.1 ht with ht | ht
    · exact sum_lt_of_mem_totals ht hrows
    · exact sum_lt_of_mem_totals ht hrows

end Telemetry.Viewer
