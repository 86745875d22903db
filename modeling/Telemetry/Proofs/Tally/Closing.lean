import Telemetry.Proofs.Calendar.Order
import Telemetry.Proofs.Tally.Contents

namespace Telemetry.Tally

open Calendar

/-- The bucket is that of a day, or of a month, before the one of a date. -/
def Closed (p : Period) (d : Date) (bucket : List Char) : Prop :=
  ∃ e : Date, bucket = p.key e ∧ p.Before e d

/-- The bucket of a day or of a month that lies before that of the date. -/
def Due (d : Date) (bucket : List Char) : Prop := Closed .day d bucket ∨ Closed .month d bucket

section Calendar

variable {p q : Period} {d e : Date}

theorem not_before_self (p : Period) (d : Date) : ¬p.Before d d := by
  cases p <;> simp [Period.Before, dayBefore, monthBefore]

theorem before_of_key_eq {e' : Date} (hk : p.key e = p.key e') (h : p.Before e d) :
    p.Before e' d := by
  cases p with
  | day => rwa [← dayKey_inj hk]
  | month =>
    obtain ⟨hyear, hmonth⟩ := monthKey_eq_iff.1 hk
    simpa only [Period.Before, monthBefore, hyear, hmonth] using h

theorem period_of_key_eq (h : p.key d = q.key e) : p = q := by
  cases p <;> cases q
  · rfl
  · exact absurd h (dayKey_ne_monthKey d e)
  · exact absurd h.symm (dayKey_ne_monthKey e d)
  · rfl

theorem closed_key_iff : Closed p d (q.key e) ↔ q = p ∧ p.Before e d := by
  constructor
  · rintro ⟨e', hk, hb⟩
    cases period_of_key_eq hk
    exact ⟨rfl, before_of_key_eq hk.symm hb⟩
  · rintro ⟨rfl, hb⟩
    exact ⟨e, rfl, hb⟩

theorem Closed.ne_key {bucket : List Char} (h : Closed p d bucket) (q : Period) :
    bucket ≠ q.key d := by
  rintro rfl
  exact not_before_self p d (closed_key_iff.1 h).2

theorem Due.ne_key {bucket : List Char} (h : Due d bucket) (q : Period) : bucket ≠ q.key d :=
  h.elim (fun hday => hday.ne_key q) fun hmonth => hmonth.ne_key q

theorem not_closed_both (d : Date) (bucket : List Char) :
    ¬(Closed .day d bucket ∧ Closed .month d bucket) := by
  rintro ⟨⟨e, rfl, -⟩, hm⟩
  cases (closed_key_iff.1 hm).1

theorem closedBefore_key_iff (hd : d.FourDigits) (he : e.FourDigits) :
    closedBefore (p.key d) (q.key e) = true ↔ Closed p d (q.key e) := by
  rw [closed_key_iff, closedBefore, decide_eq_true_eq, measured_key, measured_key, length_key q he,
    length_key p hd]
  cases p <;> cases q <;> simp [key_lt_iff, hd, he]

end Calendar

namespace Table

variable {t : Table} {is : List Increment} {keep : Stored → Bool} {chosen other : List Char → Prop}
  {rows rows' : List Row}

/-- The rows are those of the table that are in the chosen buckets, each once. -/
structure Lists (t : Table) (chosen : List Char → Prop) (rows : List Row) : Prop where
  once : (rows.map Row.id).Nodup
  exact : ∀ x, x ∈ (rows.map fun r => (r.id, r.key, r.counter)) ↔
    ∃ s ∈ t, chosen s.key.bucket ∧ (s.id, s.key, saturate s.counter) = x

theorem Lists.exists_stored (h : t.Lists chosen rows) {r : Row} (hr : r ∈ rows) :
    ∃ s ∈ t, chosen s.key.bucket ∧ s.id = r.id ∧ s.key = r.key := by
  obtain ⟨s, hs, hchosen, heq⟩ := (h.exact (r.id, r.key, r.counter)).1 (List.mem_map_of_mem hr)
  simp only [Prod.mk.injEq] at heq
  exact ⟨s, hs, hchosen, heq.1, heq.2.1⟩

theorem Lists.chosen_bucket (h : t.Lists chosen rows) {r : Row} (hr : r ∈ rows) : chosen r.bucket := by
  obtain ⟨s, -, hchosen, -, hkey⟩ := h.exists_stored hr
  have hbucket : s.key.bucket = r.bucket := congrArg Key.bucket hkey
  rwa [hbucket] at hchosen

theorem Lists.append (h : t.Lists chosen rows) (h' : t.Lists other rows')
    (ht : (t.map Stored.id).Nodup) (hdisjoint : ∀ b, ¬(chosen b ∧ other b)) :
    t.Lists (fun b => chosen b ∨ other b) (rows ++ rows') where
  once := by
    rw [List.map_append, List.nodup_append]
    refine ⟨h.once, h'.once, ?_⟩
    rintro a ha b hb rfl
    obtain ⟨r, hr, rfl⟩ := List.mem_map.1 ha
    obtain ⟨r', hr', hid⟩ := List.mem_map.1 hb
    obtain ⟨s, hs, hchosen, hsid, -⟩ := h.exists_stored hr
    obtain ⟨s', hs', hother, hsid', -⟩ := h'.exists_stored hr'
    cases eq_of_id ht hs hs' (hsid.trans (hid.symm.trans hsid'.symm))
    exact hdisjoint s.key.bucket ⟨hchosen, hother⟩
  exact := by
    intro x
    rw [List.map_append, List.mem_append, h.exact, h'.exact]
    constructor
    · rintro (⟨s, hs, hb, hx⟩ | ⟨s, hs, hb, hx⟩)
      · exact ⟨s, hs, .inl hb, hx⟩
      · exact ⟨s, hs, .inr hb, hx⟩
    · rintro ⟨s, hs, hb | hb, hx⟩
      · exact .inl ⟨s, hs, hb, hx⟩
      · exact .inr ⟨s, hs, hb, hx⟩

/-- What increments leave in a table without rows: numbers that differ, keys of the buckets of their
dates, and counters that fit as long as the sums do. -/
structure Filled (t : Table) (is : List Increment) : Prop where
  ids : (t.map Stored.id).Nodup
  genuine : ∀ s ∈ t, s.key.Genuine
  dated : ∀ s ∈ t, ∃ i ∈ is, ∃ p : Period, s.key.bucket = p.key i.date
  fits : ∀ s ∈ t, counted is s.key < 2 ^ 63 → Tally.fits s.counter

theorem nodup_keys_commit (is : List Increment) : ((commit [] is).map Stored.key).Nodup :=
  commit_induction (P := fun t => (t.map Stored.key).Nodup)
    (fun _ i _ key _ h => nodup_keys_add h key i.amount.toNat) List.nodup_nil

theorem filled_commit (hpayload : ∀ i ∈ is, i.payload.store.length < Codec.capacity 8) :
    Filled (commit [] is) is where
  ids := commit_induction (P := fun t => (t.map Stored.id).Nodup)
    (fun _ i _ key _ h => ids_add h key i.amount.toNat) List.nodup_nil
  genuine := genuine_commit (fun s hs => absurd hs List.not_mem_nil) hpayload
  dated := by
    intro s hs
    obtain hnil | ⟨i, hi, hkey⟩ := (mem_keys_commit [] is s.key).1 (List.mem_map_of_mem hs)
    · cases hnil
    · obtain hkey | hkey := hkey
      · exact ⟨i, hi, .day, congrArg Key.bucket hkey⟩
      · exact ⟨i, hi, .month, congrArg Key.bucket hkey⟩
  fits := by
    intro s hs hsum
    have hnil : counter [] s.key = 0 := rfl
    have hroom : Tally.fits (counted is s.key) := fits_of_lt (Int.natCast_nonneg _) (by omega)
    have hgains := gains_commit [] is s.key
    rw [Gains, hnil, Int.zero_add, counter_of_mem (nodup_keys_commit is) hs] at hgains
    rw [hgains rfl hroom]
    exact hroom

theorem Filled.reads (h : t.Filled is) (hkeep : ∀ s ∈ t, keep s = true ↔ chosen s.key.bucket)
    (hsum : ∀ k, chosen k.bucket → counted is k < 2 ^ 63) :
    ∃ rows, report (t.filter keep) = .ok rows ∧ t.Lists chosen rows := by
  have hmem (s : Stored) : s ∈ t.filter keep ↔ s ∈ t ∧ chosen s.key.bucket := by
    rw [List.mem_filter]
    exact and_congr_right fun hs => hkeep s hs
  have hfits : ∀ s ∈ t.filter keep, Tally.fits s.counter := by
    intro s hs
    obtain ⟨hs, hchosen⟩ := (hmem s).1 hs
    exact h.fits s hs (hsum s.key hchosen)
  obtain ⟨rows, hrows, hperm, -⟩ := exists_report (fun s hs => h.genuine s ((hmem s).1 hs).1) hfits
  refine ⟨rows, hrows, nodup_ids_report h.ids hrows, fun x => ?_⟩
  rw [hperm.mem_iff, List.mem_map]
  simp only [hmem, and_assoc]

theorem Filled.reads_rowsBefore (h : t.Filled is) (hdates : ∀ i ∈ is, i.date.FourDigits) {d : Date}
    (hd : d.FourDigits) (prepared : Bool) {p : Period}
    (hsum : ∀ k, Closed p d k.bucket → counted is k < 2 ^ 63) :
    ∃ rows, Store.rowsBefore ⟨some t, prepared⟩ p d = .ok rows ∧ t.Lists (Closed p d) rows := by
  refine h.reads (fun s hs => ?_) hsum
  obtain ⟨i, hi, q, hbucket⟩ := h.dated s hs
  rw [hbucket]
  exact closedBefore_key_iff hd (hdates i hi)

theorem counter_commit_replicate (i : Increment) (n : Nat) (hn : n * i.amount.toNat < 2 ^ 63) :
    (commit [] (List.replicate n i)).counter i.dayKeyOf = n * i.amount.toNat := by
  have hday : sumOf (·.dayPart i.dayKeyOf) (List.replicate n i) = n * i.amount.toNat := by
    have hall : ∀ x ∈ List.replicate n i, x.dayPart i.dayKeyOf = i.amount.toNat := by
      intro x hx
      rw [(List.mem_replicate.1 hx).2]
      exact if_pos rfl
    rw [sumOf_congr hall, sumOf_const, List.length_replicate]
  have hmonth : sumOf (·.monthPart i.dayKeyOf) (List.replicate n i) = 0 := by
    refine sumOf_eq_zero fun x _ => if_neg ?_
    exact Ne.symm (i.dayKeyOf_ne_monthKeyOf x)
  have hgains := gains_commit [] (List.replicate n i) i.dayKeyOf
  have hnil : counter [] i.dayKeyOf = 0 := rfl
  rw [Gains, hnil, Int.zero_add, hday, hmonth, Nat.add_zero] at hgains
  rw [hgains rfl (fits_of_lt (Int.natCast_nonneg _) (by omega)), Int.natCast_mul]

theorem rowsBefore_of_not_fits {s : Stored} {p : Period} {d : Date} (prepared : Bool) (hs : s ∈ t)
    (hclosed : closedBefore (p.key d) s.key.bucket = true) (hwide : ¬Tally.fits s.counter) :
    Store.rowsBefore ⟨some t, prepared⟩ p d = .error .readTallyRow :=
  if_neg fun hall => hwide (List.all_eq_true.1 hall s (List.mem_filter.2 ⟨hs, hclosed⟩))

end Table

end Telemetry.Tally
