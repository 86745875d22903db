import Telemetry.Event.Cache

namespace Telemetry.Event

/-- No limit admits every size. -/
def Within (limit : Option Nat) (size : Nat) : Prop := ∀ l, limit = some l → size ≤ l

theorem Within.mono {limit : Option Nat} {m n : Nat} (h : Within limit n) (hmn : m ≤ n) :
    Within limit m := fun l hl => Nat.le_trans hmn (h l hl)

theorem Within.add {limit : Option Nat} {m n : Nat} (hm : Within limit m)
    (hn : Within (limit.map (· - m)) n) : Within limit (m + n) := by
  rintro l rfl
  have hused := hm l rfl
  have hrest := hn (l - m) rfl
  omega

theorem all_le_iff {limit : Option Nat} {size : Nat} :
    limit.all (size ≤ ·) = true ↔ Within limit size := by
  cases limit with
  | none => exact ⟨fun _ _ h => (nomatch h), fun _ => rfl⟩
  | some l =>
    constructor
    · intro h _ hl
      cases hl
      exact of_decide_eq_true h
    · intro h
      exact decide_eq_true (h l rfl)

def CacheRow.record? (r : CacheRow) : Option Record := (Record.decoder.decode r.blob).toOption

def CacheRow.size (r : CacheRow) : Nat := r.blob.length

theorem decode_of_record? {r : CacheRow} {e : Record} (h : r.record? = some e) :
    Record.decoder.decode r.blob = .ok e := by
  rw [CacheRow.record?] at h
  cases hd : Record.decoder.decode r.blob with
  | error fault =>
    rw [hd] at h
    cases h
  | ok e' =>
    rw [hd] at h
    cases h
    rfl

theorem scan_cons_of_record? {r : CacheRow} {e : Record} (h : r.record? = some e)
    (limit : Option Nat) (used : Nat) (rows : List CacheRow) :
    scan limit used (r :: rows) =
      if limit.all (used + r.size ≤ ·) then
        ⟨⟨r.id, e, r.size⟩ :: (scan limit (used + r.size) rows).records,
          (scan limit (used + r.size) rows).corrupt⟩
      else ⟨[], []⟩ := by
  rw [scan, decode_of_record? h]
  rfl

/-- What a load makes of a row, if it holds a record. -/
def CacheRow.cached? (r : CacheRow) : Option Cached := r.record?.map fun e => ⟨r.id, e, r.size⟩

/-- What a row counts for in a load: its octets, if it holds a record. -/
def CacheRow.weight (r : CacheRow) : Nat := if r.record?.isSome then r.size else 0

theorem CacheRow.weight_le_size (r : CacheRow) : r.weight ≤ r.size := by
  rw [weight]
  split
  · exact Nat.le_refl _
  · exact Nat.zero_le _

theorem map_id_cached (rows : List CacheRow) :
    (rows.filterMap CacheRow.cached?).map Cached.id =
      (rows.filter (·.record?.isSome)).map CacheRow.id := by
  induction rows with
  | nil => rfl
  | cons r rows ih =>
    cases he : r.record? with
    | none => simpa [CacheRow.cached?, he] using ih
    | some e => simpa [CacheRow.cached?, he] using ih

theorem map_record_cached (rows : List CacheRow) :
    (rows.filterMap CacheRow.cached?).map Cached.record = rows.filterMap CacheRow.record? := by
  have hrecord : (fun r : CacheRow => r.cached?.map Cached.record) = CacheRow.record? := by
    funext r
    rw [CacheRow.cached?, Option.map_map]
    exact Option.map_id_apply
  rw [List.map_filterMap, hrecord]

theorem sumOf_cost_cached (rows : List CacheRow) :
    sumOf Cached.cost (rows.filterMap CacheRow.cached?) = sumOf CacheRow.weight rows := by
  induction rows with
  | nil => rfl
  | cons r rows ih =>
    rw [sumOf_cons, ← ih, CacheRow.weight]
    cases he : r.record? with
    | none => simp [CacheRow.cached?, he]
    | some e => simp [CacheRow.cached?, he]

/-- A scan that has counted so much passes the rows in front, and stops before the others: at a row,
whether it holds a record or not, that would lead past the limit. -/
structure Halts (limit : Option Nat) (used : Nat) (front rest : List CacheRow) : Prop where
  passes : ∀ before r, before ++ [r] <+: front →
    Within limit (used + sumOf CacheRow.weight before + r.size)
  stops : ∀ r, rest.head? = some r → ¬Within limit (used + sumOf CacheRow.weight front + r.size)

section Scan

variable {limit : Option Nat} {used : Nat} {front rest : List CacheRow} {r : CacheRow}

theorem halts_nil (h : ∀ r, rest.head? = some r → ¬Within limit (used + r.size)) :
    Halts limit used [] rest := by
  refine ⟨fun before r hp => ?_, h⟩
  simp at hp

theorem Halts.cons (h : Halts limit (used + r.weight) front rest) (hr : Within limit (used + r.size)) :
    Halts limit used (r :: front) rest := by
  constructor
  · intro before x hp
    cases before with
    | nil =>
      obtain ⟨rfl, -⟩ := List.cons_prefix_cons.1 hp
      exact hr
    | cons y before =>
      obtain ⟨rfl, hbefore⟩ := List.cons_prefix_cons.1 hp
      rw [sumOf_cons, ← Nat.add_assoc]
      exact h.passes before x hbefore
  · intro x hx
    rw [sumOf_cons, ← Nat.add_assoc]
    exact h.stops x hx

theorem Halts.within (h : Halts limit 0 front rest) : Within limit (sumOf CacheRow.weight front) := by
  rcases List.eq_nil_or_concat front with rfl | ⟨before, r, rfl⟩
  · exact fun _ _ => Nat.zero_le _
  · rw [List.concat_eq_append] at h ⊢
    refine (h.passes before r List.prefix_rfl).mono ?_
    have hr := r.weight_le_size
    rw [sumOf_append, sumOf_cons, sumOf_nil]
    omega

theorem scan_cons_of_no_record (h : r.record? = none) (limit : Option Nat) (used : Nat)
    (rows : List CacheRow) :
    scan limit used (r :: rows) =
      if limit.all (used + r.size ≤ ·) then
        ⟨(scan limit used rows).records, r.id :: (scan limit used rows).corrupt⟩
      else ⟨[], []⟩ := by
  rw [CacheRow.record?] at h
  rw [scan]
  cases hd : Record.decoder.decode r.blob with
  | error fault => rfl
  | ok e =>
    rw [hd] at h
    cases h

/-- A scan divides the rows where it stops; it reports the records of those in front, and which of them
hold none. -/
theorem exists_scan (limit : Option Nat) (used : Nat) (rows : List CacheRow) :
    ∃ front rest, rows = front ++ rest ∧ Halts limit used front rest ∧
      (scan limit used rows).records = front.filterMap CacheRow.cached? ∧
      (scan limit used rows).corrupt =
        (front.filter (·.record?.isNone)).map CacheRow.id := by
  induction rows generalizing used with
  | nil => exact ⟨[], [], rfl, halts_nil fun _ hr => (nomatch hr), rfl, rfl⟩
  | cons r rows ih =>
    by_cases hr : Within limit (used + r.size)
    · cases he : r.record? with
      | some e =>
        have hweight : r.weight = r.size := by simp [CacheRow.weight, he]
        have hcached : r.cached? = some ⟨r.id, e, r.size⟩ := by simp [CacheRow.cached?, he]
        obtain ⟨front, rest, rfl, hhalts, hrecords, hcorrupt⟩ := ih (used + r.size)
        rw [scan_cons_of_record? he, if_pos (all_le_iff.2 hr)]
        rw [← hweight] at hhalts
        refine ⟨r :: front, rest, rfl, hhalts.cons hr, ?_, ?_⟩
        · rw [List.filterMap_cons_some hcached, ← hrecords]
        · rw [List.filter_cons_of_neg (by simp [he])]
          exact hcorrupt
      | none =>
        have hweight : r.weight = 0 := by simp [CacheRow.weight, he]
        have hcached : r.cached? = none := by simp [CacheRow.cached?, he]
        obtain ⟨front, rest, rfl, hhalts, hrecords, hcorrupt⟩ := ih used
        rw [scan_cons_of_no_record he, if_pos (all_le_iff.2 hr)]
        rw [← Nat.add_zero used, ← hweight] at hhalts
        refine ⟨r :: front, rest, rfl, hhalts.cons hr, ?_, ?_⟩
        · rw [List.filterMap_cons_none hcached]
          exact hrecords
        · rw [List.filter_cons_of_pos (by simp [he]), List.map_cons, ← hcorrupt]
    · have hstop : scan limit used (r :: rows) = ⟨[], []⟩ := by
        rw [scan]
        exact if_neg fun h => hr (all_le_iff.1 h)
      rw [hstop]
      refine ⟨[], r :: rows, rfl, halts_nil fun x hx => ?_, rfl, rfl⟩
      cases hx
      exact hr

end Scan

end Telemetry.Event
