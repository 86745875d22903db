import Mathlib.Data.List.Nodup
import Telemetry.Proofs.Event.Reading
import Telemetry.Proofs.Event.Scanning

namespace Telemetry.Event

open Codec

theorem fitting_prefix (limit : Option Nat) (used : Nat) (rs : List Record) :
    fitting limit used rs ++ rs.drop (fitting limit used rs).length = rs := by
  induction rs generalizing used with
  | nil => rfl
  | cons r rs ih =>
    rw [fitting]
    split
    · rw [List.length_cons, List.drop_succ_cons, List.cons_append, ih]
    · rfl

theorem fitting_none (used : Nat) (rs : List Record) : fitting none used rs = rs := by
  induction rs generalizing used with
  | nil => rfl
  | cons r rs ih =>
    rw [fitting, ih]
    rfl

theorem fitting_of_le {limit used : Nat} {rs : List Record} (h : used + totalCost rs ≤ limit) :
    fitting (some limit) used rs = rs := by
  induction rs generalizing used with
  | nil => rfl
  | cons r rs ih =>
    rw [totalCost, sumOf_cons] at h
    have hr : used + r.cost ≤ limit := by omega
    have hrs : used + r.cost + totalCost rs ≤ limit := by
      rw [totalCost]
      omega
    rw [fitting, if_pos (by simpa using hr), ih hrs]

namespace Buffer

def Small (b : Buffer) : Prop := ∀ r ∈ b.records, r.cost ≤ maxRecordCost

variable {b : Buffer}

theorem small_empty (limit : Nat) : (empty limit).Small := fun _ h => nomatch h

theorem small_push (h : b.Small) (r : Record) : (b.push r).Small := by
  rw [push]
  split
  · next ha =>
    intro x hx
    rcases List.mem_append.1 hx with hx | hx
    · exact h x hx
    · rw [List.mem_singleton.1 hx]
      rw [accepts, decide_eq_true_eq] at ha
      exact ha.1
  · exact h

theorem records_push (b : Buffer) (r : Record) :
    (b.push r).records = b.records ++ if b.accepts r then [r] else [] := by
  rw [push]
  split
  · rfl
  · exact (List.append_nil _).symm

theorem take_append (b : Buffer) (limit : Option Nat) :
    (b.take limit).1 ++ (b.take limit).2.records = b.records :=
  fitting_prefix limit 0 b.records

theorem take_none (b : Buffer) : (b.take none).1 = b.records ∧ (b.take none).2.records = [] := by
  have h : (b.take none).1 = b.records := fitting_none 0 b.records
  have ha := b.take_append none
  rw [h] at ha
  exact ⟨h, List.append_cancel_left (ha.trans (List.append_nil _).symm)⟩

theorem small_take (h : b.Small) (limit : Option Nat) :
    (∀ r ∈ (b.take limit).1, r.cost ≤ maxRecordCost) ∧ (b.take limit).2.Small := by
  have ha := b.take_append limit
  constructor
  · intro r hr
    exact h r (ha ▸ List.mem_append_left _ hr)
  · intro r hr
    exact h r (ha ▸ List.mem_append_right _ hr)

end Buffer

theorem record?_of_encode {r : CacheRow} {e : Record} (hb : r.blob = e.encode)
    (he : e.cost ≤ maxRecordCost) : r.record? = some e := by
  have hd : Record.decoder.decode e.encode = .ok e :=
    Record.decode_encode (Nat.lt_of_le_of_lt he (by decide))
  rw [CacheRow.record?, hb, hd]
  rfl

/-- The records that rows hold. -/
def recordsOf (rows : List CacheRow) : List Record := rows.filterMap CacheRow.record?

theorem recordsOf_append (xs ys : List CacheRow) :
    recordsOf (xs ++ ys) = recordsOf xs ++ recordsOf ys := List.filterMap_append

theorem recordsOf_filter {rows : List CacheRow} {p : CacheRow → Bool}
    (h : ∀ r ∈ rows, p r = false → r.record? = none) : recordsOf (rows.filter p) = recordsOf rows := by
  induction rows with
  | nil => rfl
  | cons r rows ih =>
    have hrows := ih fun x hx => h x (List.mem_cons_of_mem r hx)
    unfold recordsOf at hrows ⊢
    cases hp : p r with
    | true => rw [List.filter_cons_of_pos hp, List.filterMap_cons, List.filterMap_cons, hrows]
    | false =>
      rw [List.filter_cons_of_neg (by simp [hp]), List.filterMap_cons_none (h r List.mem_cons_self hp),
        hrows]

theorem recordsOf_divide (rows : List CacheRow) (ids : List Nat) :
    (recordsOf rows).Perm (recordsOf (rows.filter (·.id ∈ ids)) ++
      recordsOf (rows.filter (·.id ∉ ids))) := by
  rw [← recordsOf_append]
  apply List.Perm.filterMap
  have h := List.filter_append_perm (fun r : CacheRow => decide (r.id ∈ ids)) rows
  have hn : (fun r : CacheRow => !decide (r.id ∈ ids)) = fun r => decide (r.id ∉ ids) := by
    funext r
    simp
  rw [hn] at h
  exact h.symm

namespace CacheTable

/-- Every row has a number of its own, and the next one is new. -/
structure Sound (t : CacheTable) : Prop where
  nodup : (t.rows.map CacheRow.id).Nodup
  fresh : ∀ r ∈ t.rows, r.id < t.nextId

theorem sound_empty : empty.Sound := ⟨List.nodup_nil, fun _ h => nomatch h⟩

section Order

variable {t : CacheTable} {front rest : List CacheRow}

theorem Sound.thin (h : t.Sound) {rows : List CacheRow} (hs : rows.Sublist t.rows) :
    Sound ⟨rows, t.nextId⟩ :=
  ⟨h.nodup.sublist (hs.map CacheRow.id), fun r hr => h.fresh r (hs.mem hr)⟩

theorem Sound.delete (h : t.Sound) (ids : List Nat) : (t.delete ids).Sound :=
  h.thin List.filter_sublist

theorem Sound.apart (h : t.Sound) (ht : t.rows = front ++ rest) :
    ∀ r ∈ rest, r.id ∉ front.map CacheRow.id := by
  have hnodup := h.nodup
  rw [ht, List.map_append, List.nodup_append] at hnodup
  intro r hr hmem
  exact hnodup.2.2 _ hmem _ (List.mem_map_of_mem hr) rfl

theorem Sound.filter_front (h : t.Sound) (ht : t.rows = front ++ rest) :
    t.rows.filter (·.id ∈ front.map CacheRow.id) = front ∧
      t.rows.filter (·.id ∉ front.map CacheRow.id) = rest := by
  have hapart := h.apart ht
  rw [ht, List.filter_append, List.filter_append]
  constructor
  · rw [List.filter_eq_self.2 fun r hr => by simpa using ⟨r, hr, rfl⟩,
      List.filter_eq_nil_iff.2 fun r hr => by simpa using hapart r hr, List.append_nil]
  · rw [List.filter_eq_nil_iff.2 fun r hr => by simpa using ⟨r, hr, rfl⟩,
      List.filter_eq_self.2 fun r hr => by simpa using hapart r hr, List.nil_append]

theorem Sound.delete_of_front (h : t.Sound) (ht : t.rows = front ++ rest) (p : CacheRow → Bool) :
    t.delete ((front.filter p).map CacheRow.id) =
      ⟨front.filter (fun r => !p r) ++ rest, t.nextId⟩ := by
  have hnodup := h.nodup
  rw [ht, List.map_append, List.nodup_append] at hnodup
  have hfront : front.filter (·.id ∉ (front.filter p).map CacheRow.id) =
      front.filter (fun r => !p r) := by
    apply List.filter_congr
    intro r hr
    cases hp : p r with
    | true => simpa using ⟨r, hr, hp, rfl⟩
    | false =>
      simp only [Bool.not_false, decide_eq_true_eq]
      intro hmem
      obtain ⟨x, hx, hid⟩ := List.mem_map.1 hmem
      obtain ⟨hx, hpx⟩ := List.mem_filter.1 hx
      rw [List.inj_on_of_nodup_map hnodup.1 hx hr hid, hp] at hpx
      cases hpx
  have hrest : rest.filter (·.id ∉ (front.filter p).map CacheRow.id) = rest := by
    refine List.filter_eq_self.2 fun r hr => decide_eq_true fun hmem => ?_
    exact h.apart ht r hr (List.map_subset _ List.filter_sublist.subset hmem)
  rw [CacheTable.delete, ht, List.filter_append, hfront, hrest]

end Order

def numbered (n : Nat) : List Record → List CacheRow
  | [] => []
  | e :: es => ⟨n, e.encode⟩ :: numbered (n + 1) es

theorem mem_numbered {n : Nat} {es : List Record} {r : CacheRow} :
    r ∈ numbered n es ↔ ∃ i e, es[i]? = some e ∧ r = ⟨n + i, e.encode⟩ := by
  induction es generalizing n with
  | nil => simp [numbered]
  | cons e es ih =>
    rw [numbered, List.mem_cons, ih]
    constructor
    · rintro (rfl | ⟨i, e', he', rfl⟩)
      · exact ⟨0, e, rfl, rfl⟩
      · exact ⟨i + 1, e', he', by rw [Nat.add_assoc, Nat.add_comm 1]⟩
    · rintro ⟨i, e', he', rfl⟩
      cases i with
      | zero =>
        cases he'
        exact .inl rfl
      | succ i => exact .inr ⟨i, e', he', by rw [Nat.add_assoc, Nat.add_comm 1]⟩

theorem map_id_numbered (n : Nat) (es : List Record) :
    (numbered n es).map CacheRow.id = List.range' n es.length := by
  induction es generalizing n with
  | nil => rfl
  | cons e es ih => rw [numbered, List.map_cons, ih, List.length_cons, List.range'_succ]

theorem map_record?_numbered (n : Nat) {es : List Record} (h : ∀ e ∈ es, e.cost ≤ maxRecordCost) :
    (numbered n es).map CacheRow.record? = es.map some := by
  induction es generalizing n with
  | nil => rfl
  | cons e es ih =>
    have he := record?_of_encode (r := ⟨n, e.encode⟩) rfl (h e List.mem_cons_self)
    rw [numbered, List.map_cons, List.map_cons, he, ih _ fun x hx => h x (List.mem_cons_of_mem e hx)]

def extend (t : CacheTable) (es : List Record) : CacheTable :=
  ⟨t.rows ++ numbered t.nextId es, t.nextId + es.length⟩

theorem insertAll_eq (t : CacheTable) (rs : List Record) :
    rs.foldl (fun t r => t.insert r.encode) t = t.extend rs := by
  induction rs generalizing t with
  | nil =>
    rw [extend, numbered, List.append_nil]
    rfl
  | cons r rs ih =>
    rw [List.foldl_cons, ih, extend, extend, insert, numbered, List.append_assoc, List.length_cons,
      Nat.add_assoc, Nat.add_comm 1]
    rfl

theorem fresh_extend {t : CacheTable} (h : ∀ r ∈ t.rows, r.id < t.nextId) (es : List Record) :
    ∀ r ∈ (t.extend es).rows, r.id < (t.extend es).nextId := by
  intro r hr
  rcases List.mem_append.1 hr with hr | hr
  · exact Nat.lt_add_right _ (h r hr)
  · obtain ⟨i, e, he, rfl⟩ := mem_numbered.1 hr
    exact Nat.add_lt_add_left (List.getElem?_eq_some_iff.1 he).1 _

theorem Sound.insertAll {t : CacheTable} (h : t.Sound) (rs : List Record) :
    (rs.foldl (fun t r => t.insert r.encode) t).Sound := by
  rw [insertAll_eq]
  refine ⟨?_, fresh_extend h.fresh rs⟩
  rw [extend, List.map_append, map_id_numbered, List.nodup_append]
  refine ⟨h.nodup, List.nodup_range', fun i hi j hj => ?_⟩
  obtain ⟨r, hr, rfl⟩ := List.mem_map.1 hi
  exact Nat.ne_of_lt (Nat.lt_of_lt_of_le (h.fresh r hr) (List.mem_range'_1.1 hj).1)

/-- The second table has new rows behind those of the first, and they hold the given records. -/
structure Grows (t t' : CacheTable) (rs : List Record) : Prop where
  sound : t.Sound → t'.Sound
  le : t.nextId ≤ t'.nextId
  rows : ∃ new, t'.rows = t.rows ++ new ∧ (∀ r ∈ new, t.nextId ≤ r.id) ∧ recordsOf new = rs

theorem Grows.refl (t : CacheTable) : Grows t t [] :=
  ⟨id, Nat.le_refl _, [], (List.append_nil _).symm, List.forall_mem_nil _, rfl⟩

theorem grows_insertAll (t : CacheTable) {rs : List Record}
    (hrs : ∀ r ∈ rs, r.cost ≤ maxRecordCost) :
    Grows t (rs.foldl (fun t r => t.insert r.encode) t) rs := by
  refine ⟨fun h => h.insertAll rs, ?_, numbered t.nextId rs, ?_, fun r hr => ?_, ?_⟩
  · rw [insertAll_eq]
    exact Nat.le_add_right _ _
  · rw [insertAll_eq]
    rfl
  · obtain ⟨i, e, -, rfl⟩ := mem_numbered.1 hr
    exact Nat.le_add_right _ _
  · have hrows := congrArg (List.filterMap id) (map_record?_numbered t.nextId hrs)
    rw [List.filterMap_map, List.filterMap_map] at hrows
    exact hrows.trans List.filterMap_some

theorem Grows.recordsOf_eq {t t' : CacheTable} {rs : List Record} (h : Grows t t' rs) :
    recordsOf t'.rows = recordsOf t.rows ++ rs := by
  obtain ⟨new, hrows, -, hrs⟩ := h.rows
  rw [hrows, recordsOf_append, hrs]

theorem Grows.divide {t t' : CacheTable} {rs : List Record} (h : Grows t t' rs) {ids : List Nat}
    (hids : ∀ i ∈ ids, i < t.nextId) :
    t'.rows.filter (·.id ∈ ids) = t.rows.filter (·.id ∈ ids) ∧
      recordsOf (t'.rows.filter (·.id ∉ ids)) = recordsOf (t.rows.filter (·.id ∉ ids)) ++ rs := by
  obtain ⟨new, hrows, hnew, hrs⟩ := h.rows
  have hout : ∀ r ∈ new, r.id ∉ ids := by
    intro r hr hi
    exact Nat.not_lt.2 (hnew r hr) (hids r.id hi)
  have hin : new.filter (·.id ∈ ids) = [] :=
    List.filter_eq_nil_iff.2 fun r hr => by simpa using hout r hr
  have hall : new.filter (·.id ∉ ids) = new :=
    List.filter_eq_self.2 fun r hr => by simpa using hout r hr
  constructor
  · rw [hrows, List.filter_append, hin, List.append_nil]
  · rw [hrows, List.filter_append, hall, recordsOf_append, hrs]

end CacheTable

namespace Cache

variable {c : Cache} {t : CacheTable}

theorem exists_store (hc : c.table = some t) {rs : List Record}
    (hrs : ∀ r ∈ rs, r.cost ≤ maxRecordCost) (hroom : rs ≠ [] → t.size + totalCost rs ≤ c.limit) :
    ∃ n t', c.store rs = .ok (n, { c with table := some t' }) ∧ t.Grows t' rs := by
  rw [store]
  cases rs with
  | nil =>
    refine ⟨0, t, ?_, .refl t⟩
    rw [← hc]
    rfl
  | cons r rs =>
    have hfit := fitting_of_le (hroom (List.cons_ne_nil r rs))
    have hgrows := t.grows_insertAll hrs
    simp only [List.isEmpty_cons, Bool.false_eq_true, if_false, hc, hfit]
    exact ⟨_, _, rfl, hgrows⟩

theorem load_eq (hc : c.table = some t) (ht : t.Sound) (limit : Option Nat) :
    ∃ front rest, t.rows = front ++ rest ∧ Halts limit 0 front rest ∧
      c.load limit = .ok (front.filterMap CacheRow.cached?,
        { c with table := some ⟨front.filter (·.record?.isSome) ++ rest, t.nextId⟩ }) := by
  obtain ⟨front, rest, hrows, hhalts, hrecords, hcorrupt⟩ := exists_scan limit 0 t.rows
  have hheld : (fun r : CacheRow => !r.record?.isNone) = (·.record?.isSome) := by
    funext r
    cases r.record? <;> rfl
  refine ⟨front, rest, hrows, hhalts, ?_⟩
  rw [load, hc]
  dsimp only
  rw [hrecords, hcorrupt, ht.delete_of_front hrows, hheld]

/-- A load leaves all records where they are, and the rows that it names hold what it returns. -/
theorem exists_load (hc : c.table = some t) (ht : t.Sound) (limit : Option Nat) :
    ∃ cached t', c.load limit = .ok (cached, { c with table := some t' }) ∧ t'.Sound ∧
      recordsOf t'.rows = recordsOf t.rows ∧
      (∀ i ∈ cached.map Cached.id, i < t'.nextId) ∧
      recordsOf (t'.rows.filter (·.id ∈ cached.map Cached.id)) = cached.map Cached.record := by
  obtain ⟨front, rest, hrows, -, hload⟩ := load_eq hc ht limit
  have hsub : (front.filter (·.record?.isSome) ++ rest).Sublist t.rows := by
    rw [hrows]
    exact List.filter_sublist.append_right rest
  have hsame : recordsOf (front.filter (·.record?.isSome)) = recordsOf front :=
    recordsOf_filter fun r _ hr => by simpa using hr
  have hsound := ht.thin hsub
  refine ⟨_, _, hload, hsound, ?_, fun i hi => ?_, ?_⟩
  · rw [recordsOf_append, hsame, hrows, recordsOf_append]
  · rw [map_id_cached] at hi
    obtain ⟨r, hr, rfl⟩ := List.mem_map.1 hi
    exact hsound.fresh r (List.mem_append_left rest hr)
  · rw [map_id_cached, map_record_cached, (hsound.filter_front rfl).1]
    exact hsame

theorem exists_remove (hc : c.table = some t) (ids : List Nat) :
    ∃ c', c.remove ids = .ok c' ∧ c'.table = some (t.delete ids) := by
  rw [remove]
  cases ids with
  | nil =>
    have hall : t.delete [] = t := by
      rw [CacheTable.delete, List.filter_eq_self.2 fun r _ => by simp]
    exact ⟨c, rfl, by rw [hall]; exact hc⟩
  | cons i ids =>
    simp only [List.isEmpty_cons, Bool.false_eq_true, if_false, hc]
    exact ⟨_, rfl, rfl⟩

end Cache

end Telemetry.Event
