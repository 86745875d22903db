import Telemetry.Proofs.Event.Custody

namespace Telemetry.Event

section Longest

variable {α : Type} (measure : α → Nat) (limit : Option Nat)

def frontWithin (used : Nat) : List α → List α
  | [] => []
  | x :: xs =>
    if limit.all (used + measure x ≤ ·) then x :: frontWithin (used + measure x) xs else []

structure Filled (used : Nat) (xs kept : List α) : Prop where
  front : kept <+: xs
  room : kept ≠ [] → Within limit (used + sumOf measure kept)
  longest : ∀ run, run <+: xs → Within limit (used + sumOf measure run) → run <+: kept

/-- `kept` is the longest run from the front of `xs` within a limit. -/
structure Longest (xs kept : List α) : Prop where
  front : kept <+: xs
  within : Within limit (sumOf measure kept)
  longest : ∀ run, run <+: xs → Within limit (sumOf measure run) → run <+: kept

variable {measure limit}

variable (measure limit) in
theorem filled_frontWithin (used : Nat) (xs : List α) :
    Filled measure limit used xs (frontWithin measure limit used xs) := by
  induction xs generalizing used with
  | nil => exact ⟨List.prefix_rfl, fun h => absurd rfl h, fun _ hrun _ => hrun⟩
  | cons x xs ih =>
    have hrest := ih (used + measure x)
    rw [frontWithin]
    by_cases hx : Within limit (used + measure x)
    · rw [if_pos (all_le_iff.2 hx)]
      refine ⟨(List.prefix_cons_inj x).2 hrest.front, fun _ => ?_, fun run hrun hsize => ?_⟩
      · rw [sumOf_cons, ← Nat.add_assoc]
        cases hkept : frontWithin measure limit (used + measure x) xs with
        | nil => exact hx
        | cons y ys => exact hkept ▸ hrest.room (by simp [hkept])
      · cases run with
        | nil => exact List.nil_prefix
        | cons y ys =>
          obtain ⟨rfl, hys⟩ := List.cons_prefix_cons.1 hrun
          rw [sumOf_cons, ← Nat.add_assoc] at hsize
          exact (List.prefix_cons_inj y).2 (hrest.longest ys hys hsize)
    · rw [if_neg fun h => hx (all_le_iff.1 h)]
      refine ⟨List.nil_prefix, fun h => absurd rfl h, fun run hrun hsize => ?_⟩
      cases run with
      | nil => exact List.nil_prefix
      | cons y ys =>
        obtain ⟨rfl, -⟩ := List.cons_prefix_cons.1 hrun
        rw [sumOf_cons] at hsize
        exact absurd (hsize.mono (by omega)) hx

theorem longest_frontWithin (xs : List α) :
    Longest measure limit xs (frontWithin measure limit 0 xs) := by
  obtain ⟨hfront, hroom, hlongest⟩ := filled_frontWithin measure limit 0 xs
  refine ⟨hfront, ?_, fun run hrun hsize => hlongest run hrun (by rw [Nat.zero_add]; exact hsize)⟩
  cases hkept : frontWithin measure limit 0 xs with
  | nil => exact fun _ _ => Nat.zero_le _
  | cons y ys =>
    rw [hkept, Nat.zero_add] at hroom
    exact hroom (List.cons_ne_nil y ys)

theorem Longest.eq_of_none {xs kept : List α} (h : Longest measure none xs kept) : kept = xs :=
  h.front.eq_of_length_le (h.longest xs List.prefix_rfl fun _ hl => (nomatch hl)).length_le

end Longest

theorem fitting_eq_frontWithin (limit : Option Nat) (used : Nat) (rs : List Record) :
    fitting limit used rs = frontWithin Record.cost limit used rs := by
  induction rs generalizing used with
  | nil => rfl
  | cons r rs ih => rw [fitting, frontWithin, ih]

theorem Buffer.longest_take (b : Buffer) (limit : Option Nat) :
    Longest Record.cost limit b.records (b.take limit).1 := by
  change Longest Record.cost limit b.records (fitting limit 0 b.records)
  rw [fitting_eq_frontWithin]
  exact longest_frontWithin b.records

/-- Every row holds a record. -/
def Readable (rows : List CacheRow) : Prop := ∀ r ∈ rows, ∃ e, r.record? = some e

theorem readable_cons {r : CacheRow} {rows : List CacheRow} :
    Readable (r :: rows) ↔ (∃ e, r.record? = some e) ∧ Readable rows := List.forall_mem_cons

theorem weight_of_readable {rows : List CacheRow} (h : Readable rows) :
    sumOf CacheRow.weight rows = sumOf CacheRow.size rows := by
  induction rows with
  | nil => rfl
  | cons r rows ih =>
    obtain ⟨⟨e, he⟩, hrows⟩ := readable_cons.1 h
    rw [sumOf_cons, sumOf_cons, ih hrows, CacheRow.weight, he]
    rfl

theorem Halts.longest {limit : Option Nat} {front rest : List CacheRow} (h : Halts limit 0 front rest)
    (hr : Readable front) : Longest CacheRow.size limit (front ++ rest) front := by
  have hweight := weight_of_readable hr
  refine ⟨List.prefix_append front rest, by rw [← hweight]; exact h.within, fun run hrun hsize => ?_⟩
  rcases List.prefix_or_prefix_of_prefix hrun (List.prefix_append front rest) with hle | ⟨more, rfl⟩
  · exact hle
  · cases more with
    | nil => simp
    | cons r more =>
      obtain ⟨tail, rfl⟩ := (List.prefix_append_right_inj front).1 hrun
      refine absurd (hsize.mono ?_) (h.stops r rfl)
      rw [sumOf_append, sumOf_cons, hweight]
      omega

/-- Every row is the encoding of a record that is not too large. -/
def Encoded (rows : List CacheRow) : Prop :=
  ∀ r ∈ rows, ∃ e : Record, r.blob = e.encode ∧ e.cost ≤ maxRecordCost

theorem Encoded.sublist {rows rows' : List CacheRow} (h : Encoded rows) (hs : rows'.Sublist rows) :
    Encoded rows' := fun r hr => h r (hs.mem hr)

theorem Encoded.append {rows rows' : List CacheRow} (h : Encoded rows) (h' : Encoded rows') :
    Encoded (rows ++ rows') := List.forall_mem_append.2 ⟨h, h'⟩

theorem Encoded.readable {rows : List CacheRow} (h : Encoded rows) : Readable rows := by
  intro r hr
  obtain ⟨e, hb, he⟩ := h r hr
  exact ⟨e, record?_of_encode hb he⟩

theorem Encoded.size_eq {rows : List CacheRow} (h : Encoded rows) :
    sumOf CacheRow.size rows = totalCost (recordsOf rows) := by
  induction rows with
  | nil => rfl
  | cons r rows ih =>
    obtain ⟨hr, hrows⟩ := List.forall_mem_cons.1 h
    obtain ⟨e, hb, he⟩ := hr
    have hsize : r.size = e.cost := by rw [CacheRow.size, hb, Record.length_encode]
    rw [recordsOf, List.filterMap_cons_some (record?_of_encode hb he), totalCost, sumOf_cons,
      sumOf_cons, hsize, ih hrows]
    rfl

theorem Cache.load_of_readable {c : Cache} {t : CacheTable} (hc : c.table = some t)
    (h : Readable t.rows) (limit : Option Nat) :
    ∃ cached front, c.load limit = .ok (cached, c) ∧
      Longest CacheRow.size limit t.rows front ∧ cached.map Cached.id = front.map CacheRow.id ∧
      cached.map Cached.record = recordsOf front ∧
      sumOf Cached.cost cached = sumOf CacheRow.size front := by
  obtain ⟨front, rest, hrows, hhalts, hrecords, hcorrupt⟩ := exists_scan limit 0 t.rows
  have hfront : Readable front := fun r hr => h r (hrows ▸ List.mem_append_left rest hr)
  have hall : front.filter (·.record?.isSome) = front :=
    List.filter_eq_self.2 fun r hr => Option.isSome_iff_exists.2 (hfront r hr)
  have hnone : front.filter (·.record?.isNone) = [] :=
    List.filter_eq_nil_iff.2 fun r hr => by
      obtain ⟨e, he⟩ := hfront r hr
      simp [he]
  refine ⟨front.filterMap CacheRow.cached?, front, ?_, ?_, ?_, map_record_cached front, ?_⟩
  · have hsame : t.delete [] = t := by
      rw [CacheTable.delete, List.filter_eq_self.2 fun r _ => by simp]
    rw [load, hc]
    dsimp only
    rw [hrecords, hcorrupt, hnone, List.map_nil, hsame, ← hc]
  · rw [hrows]
    exact hhalts.longest hfront
  · rw [map_id_cached, hall]
  · rw [sumOf_cost_cached, weight_of_readable hfront]

end Telemetry.Event
