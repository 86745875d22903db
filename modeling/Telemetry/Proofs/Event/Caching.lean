import Telemetry.Proofs.Event.Stock

namespace Telemetry.Event

open Codec

namespace CacheTable

/-- The numbers of the rows grow, and the next one is larger. -/
structure Ascending (t : CacheTable) : Prop where
  grows : (t.rows.map CacheRow.id).Pairwise (· < ·)
  fresh : ∀ r ∈ t.rows, r.id < t.nextId

variable {t t' : CacheTable}

theorem Ascending.sound (h : t.Ascending) : t.Sound := ⟨h.grows.imp Nat.ne_of_lt, h.fresh⟩

theorem Ascending.thin (h : t.Ascending) {rows : List CacheRow} (hs : rows.Sublist t.rows) :
    Ascending ⟨rows, t.nextId⟩ :=
  ⟨h.grows.sublist (hs.map CacheRow.id), fun r hr => h.fresh r (hs.mem hr)⟩

theorem Ascending.extend (h : t.Ascending) (es : List Record) : (t.extend es).Ascending := by
  refine ⟨?_, fresh_extend h.fresh es⟩
  rw [CacheTable.extend, List.map_append, map_id_numbered, List.pairwise_append]
  refine ⟨h.grows, List.pairwise_lt_range', fun i hi j hj => ?_⟩
  obtain ⟨r, hr, rfl⟩ := List.mem_map.1 hi
  exact Nat.lt_of_lt_of_le (h.fresh r hr) (List.mem_range'_1.1 hj).1

/-- A number that is given out in the one table names in the other what it named there, or nothing. -/
structure Precedes (t t' : CacheTable) : Prop where
  next : t.nextId ≤ t'.nextId
  rows : ∀ r ∈ t'.rows, r.id < t.nextId → r ∈ t.rows

theorem Precedes.refl (t : CacheTable) : t.Precedes t := ⟨Nat.le_refl _, fun _ hr _ => hr⟩

theorem Precedes.trans {t'' : CacheTable} (h : t.Precedes t') (h' : t'.Precedes t'') :
    t.Precedes t'' :=
  ⟨Nat.le_trans h.next h'.next, fun r hr hlt =>
    h.rows r (h'.rows r hr (Nat.lt_of_lt_of_le hlt h.next)) hlt⟩

theorem precedes_thin {rows : List CacheRow} (hs : rows.Sublist t.rows) :
    t.Precedes ⟨rows, t.nextId⟩ := ⟨Nat.le_refl _, fun _ hr _ => hs.mem hr⟩

theorem precedes_extend (t : CacheTable) (es : List Record) : t.Precedes (t.extend es) := by
  refine ⟨Nat.le_add_right _ _, fun r hr hlt => ?_⟩
  rcases List.mem_append.1 hr with hr | hr
  · exact hr
  · obtain ⟨i, e, -, rfl⟩ := mem_numbered.1 hr
    exact absurd hlt (Nat.not_lt.2 (Nat.le_add_right _ _))

theorem map_blob_numbered (n : Nat) (es : List Record) :
    (numbered n es).map CacheRow.blob = es.map Record.encode := by
  induction es generalizing n with
  | nil => rfl
  | cons e es ih => rw [numbered, List.map_cons, List.map_cons, ih]

theorem map_size_numbered (n : Nat) (es : List Record) :
    (numbered n es).map CacheRow.size = es.map Record.cost := by
  have hblobs := congrArg (List.map List.length) (map_blob_numbered n es)
  have hcost : List.length ∘ Record.encode = Record.cost := funext Record.length_encode
  rw [List.map_map, List.map_map, hcost] at hblobs
  exact hblobs

theorem size_extend (t : CacheTable) (es : List Record) :
    (t.extend es).size = t.size + totalCost es := by
  have hrows := congrArg (sumOf id) (map_size_numbered t.nextId es)
  rw [sumOf_map, sumOf_map] at hrows
  rw [size, extend, sumOf_append]
  exact congrArg (t.size + ·) hrows

end CacheTable

namespace Cache

/-- What is asked of a cache. -/
inductive Operation
  | store (records : List Record)
  | load (limit : Option Nat)
  | remove (ids : List Nat)
  | clear
  deriving DecidableEq, Repr

def perform (c : Cache) : Operation → Cache
  | .store rs => (c.store rs).toOption.elim c Prod.snd
  | .load limit => (c.load limit).toOption.elim c Prod.snd
  | .remove ids => (c.remove ids).toOption.getD c
  | .clear => c.clear.toOption.getD c

def run (c : Cache) (ops : List Operation) : Cache := ops.foldl perform c

/-- The cache has a table in order, and its rows are within the limit. -/
structure InOrder (c : Cache) (t : CacheTable) : Prop where
  table : c.table = some t
  ascending : t.Ascending
  within : t.size ≤ c.limit

/-- What a store appends: so many records from the front as there is room for. -/
structure Stores (c : Cache) (t : CacheTable) (rs : List Record) (n : Nat) (c' : Cache) : Prop where
  result : c.store rs = .ok (n, c')
  count : (rs.take n).length = n
  longest : Fills c.limit t.size rs (rs.take n)
  table : c'.table = some (t.extend (rs.take n))
  limit : c'.limit = c.limit

/-- What a load returns and what it leaves: the rows that it passes give their records, or are deleted if
they hold none. -/
structure Loads (c : Cache) (t : CacheTable) (limit : Option Nat) (cached : List Cached) (c' : Cache)
    (front rest : List CacheRow) : Prop where
  result : c.load limit = .ok (cached, c')
  rows : t.rows = front ++ rest
  halts : Halts limit 0 front rest
  cached : cached = front.filterMap CacheRow.cached?
  table : c'.table = some ⟨front.filter (·.record?.isSome) ++ rest, t.nextId⟩
  limit : c'.limit = c.limit

variable {c : Cache} {t : CacheTable}

theorem exists_stores (hc : c.table = some t) (rs : List Record) : ∃ n c', Stores c t rs n c' := by
  have hfills := fills_fitting c.limit t.size rs
  have htake : rs.take (fitting (some c.limit) t.size rs).length =
      fitting (some c.limit) t.size rs := (List.prefix_iff_eq_take.1 hfills.front).symm
  refine ⟨_, _, store_eq hc rs, by rw [htake], by rw [htake]; exact hfills, ?_, rfl⟩
  rw [htake, ← CacheTable.insertAll_eq]
  rfl

theorem exists_loads (hc : c.table = some t) (ht : t.Ascending) (limit : Option Nat) :
    ∃ cached c' front rest, Loads c t limit cached c' front rest := by
  obtain ⟨front, rest, hrows, hhalts, hload⟩ := load_eq hc ht.sound limit
  exact ⟨_, _, front, rest, hload, hrows, hhalts, rfl, rfl, rfl⟩

theorem exists_removes (hc : c.table = some t) (ids : List Nat) :
    ∃ c', c.remove ids = .ok c' ∧ c'.table = some (t.delete ids) ∧ c'.limit = c.limit := by
  obtain ⟨c', hremove, htable⟩ := exists_remove hc ids
  refine ⟨c', hremove, htable, ?_⟩
  rw [remove, hc] at hremove
  split at hremove <;> cases hremove <;> rfl

theorem exists_clears (hc : c.table = some t) :
    ∃ c', c.clear = .ok c' ∧ c'.table = some ⟨[], t.nextId⟩ ∧ c'.limit = c.limit :=
  ⟨{ c with table := some { t with rows := [] } }, by rw [clear, hc], rfl, rfl⟩

theorem InOrder.thin (h : c.InOrder t) {c' : Cache} {rows : List CacheRow}
    (hs : rows.Sublist t.rows) (hc : c'.table = some ⟨rows, t.nextId⟩) (hl : c'.limit = c.limit) :
    c'.InOrder ⟨rows, t.nextId⟩ := by
  refine ⟨hc, h.ascending.thin hs, ?_⟩
  rw [hl]
  exact Nat.le_trans (sumOf_le_of_sublist _ hs) h.within

theorem InOrder.stores (h : c.InOrder t) {rs : List Record} {n : Nat} {c' : Cache}
    (hs : Stores c t rs n c') : c'.InOrder (t.extend (rs.take n)) := by
  refine ⟨hs.table, h.ascending.extend _, ?_⟩
  rw [CacheTable.size_extend, hs.limit]
  by_cases hnone : rs.take n = []
  · rw [hnone]
    exact h.within
  · exact hs.longest.room hnone

theorem InOrder.loads (h : c.InOrder t) {limit : Option Nat} {cached : List Cached} {c' : Cache}
    {front rest : List CacheRow} (hl : Loads c t limit cached c' front rest) :
    c'.InOrder ⟨front.filter (·.record?.isSome) ++ rest, t.nextId⟩ ∧
      t.Precedes ⟨front.filter (·.record?.isSome) ++ rest, t.nextId⟩ := by
  have hsub : (front.filter (·.record?.isSome) ++ rest).Sublist t.rows := by
    rw [hl.rows]
    exact List.filter_sublist.append_right rest
  exact ⟨h.thin hsub hl.table hl.limit, CacheTable.precedes_thin hsub⟩

theorem InOrder.perform (h : c.InOrder t) (op : Operation) :
    ∃ t', (c.perform op).InOrder t' ∧ t.Precedes t' ∧ (c.perform op).limit = c.limit := by
  cases op with
  | store rs =>
    obtain ⟨n, c', hs⟩ := exists_stores h.table rs
    rw [Cache.perform, hs.result]
    exact ⟨_, h.stores hs, t.precedes_extend _, hs.limit⟩
  | load limit =>
    obtain ⟨cached, c', front, rest, hl⟩ := exists_loads h.table h.ascending limit
    obtain ⟨hc', hprecedes⟩ := h.loads hl
    rw [Cache.perform, hl.result]
    exact ⟨_, hc', hprecedes, hl.limit⟩
  | remove ids =>
    obtain ⟨c', hremove, htable, hlimit⟩ := exists_removes h.table ids
    rw [Cache.perform, hremove]
    exact ⟨_, h.thin List.filter_sublist htable hlimit, CacheTable.precedes_thin List.filter_sublist,
      hlimit⟩
  | clear =>
    obtain ⟨c', hclear, htable, hlimit⟩ := exists_clears h.table
    rw [Cache.perform, hclear]
    exact ⟨_, h.thin (List.nil_sublist _) htable hlimit,
      CacheTable.precedes_thin (List.nil_sublist _), hlimit⟩

theorem InOrder.run (h : c.InOrder t) (ops : List Operation) :
    ∃ t', (c.run ops).InOrder t' ∧ t.Precedes t' ∧ (c.run ops).limit = c.limit := by
  induction ops generalizing c t with
  | nil => exact ⟨t, h, .refl t, rfl⟩
  | cons op ops ih =>
    obtain ⟨t₁, h₁, hprecedes, hlimit⟩ := h.perform op
    obtain ⟨t₂, h₂, hprecedes', hlimit'⟩ := ih h₁
    exact ⟨t₂, h₂, hprecedes.trans hprecedes', hlimit'.trans hlimit⟩

theorem Stores.cached? {rs : List Record} {n : Nat} {c' : Cache} (hs : Stores c t rs n c')
    (ht : t.Ascending) (hlimit : c.limit < capacity 8) {t' : CacheTable}
    (hp : (t.extend (rs.take n)).Precedes t') {r : CacheRow} (hr : r ∈ t'.rows) {i : Nat} (hi : i < n)
    (hid : r.id = t.nextId + i) : r.cached? = rs[i]?.map fun e => ⟨r.id, e, e.cost⟩ := by
  have hgiven : r.id < (t.extend (rs.take n)).nextId := by
    rw [hid, CacheTable.extend, hs.count]
    exact Nat.add_lt_add_left hi _
  rcases List.mem_append.1 (hp.rows r hr hgiven) with hold | hnew
  · have hlt := ht.fresh r hold
    omega
  · obtain ⟨j, e, he, rfl⟩ := CacheTable.mem_numbered.1 hnew
    obtain rfl : j = i := Nat.add_left_cancel hid
    have hmem : e ∈ rs.take n := List.mem_of_getElem? he
    rw [List.getElem?_take_of_lt hi] at he
    have hroom := hs.longest.room (List.ne_nil_of_mem hmem)
    have hcost : e.cost ≤ totalCost (rs.take n) := le_sumOf Record.cost hmem
    have hdecode : Record.decoder.decode e.encode = .ok e := Record.decode_encode (by omega)
    simp [CacheRow.cached?, CacheRow.record?, CacheRow.size, hdecode, he, Record.length_encode,
      Except.toOption]

theorem Loads.spares {limit : Option Nat} {cached : List Cached} {c' : Cache}
    {front rest : List CacheRow} (hl : Loads c t limit cached c' front rest) (h : c.InOrder t)
    {t' : CacheTable} (hp : t.Precedes t') {r : CacheRow} (hr : r ∈ t'.rows) :
    r ∈ t.rows ∨ r ∈ (t'.delete (cached.map Cached.id)).rows := by
  by_cases hlt : r.id < t.nextId
  · exact .inl (hp.rows r hr hlt)
  · refine .inr (List.mem_filter.2 ⟨hr, decide_eq_true fun hmem => ?_⟩)
    rw [hl.cached, map_id_cached] at hmem
    obtain ⟨x, hx, hid⟩ := List.mem_map.1 hmem
    have hold : x ∈ t.rows := by
      rw [hl.rows]
      exact List.mem_append_left rest (List.mem_of_mem_filter hx)
    have hfresh := h.ascending.fresh x hold
    omega

/-- What the operations do on a cache with a table in order, and what follows however it is used after
them. -/
structure Serves (c : Cache) (t : CacheTable) : Prop where
  /-- A store appends what there is room for; as long as a row of it is there it holds its record. -/
  store : ∀ rs, ∃ n c', Stores c t rs n c' ∧ ∀ ops t', (c'.run ops).table = some t' →
    ∀ r ∈ t'.rows, ∀ i < n, r.id = t.nextId + i →
      r.cached? = rs[i]?.map fun e => ⟨r.id, e, e.cost⟩
  /-- A load returns what it passes; what it returns is removed without a row that came later. -/
  load : ∀ limit, ∃ cached c' front rest, Loads c t limit cached c' front rest ∧
    ∀ ops t', (c'.run ops).table = some t' →
      ∃ c'', (c'.run ops).remove (cached.map Cached.id) = .ok c'' ∧
        c''.table = some (t'.delete (cached.map Cached.id)) ∧
        ∀ r ∈ t'.rows, r ∈ t.rows ∨ r ∈ (t'.delete (cached.map Cached.id)).rows
  remove : ∀ ids, ∃ c', c.remove ids = .ok c' ∧ c'.table = some (t.delete ids)
  clear : ∃ c', c.clear = .ok c' ∧ c'.table = some ⟨[], t.nextId⟩
  later : ∀ ops, ∃ t', (c.run ops).InOrder t' ∧ t.Precedes t'

theorem InOrder.table_run (h : c.InOrder t) {ops : List Operation} {t' : CacheTable}
    (ht : (c.run ops).table = some t') : t.Precedes t' := by
  obtain ⟨t₁, h₁, hprecedes, -⟩ := h.run ops
  rw [h₁.table] at ht
  cases ht
  exact hprecedes

theorem InOrder.serves (h : c.InOrder t) (hlimit : c.limit < capacity 8) : c.Serves t := by
  refine ⟨fun rs => ?_, fun limit => ?_, fun ids => ?_, ?_, fun ops => ?_⟩
  · obtain ⟨n, c', hs⟩ := exists_stores h.table rs
    refine ⟨n, c', hs, fun ops t' ht' r hr i hi hid => ?_⟩
    exact hs.cached? h.ascending hlimit ((h.stores hs).table_run ht') hr hi hid
  · obtain ⟨cached, c', front, rest, hl⟩ := exists_loads h.table h.ascending limit
    obtain ⟨hc', hprecedes⟩ := h.loads hl
    refine ⟨cached, c', front, rest, hl, fun ops t' ht' => ?_⟩
    obtain ⟨c'', hremove, htable, -⟩ := exists_removes ht' (cached.map Cached.id)
    exact ⟨c'', hremove, htable, fun r hr => hl.spares h (hprecedes.trans (hc'.table_run ht')) hr⟩
  · obtain ⟨c', hremove, htable, -⟩ := exists_removes h.table ids
    exact ⟨c', hremove, htable⟩
  · obtain ⟨c', hclear, htable, -⟩ := exists_clears h.table
    exact ⟨c', hclear, htable⟩
  · obtain ⟨t', ht', hprecedes, -⟩ := h.run ops
    exact ⟨t', ht', hprecedes⟩

/-- However a cache is used, its rows stay in order and within the limit, and at any time a store appends
what there is room for, a load returns what it passes of it and deletes what holds no record, and the
numbers that were given out stay with their rows. -/
theorem stays_in_order (h : c.InOrder t) (hlimit : c.limit < capacity 8) (ops : List Operation) :
    ∃ t', (c.run ops).InOrder t' ∧ (c.run ops).limit = c.limit ∧ (c.run ops).Serves t' := by
  obtain ⟨t', ht', -, hsame⟩ := h.run ops
  rw [← hsame] at hlimit
  exact ⟨t', ht', hsame, ht'.serves hlimit⟩

def damaged : CacheTable :=
  ⟨[⟨1, (Record.singular ⟨1000, .nil, 5, none⟩).encode⟩, ⟨3, [0, 7]⟩,
    ⟨4, (Record.singular ⟨1000, .nil, 6, none⟩).encode⟩], 6⟩

def reused : List Operation :=
  [.load (some 60), .remove [1], .store [.singular ⟨1000, .nil, 7, none⟩,
    .aggregate ⟨0, .nil, 2, 8, none⟩, .singular ⟨1000, .nil, 9, none⟩], .clear,
    .store [.singular ⟨1000, .nil, 9, none⟩]]

theorem stays_in_order_damaged :
    InOrder ⟨140, some damaged, false⟩ damaged ∧ 140 < capacity 8 ∧
      ∃ t', (run ⟨140, some damaged, false⟩ reused).InOrder t' ∧
        (run ⟨140, some damaged, false⟩ reused).Serves t' ∧ t'.rows.map CacheRow.id = [8] := by
  have h : InOrder ⟨140, some damaged, false⟩ damaged :=
    ⟨rfl, ⟨by decide, by decide⟩, by decide⟩
  obtain ⟨t', ht', -, hserves⟩ := stays_in_order h (by decide) reused
  have hids : (run ⟨140, some damaged, false⟩ reused).table.map (·.rows.map CacheRow.id) =
      some [8] := by
    decide +kernel
  rw [ht'.table] at hids
  exact ⟨h, by decide, t', ht', hserves, Option.some.inj hids⟩

end Cache

end Telemetry.Event
