import Telemetry.Proofs.Event.Selection

namespace Telemetry.Event

/-- `kept` is the longest run from the front of `rs` with room below a limit of which so much is
used. -/
structure Fills (limit used : Nat) (rs kept : List Record) : Prop where
  front : kept <+: rs
  room : kept ≠ [] → used + totalCost kept ≤ limit
  longest : ∀ run, run <+: rs → used + totalCost run ≤ limit → run <+: kept

theorem fills_fitting (limit used : Nat) (rs : List Record) :
    Fills limit used rs (fitting (some limit) used rs) := by
  have hf := filled_frontWithin Record.cost (some limit) used rs
  rw [← fitting_eq_frontWithin] at hf
  refine ⟨hf.front, fun hne => hf.room hne limit rfl, fun run hrun hcost => ?_⟩
  refine hf.longest run hrun fun l hl => ?_
  cases hl
  exact hcost

namespace Buffer

variable {b : Buffer}

structure Sound (b : Buffer) : Prop where
  total : b.bytes = totalCost b.records
  within : b.bytes ≤ b.limit
  small : b.Small

theorem sound_empty (limit : Nat) : (empty limit).Sound :=
  ⟨rfl, Nat.zero_le _, small_empty limit⟩

theorem Sound.push (h : b.Sound) (r : Record) : (b.push r).Sound := by
  refine ⟨?_, ?_, small_push h.small r⟩
  · rw [Buffer.push]
    split
    · simp only [totalCost, sumOf_append, sumOf_cons, sumOf_nil, h.total, Nat.add_zero]
    · exact h.total
  · rw [Buffer.push]
    split
    · next ha =>
      rw [accepts, decide_eq_true_eq] at ha
      exact ha.2
    · exact h.within

theorem bytes_take (h : b.bytes = totalCost b.records) (limit : Option Nat) :
    (b.take limit).2.bytes = totalCost (b.take limit).2.records := by
  have hsplit := congrArg totalCost (b.take_append limit)
  rw [totalCost, sumOf_append] at hsplit
  change b.bytes - totalCost (b.take limit).1 = _
  rw [h, ← hsplit, totalCost, totalCost]
  omega

theorem Sound.take (h : b.Sound) (limit : Option Nat) : (b.take limit).2.Sound :=
  ⟨bytes_take h.total limit, Nat.le_trans (Nat.sub_le _ _) h.within, (small_take h.small limit).2⟩

theorem sound_clear (b : Buffer) : b.clear.Sound := ⟨rfl, Nat.zero_le _, small_empty b.limit⟩

theorem Sound.take_none (h : b.Sound) : (b.take none).2 = b.clear := by
  have hleft := b.take_none.2
  have htotal := (h.take none).total
  rw [hleft] at htotal
  change (⟨b.limit, (b.take none).2.records, (b.take none).2.bytes⟩ : Buffer) = _
  rw [hleft, htotal]
  rfl

end Buffer

namespace CacheTable

theorem rows_insertAll (t : CacheTable) {rs : List Record}
    (hrs : ∀ r ∈ rs, r.cost ≤ maxRecordCost) :
    ∃ new, (rs.foldl (fun t r => t.insert r.encode) t).rows = t.rows ++ new ∧
      new.map CacheRow.record? = rs.map some := by
  rw [insertAll_eq]
  exact ⟨numbered t.nextId rs, rfl, map_record?_numbered t.nextId hrs⟩

theorem exists_insertAll (t : CacheTable) (rs : List Record) :
    ∃ new, (rs.foldl (fun t r => t.insert r.encode) t).rows = t.rows ++ new ∧
      (∀ r ∈ new, t.nextId ≤ r.id ∧ ∃ e ∈ rs, r.blob = e.encode) ∧
      t.nextId ≤ (rs.foldl (fun t r => t.insert r.encode) t).nextId := by
  rw [insertAll_eq]
  refine ⟨numbered t.nextId rs, rfl, fun r hr => ?_, Nat.le_add_right _ _⟩
  obtain ⟨i, e, he, rfl⟩ := mem_numbered.1 hr
  exact ⟨Nat.le_add_right _ _, e, List.mem_of_getElem? he, rfl⟩

theorem sound_emptied (t : CacheTable) : Sound { t with rows := [] } :=
  ⟨List.nodup_nil, fun _ h => nomatch h⟩

def saved (limit : Nat) (t : CacheTable) (rs : List Record) : CacheTable :=
  (fitting (some limit) t.size rs).foldl (fun t r => t.insert r.encode) t

end CacheTable

namespace Cache

variable {c c' : Cache}

theorem store_eq {t : CacheTable} (hc : c.table = some t) (rs : List Record) :
    c.store rs = .ok ((fitting (some c.limit) t.size rs).length,
      { c with table := some (t.saved c.limit rs) }) := by
  rw [store]
  cases rs with
  | nil =>
    change Except.ok (0, c) = .ok (0, { c with table := some t })
    rw [← hc]
  | cons r rs =>
    rw [hc]
    rfl

theorem store_eq_error_iff {rs : List Record} :
    (∃ e, c.store rs = .error e) ↔ rs ≠ [] ∧ c.table = none := by
  rw [store]
  cases rs with
  | nil => simp
  | cons r rs => cases c.table <;> simp

def Sound (c : Cache) : Prop := ∀ t, c.table = some t → t.Sound

theorem sound_some {t : CacheTable} (h : t.Sound) (limit : Nat) (prepared : Bool) :
    Sound ⟨limit, some t, prepared⟩ := fun _ ht => Option.some.inj ht ▸ h

theorem Sound.store (h : c.Sound) {rs : List Record} {n : Nat} (hs : c.store rs = .ok (n, c')) :
    c'.Sound := by
  rw [Cache.store] at hs
  split at hs
  · cases hs
    exact h
  · split at hs
    · cases hs
    · next t ht =>
      cases hs
      exact sound_some ((h t ht).insertAll _) _ _

theorem Sound.load (h : c.Sound) {limit : Option Nat} {cached : List Cached}
    (hl : c.load limit = .ok (cached, c')) : c'.Sound := by
  rw [Cache.load] at hl
  split at hl
  · cases hl
  · next t ht =>
    cases hl
    exact sound_some ((h t ht).delete _) _ _

theorem Sound.remove (h : c.Sound) {ids : List Nat} (hr : c.remove ids = .ok c') : c'.Sound := by
  rw [Cache.remove] at hr
  split at hr
  · cases hr
    exact h
  · split at hr
    · cases hr
    · next t ht =>
      cases hr
      exact sound_some ((h t ht).delete _) _ _

theorem Sound.clear (h : c.Sound) : (c.clear.toOption.getD c).Sound := by
  rw [Cache.clear]
  split
  · exact h
  · next t _ => exact sound_some t.sound_emptied _ _

theorem sound_broken (c : Cache) : c.broken.Sound := fun _ h => nomatch h

theorem sound_opened (limit : Nat) {table : Option CacheTable} (h : ∀ t, table = some t → t.Sound) :
    (opened limit table).Sound := by
  cases table with
  | none => exact sound_some CacheTable.sound_empty _ _
  | some t => exact sound_some (h t rfl) _ _

end Cache

end Telemetry.Event
