import Mathlib.Algebra.Group.Int.Defs
import Mathlib.Algebra.Group.Nat.Defs
import Mathlib.Data.List.Nodup
import Mathlib.Data.List.TakeWhile
import Telemetry.Proofs.Payload.Reading
import Telemetry.Proofs.Tally.Counted

namespace Telemetry

open Codec

namespace Tally

open Calendar

theorem measured_key (p : Period) (d : Date) : measured (p.key d) = (p.key d).length := by
  have hall : ∀ c ∈ p.key d, decide (c ≠ '\x00') = true := fun c hc =>
    decide_eq_true fun h => nul_not_mem_key p d (h ▸ hc)
  rw [measured, List.takeWhile_eq_self_iff.2 hall]

theorem measured_dayKey_ne_measured_monthKey (d : Date) :
    measured (dayKey d) ≠ measured (monthKey d) := by
  have hday := measured_key .day d
  have hmonth := measured_key .month d
  rw [Period.key, length_dayKey] at hday
  rw [Period.key, length_monthKey] at hmonth
  omega

theorem not_closedBefore_both (d : Date) (bucket : List Char) :
    ¬(closedBefore (dayKey d) bucket = true ∧ closedBefore (monthKey d) bucket = true) := by
  rintro ⟨hd, hm⟩
  rw [closedBefore, decide_eq_true_eq] at hd hm
  exact measured_dayKey_ne_measured_monthKey d (hd.1.symm.trans hm.1)

def Row.key (r : Row) : Key := ⟨r.bucket, r.event, r.user.toNat, r.payload.store⟩

/-- A key that increments count under: its user is one, and its payload can be read again. -/
def Key.Genuine (k : Key) : Prop :=
  ∃ (user : UInt32) (payload : Payload),
    k.user = user.toNat ∧ k.payload = payload.store ∧ k.payload.length < capacity 8

theorem Increment.genuine_dayKeyOf {i : Increment} (h : i.payload.store.length < capacity 8) :
    i.dayKeyOf.Genuine := ⟨i.user, i.payload, rfl, rfl, h⟩

theorem Increment.genuine_monthKeyOf {i : Increment} (h : i.payload.store.length < capacity 8) :
    i.monthKeyOf.Genuine := ⟨i.user, i.payload, rfl, rfl, h⟩

theorem toNat_saturate (n : Int) : (saturate n).toNat = min n.toNat (UInt32.size - 1) := by
  apply UInt32.toNat_ofNat_of_lt'
  exact Nat.lt_of_le_of_lt (Nat.min_le_right _ _) (by decide)

theorem saturate_toNat (user : UInt32) : saturate (user.toNat : Int) = user := by
  apply UInt32.toNat_inj.1
  rw [toNat_saturate, Int.toNat_natCast]
  exact Nat.min_eq_left (Nat.le_pred_of_lt user.toNat_lt)

theorem id_of_report? {s : Stored} {r : Row} (h : s.report? = some r) : r.id = s.id := by
  rw [Stored.report?] at h
  split at h
  · cases h
    rfl
  · cases h

theorem counter_of_report? {s : Stored} {r : Row} (h : s.report? = some r) :
    r.counter = saturate s.counter := by
  rw [Stored.report?] at h
  split at h
  · cases h
    rfl
  · cases h

theorem key_of_report? {s : Stored} {r : Row} (hs : s.key.Genuine) (h : s.report? = some r) :
    r.key = s.key := by
  obtain ⟨user, payload, huser, hpayload, hlength⟩ := hs
  rw [hpayload] at hlength
  have hrestore := Payload.restore_store (Payload.measured_of_length hlength)
  rw [Stored.report?, hpayload, hrestore, huser, saturate_toNat] at h
  cases h
  rw [Row.key, ← huser, ← hpayload]

namespace Table

variable {t : Table} {k : Key} {rows : List Row}

/-- Every key and every number stands for one row, and the counters can be read. -/
structure Sound (t : Table) : Prop where
  ids : (t.map Stored.id).Nodup
  keys : (t.map Stored.key).Nodup
  nonneg : ∀ k, 0 ≤ t.counter k
  fits : ∀ k, fits (t.counter k)

theorem sound_nil : Sound [] := ⟨List.nodup_nil, List.nodup_nil, fun _ => Int.le_refl 0, fun _ => rfl⟩

theorem counter_of_mem (ht : (t.map Stored.key).Nodup) {s : Stored} (hs : s ∈ t) :
    t.counter s.key = s.counter := by
  induction t with
  | nil => cases hs
  | cons a t ih =>
    rw [List.map_cons, List.nodup_cons] at ht
    rcases List.mem_cons.1 hs with rfl | hs
    · simp [counter]
    · have hne : a.key ≠ s.key := fun h => ht.1 (List.mem_map.2 ⟨s, hs, h.symm⟩)
      have hi := ih ht.2 hs
      rw [counter] at hi ⊢
      rw [List.find?_cons_of_neg (by simpa using hne)]
      exact hi

theorem counter_of_not_mem (h : k ∉ t.map Stored.key) : t.counter k = 0 := by
  have hn : t.find? (·.key = k) = none := by
    rw [List.find?_eq_none]
    intro s hs hk
    rw [decide_eq_true_eq] at hk
    exact h (List.mem_map.2 ⟨s, hs, hk⟩)
  rw [counter, hn]
  rfl

section Commit

theorem le_foldl_max (ns : List Nat) (m : Nat) :
    m ≤ ns.foldl max m ∧ ∀ n ∈ ns, n ≤ ns.foldl max m := by
  induction ns generalizing m with
  | nil => exact ⟨Nat.le_refl m, fun _ h => nomatch h⟩
  | cons a ns ih =>
    obtain ⟨hle, hall⟩ := ih (max m a)
    rw [List.foldl_cons]
    refine ⟨Nat.le_trans (Nat.le_max_left m a) hle, fun n hn => ?_⟩
    rcases List.mem_cons.1 hn with rfl | hn
    · exact Nat.le_trans (Nat.le_max_right m n) hle
    · exact hall n hn

theorem nextId_not_mem (t : Table) : t.nextId ∉ t.map Stored.id := by
  intro h
  exact Nat.lt_irrefl _ ((le_foldl_max (t.map Stored.id) 0).2 _ h)

theorem map_change (t : Table) (p : Stored → Prop) [DecidablePred p] (f : Int → Int) :
    (t.map fun s => if p s then { s with counter := f s.counter } else s).map Stored.id =
        t.map Stored.id ∧
      (t.map fun s => if p s then { s with counter := f s.counter } else s).map Stored.key =
        t.map Stored.key := by
  constructor <;>
  · rw [List.map_map]
    apply List.map_congr_left
    intro s _
    simp only [Function.comp_apply]
    split <;> rfl

theorem ids_add (ht : (t.map Stored.id).Nodup) (key : Key) (amount : Int) :
    ((t.add key amount).map Stored.id).Nodup := by
  rw [add]
  split
  · rw [(t.map_change (·.key = key) (plus · amount)).1]
    exact ht
  · rw [List.map_append, List.nodup_append]
    refine ⟨ht, by simp, ?_⟩
    rintro a ha b hb rfl
    rw [List.map_singleton, List.mem_singleton] at hb
    change a = t.nextId at hb
    exact t.nextId_not_mem (hb ▸ ha)

theorem keys_add (t : Table) (key : Key) (amount : Int) :
    (t.add key amount).map Stored.key =
      if key ∈ t.map Stored.key then t.map Stored.key else t.map Stored.key ++ [key] := by
  have hany : t.any (·.key = key) = true ↔ key ∈ t.map Stored.key := by
    rw [List.any_eq_true, List.mem_map]
    simp
  rw [add]
  by_cases hk : key ∈ t.map Stored.key
  · rw [if_pos (hany.2 hk), if_pos hk, (t.map_change (·.key = key) (plus · amount)).2]
  · rw [if_neg (fun h => hk (hany.1 h)), if_neg hk, List.map_append, List.map_singleton]

theorem nodup_keys_add (ht : (t.map Stored.key).Nodup) (key : Key) (amount : Int) :
    ((t.add key amount).map Stored.key).Nodup := by
  rw [keys_add]
  split
  · exact ht
  · next hk =>
    rw [List.nodup_append]
    refine ⟨ht, by simp, ?_⟩
    rintro a ha b hb rfl
    exact hk (List.mem_singleton.1 hb ▸ ha)

theorem exists_mem_add {s : Stored} (hs : s ∈ t) (key : Key) (amount : Int) :
    ∃ s' ∈ t.add key amount, s'.id = s.id ∧ s'.key = s.key ∧
      (s'.counter = s.counter ∨ s'.counter = plus s.counter amount) := by
  rw [add]
  split
  · refine ⟨_, List.mem_map_of_mem hs, ?_⟩
    split
    · exact ⟨rfl, rfl, .inr rfl⟩
    · exact ⟨rfl, rfl, .inl rfl⟩
  · exact ⟨s, List.mem_append_left _ hs, rfl, rfl, .inl rfl⟩

theorem commit_induction {P : Table → Prop} {is : List Increment}
    (hadd : ∀ (t : Table) (i : Increment), i ∈ is → ∀ key, key = i.dayKeyOf ∨ key = i.monthKeyOf →
      P t → P (t.add key i.amount.toNat)) (ht : P t) : P (t.commit is) := by
  induction is generalizing t with
  | nil => exact ht
  | cons i is ih =>
    refine ih (fun t j hj => hadd t j (List.mem_cons_of_mem i hj)) ?_
    have hday := hadd t i List.mem_cons_self i.dayKeyOf (.inl rfl) ht
    exact hadd _ i List.mem_cons_self i.monthKeyOf (.inr rfl) hday

theorem exists_mem_commit {s : Stored} (hs : s ∈ t) (is : List Increment) :
    ∃ s' ∈ t.commit is, s'.id = s.id ∧ s'.key = s.key ∧
      ∀ n : UInt32, (n.toNat : Int) ≤ s.counter → (n.toNat : Int) ≤ s'.counter := by
  refine commit_induction (P := fun t' => ∃ s' ∈ t', s'.id = s.id ∧ s'.key = s.key ∧
    ∀ n : UInt32, (n.toNat : Int) ≤ s.counter → (n.toNat : Int) ≤ s'.counter) ?_
    ⟨s, hs, rfl, rfl, fun _ hn => hn⟩
  rintro t' i - key - ⟨s', hs', hid, hkey, hreached⟩
  obtain ⟨s'', hs'', hid', hkey', hcounter⟩ := exists_mem_add hs' key i.amount.toNat
  refine ⟨s'', hs'', hid'.trans hid, hkey'.trans hkey, fun n hn => ?_⟩
  rcases hcounter with hsame | hmore
  · rw [hsame]
    exact hreached n hn
  · rw [hmore]
    exact le_plus (hreached n hn) i.amount

/-- Rows keep their places, numbers and keys. Those that are new stand behind them, under keys that
had none. -/
theorem rows_commit (t : Table) (is : List Increment) :
    ∃ new, (t.commit is).map (fun s => (s.id, s.key)) = t.map (fun s => (s.id, s.key)) ++ new ∧
      ∀ r ∈ new, r.2 ∉ t.map Stored.key := by
  refine commit_induction (P := fun t' => ∃ new, t'.map (fun s => (s.id, s.key)) =
    t.map (fun s => (s.id, s.key)) ++ new ∧ ∀ r ∈ new, r.2 ∉ t.map Stored.key) ?_
    ⟨[], (List.append_nil _).symm, List.forall_mem_nil _⟩
  rintro t' i - key - ⟨new, hrows, hnew⟩
  rw [add]
  split
  · refine ⟨new, ?_, hnew⟩
    rw [← hrows, List.map_map]
    apply List.map_congr_left
    intro s _
    simp only [Function.comp_apply]
    split <;> rfl
  · next hkey =>
    have hout : key ∉ t.map Stored.key := by
      intro hmem
      obtain ⟨s, hs, rfl⟩ := List.mem_map.1 hmem
      have hpair : (s.id, s.key) ∈ t'.map fun s => (s.id, s.key) := by
        rw [hrows]
        exact List.mem_append_left _ (List.mem_map_of_mem hs)
      obtain ⟨s', hs', heq⟩ := List.mem_map.1 hpair
      refine hkey (List.any_eq_true.2 ⟨s', hs', decide_eq_true ?_⟩)
      exact congrArg Prod.snd heq
    refine ⟨new ++ [(t'.nextId, key)], ?_, ?_⟩
    · rw [List.map_append, hrows, List.append_assoc]
      rfl
    · intro r hr
      rcases List.mem_append.1 hr with hr | hr
      · exact hnew r hr
      · rw [List.mem_singleton.1 hr]
        exact hout

theorem genuine_commit (ht : ∀ s ∈ t, s.key.Genuine) {is : List Increment}
    (hi : ∀ i ∈ is, i.payload.store.length < capacity 8) :
    ∀ s ∈ t.commit is, s.key.Genuine := by
  have hmap : ∀ key ∈ (t.commit is).map Stored.key, key.Genuine := by
    refine commit_induction (P := fun t' => ∀ key ∈ t'.map Stored.key, key.Genuine) ?_ ?_
    · intro t' i hmem key hkey ht' key' hkey'
      rw [keys_add] at hkey'
      have hnew : key.Genuine := by
        rcases hkey with rfl | rfl
        · exact Increment.genuine_dayKeyOf (hi i hmem)
        · exact Increment.genuine_monthKeyOf (hi i hmem)
      split at hkey'
      · exact ht' key' hkey'
      · rcases List.mem_append.1 hkey' with h | h
        · exact ht' key' h
        · rw [List.mem_singleton.1 h]
          exact hnew
    · intro key hkey
      obtain ⟨s, hs, rfl⟩ := List.mem_map.1 hkey
      exact ht s hs
  exact fun s hs => hmap s.key (List.mem_map_of_mem hs)

/-- What increments count under a key. -/
def counted (is : List Increment) (k : Key) : Nat :=
  sumOf (·.dayPart k) is + sumOf (·.monthPart k) is

theorem counted_append (is js : List Increment) (k : Key) :
    counted (is ++ js) k = counted is k + counted js k := by
  simp only [counted, sumOf_append]
  omega

theorem counted_le (is : List Increment) (k : Key) :
    counted is k ≤ 2 * sumOf (·.amount.toNat) is := by
  induction is with
  | nil => exact Nat.le_refl 0
  | cons i is ih =>
    have hday : i.dayPart k ≤ i.amount.toNat := by
      rw [Increment.dayPart]
      split
      · exact Nat.le_refl _
      · exact Nat.zero_le _
    have hmonth : i.monthPart k ≤ i.amount.toNat := by
      rw [Increment.monthPart]
      split
      · exact Nat.le_refl _
      · exact Nat.zero_le _
    simp only [counted, sumOf_cons] at ih ⊢
    omega

theorem fits_of_lt {n : Int} (h : 0 ≤ n) (hn : n < 2 ^ 63) : Tally.fits n := by
  rw [fits_iff]
  omega

theorem Sound.counter_commit (ht : t.Sound) {is : List Increment}
    (hb : t.counter k + counted is k < 2 ^ 63) :
    (t.commit is).counter k = t.counter k + counted is k := by
  have hnonneg := ht.nonneg k
  have hfits : Tally.fits (t.counter k + counted is k) := fits_of_lt (by omega) hb
  exact gains_commit t is k (ht.fits k) hfits

theorem Sound.commit (ht : t.Sound) {is : List Increment}
    (hb : ∀ k, t.counter k + counted is k < 2 ^ 63) : (t.commit is).Sound where
  ids := commit_induction (P := fun t' => (t'.map Stored.id).Nodup)
    (fun _ i _ key _ h => ids_add h key i.amount.toNat) ht.ids
  keys := commit_induction (P := fun t' => (t'.map Stored.key).Nodup)
    (fun _ i _ key _ h => nodup_keys_add h key i.amount.toNat) ht.keys
  nonneg := by
    intro k
    have hnonneg := ht.nonneg k
    rw [ht.counter_commit (hb k)]
    omega
  fits := by
    intro k
    have hnonneg := ht.nonneg k
    rw [ht.counter_commit (hb k)]
    exact fits_of_lt (by omega) (hb k)

end Commit

section Settle

def reported (rows : List Row) (k : Key) : Nat :=
  sumOf (fun r => if r.key = k then r.counter.toNat else 0) rows

/-- The rows were read of the table or of an earlier state of it: they stand in it under their
numbers and keys, with what was read of their counters. -/
structure Holds (t : Table) (rows : List Row) : Prop where
  ids : (rows.map Row.id).Nodup
  named : ∀ r ∈ rows, ∃ s ∈ t, s.id = r.id ∧ s.key = r.key
  covered : ∀ r ∈ rows, (r.counter.toNat : Int) ≤ t.counter r.key

theorem Holds.commit (h : t.Holds rows) (ht : t.Sound) {is : List Increment}
    (hb : ∀ k, t.counter k + counted is k < 2 ^ 63) : (t.commit is).Holds rows where
  ids := h.ids
  named := by
    intro r hr
    obtain ⟨s, hs, hid, hkey⟩ := h.named r hr
    obtain ⟨s', hs', hid', hkey', -⟩ := exists_mem_commit hs is
    exact ⟨s', hs', hid'.trans hid, hkey'.trans hkey⟩
  covered := by
    intro r hr
    have hc := h.covered r hr
    rw [ht.counter_commit (hb r.key)]
    omega

theorem eq_of_id (ht : (t.map Stored.id).Nodup) {s s' : Stored} (hs : s ∈ t) (hs' : s' ∈ t)
    (h : s.id = s'.id) : s = s' := List.inj_on_of_nodup_map ht hs hs' h

theorem eq_of_key (ht : (t.map Stored.key).Nodup) {s s' : Stored} (hs : s ∈ t) (hs' : s' ∈ t)
    (h : s.key = s'.key) : s = s' := List.inj_on_of_nodup_map ht hs hs' h

theorem subtract_eq (ht : t.Sound) {r : Row} (hr : ∃ s ∈ t, s.id = r.id ∧ s.key = r.key) :
    t.subtract r = t.map fun s =>
      if s.key = r.key then { s with counter := minus s.counter r.counter.toNat } else s := by
  obtain ⟨a, ha, hid, hkey⟩ := hr
  apply List.map_congr_left
  intro s hs
  have hiff : s.id = r.id ↔ s.key = r.key := by
    constructor
    · intro h
      rw [eq_of_id ht.ids hs ha (h.trans hid.symm)]
      exact hkey
    · intro h
      rw [eq_of_key ht.keys hs ha (h.trans hkey.symm)]
      exact hid
  by_cases h : s.key = r.key
  · rw [if_pos h, if_pos (hiff.2 h)]
  · rw [if_neg h, if_neg (fun h' => h (hiff.1 h'))]

theorem counter_subtract (ht : t.Sound) {r : Row} (hr : ∃ s ∈ t, s.id = r.id ∧ s.key = r.key)
    (hc : (r.counter.toNat : Int) ≤ t.counter r.key) (k : Key) :
    (t.subtract r).counter k = t.counter k - if r.key = k then (r.counter.toNat : Int) else 0 := by
  rw [subtract_eq ht hr, counter, find?_map_counter t r.key k (minus · r.counter.toNat)]
  by_cases hk : r.key = k
  · subst hk
    obtain ⟨s, hs, -, hkey⟩ := hr
    have hcounter := counter_of_mem ht.keys hs
    rw [hkey] at hcounter
    obtain ⟨s', hs'⟩ : ∃ s', t.find? (·.key = r.key) = some s' :=
      Option.isSome_iff_exists.1 (List.find?_isSome.2 ⟨s, hs, decide_eq_true hkey⟩)
    have hsame : t.counter r.key = s'.counter := by rw [counter, hs']; rfl
    have hnonneg : (0 : Int) ≤ r.counter.toNat := Int.natCast_nonneg _
    have hfits := ht.fits r.key
    have hdiff : Tally.fits (s'.counter - r.counter.toNat) := by
      rw [← hsame]
      exact fits_of_le rfl hfits (Int.sub_nonneg_of_le hc) (Int.sub_le_self _ hnonneg)
    rw [hsame] at hfits
    rw [hs', if_pos rfl, hsame]
    simp only [Option.map_some, Option.getD_some, key_of_find? hs', if_true]
    exact minus_of_fits hfits (fits_amount r.counter) hdiff
  · rw [if_neg hk, Int.sub_zero, counter]
    cases hf : t.find? (·.key = k) with
    | none => rfl
    | some s =>
      have hne : ¬s.key = r.key := by
        rw [key_of_find? hf]
        exact Ne.symm hk
      simp [hne]

theorem Sound.subtract (ht : t.Sound) {r : Row} (hr : ∃ s ∈ t, s.id = r.id ∧ s.key = r.key)
    (hc : (r.counter.toNat : Int) ≤ t.counter r.key) : (t.subtract r).Sound := by
  have hmap := t.map_change (·.id = r.id) (minus · r.counter.toNat)
  have hcounter := counter_subtract ht hr hc
  have hbounds (k : Key) : 0 ≤ (t.subtract r).counter k ∧ (t.subtract r).counter k ≤ t.counter k := by
    have hnonneg := ht.nonneg k
    rw [hcounter k]
    split
    · next hk =>
      subst hk
      omega
    · omega
  refine ⟨?_, ?_, fun k => (hbounds k).1, fun k => ?_⟩
  · rw [Table.subtract, hmap.1]
    exact ht.ids
  · rw [Table.subtract, hmap.2]
    exact ht.keys
  · exact fits_of_le rfl (ht.fits k) (hbounds k).1 (hbounds k).2

theorem Holds.tail {r : Row} (h : t.Holds (r :: rows)) (ht : t.Sound) :
    (t.subtract r).Holds rows := by
  have hr := h.named r List.mem_cons_self
  have hc := h.covered r List.mem_cons_self
  have hids := h.ids
  rw [List.map_cons, List.nodup_cons] at hids
  refine ⟨hids.2, fun r' hr' => ?_, fun r' hr' => ?_⟩
  · obtain ⟨s, hs, hid, hkey⟩ := h.named r' (List.mem_cons_of_mem r hr')
    refine ⟨_, List.mem_map_of_mem hs, ?_⟩
    split <;> exact ⟨hid, hkey⟩
  · obtain ⟨s, hs, hid, hkey⟩ := hr
    obtain ⟨s', hs', hid', hkey'⟩ := h.named r' (List.mem_cons_of_mem r hr')
    have hne : r.key ≠ r'.key := by
      intro hk
      have hsame := eq_of_key ht.keys hs hs' (hkey.trans (hk.trans hkey'.symm))
      apply hids.1
      rw [← hid, hsame, hid']
      exact List.mem_map_of_mem hr'
    rw [counter_subtract ht ⟨s, hs, hid, hkey⟩ hc, if_neg hne, Int.sub_zero]
    exact h.covered r' (List.mem_cons_of_mem r hr')

theorem foldl_subtract (ht : t.Sound) (h : t.Holds rows) :
    (rows.foldl Table.subtract t).Sound ∧
      ∀ k, (rows.foldl Table.subtract t).counter k = t.counter k - reported rows k := by
  induction rows generalizing t with
  | nil => exact ⟨ht, fun k => (Int.sub_zero _).symm⟩
  | cons r rows ih =>
    have hr := h.named r List.mem_cons_self
    have hc := h.covered r List.mem_cons_self
    obtain ⟨hsound, hcounter⟩ := ih (ht.subtract hr hc) (h.tail ht)
    refine ⟨hsound, fun k => ?_⟩
    have hreported : reported (r :: rows) k =
        (if r.key = k then r.counter.toNat else 0) + reported rows k := rfl
    rw [List.foldl_cons, hcounter k, counter_subtract ht hr hc k, hreported]
    split <;> omega

theorem counter_filter (ht : (t.map Stored.key).Nodup) (hnonneg : 0 ≤ t.counter k) :
    Table.counter (t.filter fun s => 0 < s.counter) k = t.counter k := by
  by_cases hk : k ∈ t.map Stored.key
  · obtain ⟨s, hs, rfl⟩ := List.mem_map.1 hk
    have hsub : ((t.filter fun s => 0 < s.counter).map Stored.key).Nodup :=
      ht.sublist (List.filter_sublist.map _)
    have hcounter := counter_of_mem ht hs
    by_cases hpos : 0 < s.counter
    · rw [hcounter]
      exact counter_of_mem hsub (List.mem_filter.2 ⟨hs, decide_eq_true hpos⟩)
    · rw [counter_of_not_mem]
      · omega
      · intro hmem
        obtain ⟨s', hs', hkey⟩ := List.mem_map.1 hmem
        obtain ⟨hs', hpos'⟩ := List.mem_filter.1 hs'
        rw [eq_of_key ht hs' hs hkey, decide_eq_true_eq] at hpos'
        exact hpos hpos'
  · rw [counter_of_not_mem hk, counter_of_not_mem]
    intro hmem
    exact hk ((List.filter_sublist.map _).subset hmem)

/-- A settlement of rows that were read takes from each counter what was read of it. -/
theorem counter_settle (ht : t.Sound) (h : t.Holds rows) (k : Key) :
    (t.settle rows).counter k = t.counter k - reported rows k := by
  obtain ⟨hsound, hcounter⟩ := foldl_subtract ht h
  rw [settle, counter_filter hsound.keys (hsound.nonneg k), hcounter]

theorem Sound.settle (ht : t.Sound) (h : t.Holds rows) : (t.settle rows).Sound := by
  obtain ⟨hsound, -⟩ := foldl_subtract ht h
  refine ⟨hsound.ids.sublist (List.filter_sublist.map _),
    hsound.keys.sublist (List.filter_sublist.map _), fun k => ?_, fun k => ?_⟩
  · rw [Table.settle, counter_filter hsound.keys (hsound.nonneg k)]
    exact hsound.nonneg k
  · rw [Table.settle, counter_filter hsound.keys (hsound.nonneg k)]
    exact hsound.fits k

theorem genuine_settle (ht : ∀ s ∈ t, s.key.Genuine) (rows : List Row) :
    ∀ s ∈ t.settle rows, s.key.Genuine := by
  intro s hs
  have hkeys : ∀ (rows : List Row) (t : Table),
      (rows.foldl Table.subtract t).map Stored.key = t.map Stored.key := by
    intro rows
    induction rows with
    | nil => exact fun _ => rfl
    | cons r rows ih =>
      intro t
      rw [List.foldl_cons, ih]
      exact (t.map_change (·.id = r.id) (minus · r.counter.toNat)).2
  have hmem := List.mem_map_of_mem (f := Stored.key) (List.mem_filter.1 hs).1
  rw [hkeys] at hmem
  obtain ⟨s', hs', hkey⟩ := List.mem_map.1 hmem
  exact hkey ▸ ht s' hs'

end Settle

section Report

variable {keep : Stored → Bool}

theorem mem_of_report (h : report (t.filter keep) = .ok rows) :
    ∀ r ∈ rows, ∃ s ∈ t, keep s = true ∧ s.report? = some r := by
  rw [report] at h
  split at h
  · cases h
    intro r hr
    obtain ⟨s, hs, hr⟩ := List.mem_filterMap.1 hr
    obtain ⟨hs, hk⟩ := List.mem_filter.1 ((List.mergeSort_perm _ _).mem_iff.1 hs)
    exact ⟨s, hs, hk, hr⟩
  · cases h

theorem nodup_ids_report (ht : (t.map Stored.id).Nodup) (h : report (t.filter keep) = .ok rows) :
    (rows.map Row.id).Nodup := by
  rw [report] at h
  split at h
  · cases h
    have hsub : ∀ ss : List Stored,
        ((ss.filterMap Stored.report?).map Row.id).Sublist (ss.map Stored.id) := by
      intro ss
      induction ss with
      | nil => exact .slnil
      | cons s ss ih =>
        rw [List.filterMap_cons]
        split
        · exact ih.cons _
        · next r hr =>
          rw [List.map_cons, List.map_cons, id_of_report? hr]
          exact ih.cons_cons _
    refine List.Nodup.sublist (hsub _) ?_
    have hperm := (List.mergeSort_perm (t.filter keep) fun a b => a.key.le b.key).map Stored.id
    exact hperm.nodup_iff.2 (ht.sublist (List.filter_sublist.map _))
  · cases h

theorem holds_closed (ht : t.Sound) (hg : ∀ s ∈ t, s.key.Genuine) (d : Date)
    {days months : List Row}
    (hd : report (t.filter fun s => closedBefore (Period.day.key d) s.key.bucket) = .ok days)
    (hm : report (t.filter fun s => closedBefore (Period.month.key d) s.key.bucket) = .ok months) :
    t.Holds (days ++ months) := by
  have hmem : ∀ r ∈ days ++ months, ∃ s ∈ t, s.report? = some r := by
    intro r hr
    rcases List.mem_append.1 hr with hr | hr
    · obtain ⟨s, hs, -, hr⟩ := mem_of_report hd r hr
      exact ⟨s, hs, hr⟩
    · obtain ⟨s, hs, -, hr⟩ := mem_of_report hm r hr
      exact ⟨s, hs, hr⟩
  refine ⟨?_, fun r hr => ?_, fun r hr => ?_⟩
  · rw [List.map_append, List.nodup_append]
    refine ⟨nodup_ids_report ht.ids hd, nodup_ids_report ht.ids hm, ?_⟩
    intro a ha b hb hab
    obtain ⟨r, hr, rfl⟩ := List.mem_map.1 ha
    obtain ⟨r', hr', rfl⟩ := List.mem_map.1 hb
    obtain ⟨s, hs, hday, hr⟩ := mem_of_report hd r hr
    obtain ⟨s', hs', hmonth, hr'⟩ := mem_of_report hm r' hr'
    rw [id_of_report? hr, id_of_report? hr'] at hab
    rw [← eq_of_id ht.ids hs hs' hab] at hmonth
    exact not_closedBefore_both d s.key.bucket ⟨hday, hmonth⟩
  · obtain ⟨s, hs, hr⟩ := hmem r hr
    exact ⟨s, hs, (id_of_report? hr).symm, (key_of_report? (hg s hs) hr).symm⟩
  · obtain ⟨s, hs, hr⟩ := hmem r hr
    have hcounter := counter_of_mem ht.keys hs
    have hnonneg := ht.nonneg s.key
    rw [key_of_report? (hg s hs) hr, hcounter, counter_of_report? hr, toNat_saturate]
    omega

end Report

end Table

/-- A settlement of rows that the table holds succeeds. -/
theorem Store.exists_settle {s : Store} {t : Table} {rows : List Row} (hs : s.table = some t)
    (ht : t.Sound) (hg : ∀ r ∈ t, r.key.Genuine) (h : t.Holds rows) :
    ∃ s' t', s.settle rows = .ok s' ∧ s'.table = some t' ∧ t'.Sound ∧
      (∀ r ∈ t', r.key.Genuine) ∧ ∀ k, t'.counter k = t.counter k - Table.reported rows k := by
  cases rows with
  | nil => exact ⟨s, t, rfl, hs, ht, hg, fun k => (Int.sub_zero _).symm⟩
  | cons r rows =>
    rw [settle, hs]
    exact ⟨_, _, rfl, rfl, ht.settle h, Table.genuine_settle hg _, Table.counter_settle ht h⟩

end Tally

end Telemetry
