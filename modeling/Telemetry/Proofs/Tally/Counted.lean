import Telemetry.Proofs.Calendar.Key
import Telemetry.SumOf
import Telemetry.Tally.Store

namespace Telemetry

namespace Tally

theorem fits_amount (n : UInt32) : fits (n.toNat : Int) := by
  have hn : n.toNat < 4294967296 := n.toNat_lt
  rw [fits_iff]
  omega

theorem fits_of_le {a b c : Int} (ha : fits a) (hc : fits c) (hab : a ≤ b) (hbc : b ≤ c) :
    fits b := by
  rw [fits_iff] at *
  omega

theorem lt_of_not_fits {n : Int} (h : ¬fits n) (hn : 0 ≤ n) : 9223372036854775807 < n := by
  rw [fits_iff] at h
  omega

theorem le_plus {a : Int} {n : UInt32} (h : (n.toNat : Int) ≤ a) (amount : UInt32) :
    (n.toNat : Int) ≤ plus a amount.toNat := by
  have hn : n.toNat < 4294967296 := n.toNat_lt
  have hamount : amount.toNat < 4294967296 := amount.toNat_lt
  by_cases hexact : fits a ∧ fits (a + amount.toNat)
  · rw [plus_of_fits hexact.1 (fits_amount amount) hexact.2]
    omega
  · have hbig : 4611686018427387904 ≤ a := by
      rcases Decidable.not_and_iff_not_or_not.1 hexact with hout | hout
      · have hlt := lt_of_not_fits hout (by omega)
        omega
      · have hlt := lt_of_not_fits hout (by omega)
        omega
    have hrounded : plus a amount.toNat = rounded (rounded a + rounded amount.toNat) := by
      rw [plus, if_neg]
      rw [fits_amount, Bool.and_true, Bool.and_eq_true]
      exact hexact
    have hnear := le_two_mul_rounded (n := a) (by omega)
    have hnear' := le_two_mul_rounded (n := amount.toNat) (by omega)
    have hround := le_two_mul_rounded (n := rounded a + rounded amount.toNat) (by omega)
    omega

theorem rounded_amount (n : UInt32) : rounded (n.toNat : Int) = n.toNat := by
  apply rounded_eq_self
  rw [Int.natAbs_natCast]
  have hn : n.toNat < 4294967296 := n.toNat_lt
  rcases Nat.eq_zero_or_pos n.toNat with h | h
  · rw [h]
    decide
  · have hlog := (Nat.log2_lt (by omega)).2 (show n.toNat < 2 ^ 32 by omega)
    omega

theorem minus_eq_sub {a : Int} {n : UInt32} (h : (n.toNat : Int) ≤ a) (ha : fits a) :
    minus a n.toNat = a - n.toNat :=
  minus_of_fits ha (fits_amount n) (fits_of_le rfl ha (Int.sub_nonneg_of_le h) (by omega))

theorem minus_nonneg {a : Int} {n : UInt32} (h : (n.toNat : Int) ≤ a) : 0 ≤ minus a n.toNat := by
  by_cases ha : fits a
  · rw [minus_eq_sub h ha]
    omega
  · have hn : n.toNat < 4294967296 := n.toNat_lt
    have hbig := lt_of_not_fits ha (by omega)
    have hnear := le_two_mul_rounded (n := a) (by omega)
    have hround := le_two_mul_rounded (n := rounded a - n.toNat) (by omega)
    simp only [minus, ha, Bool.false_and, Bool.false_eq_true, if_false, rounded_amount]
    omega

namespace Increment

def dayPart (i : Increment) (key : Key) : Nat := if i.dayKeyOf = key then i.amount.toNat else 0

def monthPart (i : Increment) (key : Key) : Nat := if i.monthKeyOf = key then i.amount.toNat else 0

theorem dayKeyOf_ne_monthKeyOf (i j : Increment) : i.dayKeyOf ≠ j.monthKeyOf := by
  intro h
  exact Calendar.dayKey_ne_monthKey i.date j.date (congrArg Key.bucket h)

end Increment

namespace Table

/-- The counter under a key; zero where there is no row. -/
def counter (t : Table) (key : Key) : Int := ((t.find? (·.key = key)).map Stored.counter).getD 0

theorem find?_map_counter (t : Table) (key k : Key) (f : Int → Int) :
    (t.map fun r => if r.key = key then { r with counter := f r.counter } else r).find? (·.key = k) =
      (t.find? (·.key = k)).map fun r =>
        if r.key = key then { r with counter := f r.counter } else r := by
  rw [List.find?_map]
  congr 2
  funext r
  by_cases hr : r.key = key <;> simp [hr]

theorem key_of_find? {t : Table} {k : Key} {r : Stored} (h : t.find? (·.key = k) = some r) :
    r.key = k := by
  have hr := List.find?_some h
  rw [decide_eq_true_eq] at hr
  exact hr

theorem zero_plus (amount : UInt32) : plus 0 amount.toNat = amount.toNat := by
  have ha := fits_amount amount
  rw [← Int.zero_add (amount.toNat : Int)] at ha
  rw [plus_of_fits rfl (fits_amount amount) ha, Int.zero_add]

theorem counter_add_self (t : Table) (key : Key) (amount : UInt32) :
    (t.add key amount.toNat).counter key = plus (t.counter key) amount.toNat := by
  unfold counter
  cases hf : t.find? (·.key = key) with
  | none =>
    have hany : ¬t.any (·.key = key) = true := by
      rw [List.any_eq_true]
      rintro ⟨r, hr, hrk⟩
      exact List.find?_eq_none.1 hf r hr hrk
    rw [add, if_neg hany, List.find?_append, hf]
    simp [zero_plus]
  | some r =>
    have hrk := key_of_find? hf
    have hany : t.any (·.key = key) = true :=
      List.any_eq_true.2 ⟨r, List.mem_of_find?_eq_some hf, decide_eq_true hrk⟩
    rw [add, if_pos hany, find?_map_counter t key key (plus · amount.toNat), hf]
    simp only [Option.map_some, Option.getD_some, hrk, if_true]

theorem counter_add_of_ne (t : Table) {key k : Key} (hk : key ≠ k) (amount : Int) :
    (t.add key amount).counter k = t.counter k := by
  unfold counter
  rw [add]
  split
  · rw [find?_map_counter t key k (plus · amount)]
    cases hf : t.find? (·.key = k) with
    | none => rfl
    | some r =>
      have hne : ¬r.key = key := by
        rw [key_of_find? hf]
        exact Ne.symm hk
      simp [hne]
  · rw [List.find?_append]
    simp [hk]

theorem counter_add {t : Table} {k : Key} (key : Key) (amount : UInt32) (ht : fits (t.counter k))
    (hs : fits (t.counter k + if key = k then (amount.toNat : Int) else 0)) :
    (t.add key amount.toNat).counter k =
      t.counter k + if key = k then (amount.toNat : Int) else 0 := by
  by_cases hk : key = k
  · subst hk
    rw [if_pos rfl] at hs ⊢
    rw [counter_add_self]
    exact plus_of_fits ht (fits_amount amount) hs
  · rw [if_neg hk, Int.add_zero, counter_add_of_ne t hk]

theorem commit_append (t : Table) (is js : List Increment) :
    t.commit (is ++ js) = (t.commit is).commit js := List.foldl_append

theorem counter_commit {t : Table} {k : Key} (is : List Increment) (ht : fits (t.counter k))
    (hs : fits (t.counter k + sumOf (·.dayPart k) is + sumOf (·.monthPart k) is)) :
    (t.commit is).counter k =
      t.counter k + sumOf (·.dayPart k) is + sumOf (·.monthPart k) is := by
  induction is generalizing t with
  | nil => simp [commit]
  | cons i is ih =>
    rw [sumOf_cons, sumOf_cons] at hs ⊢
    have hd : (i.dayPart k : Int) = if i.dayKeyOf = k then (i.amount.toNat : Int) else 0 := by
      rw [Increment.dayPart]
      split <;> rfl
    have hm : (i.monthPart k : Int) = if i.monthKeyOf = k then (i.amount.toNat : Int) else 0 := by
      rw [Increment.monthPart]
      split <;> rfl
    have hday : fits (t.counter k + i.dayPart k) := fits_of_le ht hs (by omega) (by omega)
    have hfirst := counter_add i.dayKeyOf i.amount ht (by rw [← hd]; exact hday)
    rw [← hd] at hfirst
    have hmonth : fits (t.counter k + i.dayPart k + i.monthPart k) :=
      fits_of_le ht hs (by omega) (by omega)
    have hsecond := counter_add (t := t.add i.dayKeyOf i.amount.toNat) i.monthKeyOf i.amount
      (by rw [hfirst]; exact hday) (by rw [hfirst, ← hm]; exact hmonth)
    rw [← hm, hfirst] at hsecond
    change (t.count i).counter k = _ at hsecond
    have hrest := ih (t := t.count i) (by rw [hsecond]; exact hmonth)
      (by rw [hsecond]; exact fits_of_le ht hs (by omega) (by omega))
    rw [hsecond] at hrest
    change ((t.count i).commit is).counter k = _
    rw [hrest]
    omega

/-- Under a key the second table has so much more than the first, where that fits. -/
def Gains (t t' : Table) (key : Key) (n : Nat) : Prop :=
  fits (t.counter key) → fits (t.counter key + n) → t'.counter key = t.counter key + n

theorem gains_commit (t : Table) (is : List Increment) (key : Key) :
    Gains t (t.commit is) key (sumOf (·.dayPart key) is + sumOf (·.monthPart key) is) := by
  intro ht hs
  rw [Int.natCast_add, ← Int.add_assoc] at hs ⊢
  exact counter_commit is ht hs

end Table

theorem Store.commit_eq {s : Store} {t : Table} (h : s.table = some t) (is : List Increment) :
    s.commit is = .ok { s with table := some (t.commit is) } := by
  rw [commit]
  cases is with
  | nil =>
    rw [Table.commit, List.foldl_nil, ← h]
    rfl
  | cons i is => simp only [List.isEmpty_cons, Bool.false_eq_true, if_false, h]

theorem Store.commit_eq_error_iff (s : Store) (is : List Increment) :
    (∃ e, s.commit is = .error e) ↔ is ≠ [] ∧ s.table = none := by
  rw [commit]
  cases is with
  | nil => simp
  | cons i is => cases s.table <;> simp

end Tally

end Telemetry
