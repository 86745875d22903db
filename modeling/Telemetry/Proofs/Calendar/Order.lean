import Telemetry.Proofs.Calendar.Key
import Telemetry.Proofs.Text.Order

namespace Telemetry.Calendar

open Text

def monthBefore (d e : Date) : Prop := d.year < e.year ∨ d.year = e.year ∧ d.month < e.month

def dayBefore (d e : Date) : Prop :=
  monthBefore d e ∨ (d.year = e.year ∧ d.month = e.month) ∧ d.day < e.day

/-- The bucket of a date lies before that of another. -/
def Period.Before : Period → Date → Date → Prop
  | day => dayBefore
  | month => monthBefore

/-- The year is written with four digits and no sign. -/
def Date.FourDigits (d : Date) : Prop := 0 ≤ d.year ∧ d.year ≤ 9999

instance (d : Date) : Decidable d.FourDigits := by
  unfold Date.FourDigits
  infer_instance

section Text

theorem mul_add_lt_mul_add_iff {base m n r s : Nat} (hr : r < base) (hs : s < base) :
    base * m + r < base * n + s ↔ m < n ∨ m = n ∧ r < s := by
  obtain h | h | h := Nat.lt_trichotomy m n
  · have hmul : base * (m + 1) ≤ base * n := Nat.mul_le_mul_left base h
    rw [Nat.mul_succ] at hmul
    omega
  · subst h
    omega
  · have hmul : base * (n + 1) ≤ base * m := Nat.mul_le_mul_left base h
    rw [Nat.mul_succ] at hmul
    omega

variable {xs ys : List Char}

theorem ofDigitChars_cons_eq (c : Char) (xs : List Char) : Nat.ofDigitChars 10 (c :: xs) 0 =
    10 ^ xs.length * (c.toNat - 48) + Nat.ofDigitChars 10 xs 0 := by
  rw [Nat.ofDigitChars_cons, Nat.ofDigitChars_eq_ofDigitChars_zero, Nat.mul_zero, Nat.zero_add]
  rfl

theorem ofDigitChars_lt (h : ∀ c ∈ xs, c.isDigit = true) :
    Nat.ofDigitChars 10 xs 0 < 10 ^ xs.length := by
  induction xs with
  | nil => exact Nat.one_pos
  | cons c xs ih =>
    have hc := Numeral.toNat_of_isDigit (h c List.mem_cons_self)
    have hrest := ih fun x hx => h x (List.mem_cons_of_mem c hx)
    have hfirst : 10 ^ xs.length * (c.toNat - 48) ≤ 10 ^ xs.length * 9 :=
      Nat.mul_le_mul_left _ (by omega)
    rw [ofDigitChars_cons_eq, List.length_cons, Nat.pow_succ]
    omega

theorem digits_lt_iff (hx : ∀ c ∈ xs, c.isDigit = true) (hy : ∀ c ∈ ys, c.isDigit = true)
    (hl : xs.length = ys.length) :
    xs < ys ↔ Nat.ofDigitChars 10 xs 0 < Nat.ofDigitChars 10 ys 0 := by
  induction xs generalizing ys with
  | nil =>
    have hys : ys = [] := List.length_eq_zero_iff.1 hl.symm
    simp [hys]
  | cons x xs ih =>
    cases ys with
    | nil => cases hl
    | cons y ys =>
      have hl' : xs.length = ys.length := Nat.succ.inj hl
      have hxs := fun c hc => hx c (List.mem_cons_of_mem x hc)
      have hys := fun c hc => hy c (List.mem_cons_of_mem y hc)
      have hx0 := Numeral.toNat_of_isDigit (hx x List.mem_cons_self)
      have hy0 := Numeral.toNat_of_isDigit (hy y List.mem_cons_self)
      have hlt : x < y ↔ x.toNat - 48 < y.toNat - 48 := by
        rw [Char.lt_def, UInt32.lt_iff_toNat_lt]
        change x.toNat < y.toNat ↔ _
        omega
      have heq : x = y ↔ x.toNat - 48 = y.toNat - 48 := by
        rw [← Char.toNat_inj]
        omega
      rw [List.cons_lt_cons_iff, ofDigitChars_cons_eq, ofDigitChars_cons_eq, ← hl',
        mul_add_lt_mul_add_iff (ofDigitChars_lt hxs) (hl' ▸ ofDigitChars_lt hys), hlt, heq,
        ih hxs hys hl']

end Text

variable {width m n : Nat}

theorem leftpad_lt_iff (hm : m < 10 ^ width) (hn : n < 10 ^ width) (hw : 0 < width) :
    (Numeral.ofNat m).leftpad width '0' < (Numeral.ofNat n).leftpad width '0' ↔ m < n := by
  have hl : ((Numeral.ofNat m).leftpad width '0').length =
      ((Numeral.ofNat n).leftpad width '0').length := by
    rw [length_leftpad_of_lt hm hw, length_leftpad_of_lt hn hw]
  rw [digits_lt_iff (fun _ => mem_leftpad_ofNat) (fun _ => mem_leftpad_ofNat) hl,
    ofDigitChars_leftpad, ofDigitChars_leftpad]

theorem twoDigits_lt_iff (hm : m < 100) (hn : n < 100) : twoDigits m < twoDigits n ↔ m < n :=
  leftpad_lt_iff hm hn (by decide)

variable {d e : Date}

theorem Date.FourDigits.length_yearText (h : d.FourDigits) : (yearText d.year).length = 4 := by
  obtain ⟨hlow, hhigh⟩ := h
  rw [yearText, if_pos ⟨hlow, hhigh⟩]
  exact length_leftpad_of_lt (by omega) (by decide)

theorem yearText_lt_iff (hd : d.FourDigits) (he : e.FourDigits) :
    yearText d.year < yearText e.year ↔ d.year < e.year := by
  obtain ⟨hlow, hhigh⟩ := hd
  obtain ⟨hlow', hhigh'⟩ := he
  rw [yearText, if_pos ⟨hlow, hhigh⟩, yearText, if_pos ⟨hlow', hhigh'⟩,
    leftpad_lt_iff (by omega) (by omega) (by decide)]
  omega

theorem length_key (p : Period) (h : d.FourDigits) :
    (p.key d).length = match p with
      | .day => 10
      | .month => 7 := by
  cases p with
  | day => rw [Period.key, length_dayKey, h.length_yearText]
  | month => rw [Period.key, length_monthKey, h.length_yearText]

theorem monthKey_lt_iff (hd : d.FourDigits) (he : e.FourDigits) :
    monthKey d < monthKey e ↔ monthBefore d e := by
  have hl : (yearText d.year).length = (yearText e.year).length := by
    rw [hd.length_yearText, he.length_yearText]
  have hyear : yearText d.year = yearText e.year ↔ d.year = e.year :=
    ⟨yearText_inj, congrArg yearText⟩
  rw [monthKey, monthKey, append_lt_append_iff hl, List.cons_lt_cons_self,
    twoDigits_lt_iff (month_lt d) (month_lt e), yearText_lt_iff hd he, hyear, monthBefore]

theorem dayKey_lt_iff (hd : d.FourDigits) (he : e.FourDigits) :
    dayKey d < dayKey e ↔ dayBefore d e := by
  have hl : (monthKey d).length = (monthKey e).length := by
    rw [length_monthKey, length_monthKey, hd.length_yearText, he.length_yearText]
  rw [dayKey, dayKey, append_lt_append_iff hl, List.cons_lt_cons_self,
    twoDigits_lt_iff (day_lt d) (day_lt e), monthKey_lt_iff hd he, monthKey_eq_iff, dayBefore]

theorem key_lt_iff (p : Period) (hd : d.FourDigits) (he : e.FourDigits) :
    p.key d < p.key e ↔ p.Before d e := by
  cases p with
  | day => exact dayKey_lt_iff hd he
  | month => exact monthKey_lt_iff hd he

end Telemetry.Calendar
