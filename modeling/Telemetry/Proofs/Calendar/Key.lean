import Mathlib.Algebra.Group.Nat.Defs
import Telemetry.Calendar.Bucket

namespace Telemetry.Calendar

open Text

theorem mem_leftpad_ofNat {width n : Nat} {c : Char}
    (h : c ∈ (Numeral.ofNat n).leftpad width '0') : c.isDigit := by
  rw [List.leftpad, List.mem_append] at h
  obtain h | h := h
  · rw [(List.mem_replicate.1 h).2]
    rfl
  · exact Numeral.isDigit_of_mem_ofNat h

theorem hyphen_not_mem_leftpad {width n : Nat} :
    '-' ∉ (Numeral.ofNat n).leftpad width '0' := by
  intro h
  have hd := mem_leftpad_ofNat h
  revert hd
  decide

theorem leftpad_ne_nil (width n : Nat) : (Numeral.ofNat n).leftpad width '0' ≠ [] := by
  rw [List.leftpad]
  exact List.append_ne_nil_of_right_ne_nil _ Nat.toDigits_ne_nil

theorem yearText_ne_nil (year : Int) : yearText year ≠ [] := by
  rw [yearText]
  split
  · exact leftpad_ne_nil 4 _
  · exact List.cons_ne_nil _ _

theorem hyphen_not_mem_tail_yearText (year : Int) : '-' ∉ (yearText year).tail := by
  rw [yearText]
  split
  · exact fun h => hyphen_not_mem_leftpad (List.mem_of_mem_tail h)
  · exact hyphen_not_mem_leftpad

theorem length_leftpad_of_lt {width n : Nat} (h : n < 10 ^ width) (hw : 0 < width) :
    ((Numeral.ofNat n).leftpad width '0').length = width := by
  have hdigits : (Nat.toDigits 10 n).length ≤ width :=
    (Nat.length_toDigits_le_iff (by decide) hw).2 h
  rw [List.length_leftpad]
  exact Nat.max_eq_left hdigits

theorem length_twoDigits {n : Nat} (h : n < 100) : (twoDigits n).length = 2 :=
  length_leftpad_of_lt h (by decide)

theorem month_lt (d : Date) : d.month < 100 := by
  obtain ⟨-, -, -, hm, -⟩ := d.valid
  omega

theorem day_lt (d : Date) : d.day < 100 := by
  obtain ⟨-, -, -, -, -, hd⟩ := d.valid
  have h31 : daysIn d.year d.month ≤ 31 := by
    rw [daysIn]
    split
    · split <;> decide
    · split <;> decide
  omega

theorem length_monthKey (d : Date) : (monthKey d).length = (yearText d.year).length + 3 := by
  rw [monthKey, List.length_append, List.length_cons, length_twoDigits (month_lt d)]

theorem length_dayKey (d : Date) : (dayKey d).length = (yearText d.year).length + 6 := by
  rw [dayKey, List.length_append, List.length_cons, length_twoDigits (day_lt d), length_monthKey]

theorem dayKey_ne_monthKey (d e : Date) : dayKey d ≠ monthKey e := by
  intro h
  have hl : ('-' :: twoDigits d.day).length = ('-' :: twoDigits e.month).length := by
    rw [List.length_cons, List.length_cons, length_twoDigits (day_lt d),
      length_twoDigits (month_lt e)]
  have hy : monthKey d = yearText e.year := (List.append_inj' h hl).1
  have hm : '-' ∈ (monthKey d).tail := by
    rw [monthKey, List.tail_append_of_ne_nil (yearText_ne_nil d.year)]
    simp
  rw [hy] at hm
  exact hyphen_not_mem_tail_yearText e.year hm

theorem nul_not_mem_key (p : Period) (d : Date) : '\x00' ∉ p.key d := by
  have hpad {width n : Nat} : '\x00' ∉ (Numeral.ofNat n).leftpad width '0' := by
    intro h
    have hd := mem_leftpad_ofNat h
    revert hd
    decide
  have hyear : '\x00' ∉ yearText d.year := by
    rw [yearText]
    split
    · exact hpad
    · split <;> simp only [List.mem_cons, hpad, or_false] <;> decide
  have hmonth : '\x00' ∉ monthKey d := by
    simp only [monthKey, twoDigits, List.mem_append, List.mem_cons, hyear, hpad, or_false, false_or]
    decide
  cases p with
  | month => exact hmonth
  | day =>
    simp only [Period.key, dayKey, twoDigits, List.mem_append, List.mem_cons, hmonth, hpad, or_false,
      false_or]
    decide

theorem ofDigitChars_leftpad (width n : Nat) :
    Nat.ofDigitChars 10 ((Numeral.ofNat n).leftpad width '0') 0 = n := by
  rw [List.leftpad, Nat.ofDigitChars_append, Nat.ofDigitChars_replicate_zero, Nat.mul_zero,
    Numeral.ofNat, Nat.ofDigitChars_toDigits (by decide) (by decide)]

theorem leftpad_inj {width m n : Nat}
    (h : (Numeral.ofNat m).leftpad width '0' = (Numeral.ofNat n).leftpad width '0') : m = n := by
  rw [← ofDigitChars_leftpad width m, h, ofDigitChars_leftpad]

theorem leftpad_ne_cons {width n : Nat} {c : Char} {rest : List Char} (hc : c.isDigit = false) :
    (Numeral.ofNat n).leftpad width '0' ≠ c :: rest := by
  intro h
  have hd := mem_leftpad_ofNat (h ▸ List.mem_cons_self : c ∈ (Numeral.ofNat n).leftpad width '0')
  rw [hc] at hd
  cases hd

theorem yearText_inj {a b : Int} (h : yearText a = yearText b) : a = b := by
  have hsign (n : Int) : (if n < 0 then '-' else '+').isDigit = false := by split <;> rfl
  rw [yearText, yearText] at h
  by_cases ha : 0 ≤ a ∧ a ≤ 9999 <;> by_cases hb : 0 ≤ b ∧ b ≤ 9999
  · rw [if_pos ha, if_pos hb] at h
    have habs := leftpad_inj h
    omega
  · rw [if_pos ha, if_neg hb] at h
    exact absurd h (leftpad_ne_cons (hsign b))
  · rw [if_neg ha, if_pos hb] at h
    exact absurd h.symm (leftpad_ne_cons (hsign a))
  · rw [if_neg ha, if_neg hb] at h
    obtain ⟨hs, hrest⟩ := List.cons.inj h
    have habs := leftpad_inj hrest
    split at hs <;> split at hs
    · omega
    · cases hs
    · cases hs
    · omega

theorem monthKey_eq_iff {d e : Date} :
    monthKey d = monthKey e ↔ d.year = e.year ∧ d.month = e.month := by
  constructor
  · intro h
    have hl : ('-' :: twoDigits d.month).length = ('-' :: twoDigits e.month).length := by
      rw [List.length_cons, List.length_cons, length_twoDigits (month_lt d),
        length_twoDigits (month_lt e)]
    obtain ⟨hyear, hmonth⟩ := List.append_inj' h hl
    exact ⟨yearText_inj hyear, leftpad_inj (List.cons.inj hmonth).2⟩
  · rintro ⟨hyear, hmonth⟩
    rw [monthKey, hyear, hmonth, monthKey]

theorem dayKey_inj {d e : Date} (h : dayKey d = dayKey e) : d = e := by
  have hl : ('-' :: twoDigits d.day).length = ('-' :: twoDigits e.day).length := by
    rw [List.length_cons, List.length_cons, length_twoDigits (day_lt d),
      length_twoDigits (day_lt e)]
  obtain ⟨hmonth, hday⟩ := List.append_inj' h hl
  obtain ⟨hy, hm⟩ := monthKey_eq_iff.1 hmonth
  have hd := leftpad_inj (List.cons.inj hday).2
  cases d
  cases e
  cases hy
  cases hm
  cases hd
  rfl

end Telemetry.Calendar
