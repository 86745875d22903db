import Telemetry.Proofs.Calendar.Key

namespace Telemetry.Calendar

open Text

section Digits

variable {digits rest : List Char}

theorem trimStart_digits (hd : ∀ c ∈ digits, c.isDigit = true) (hne : digits ≠ []) :
    trimStart (digits ++ rest) = digits ++ rest := by
  obtain ⟨c, tail, rfl⟩ := List.exists_cons_of_ne_nil hne
  have hc := isBlank_of_isDigit (hd c List.mem_cons_self)
  simp [trimStart, hc]

theorem readYear?_digits (hd : ∀ c ∈ digits, c.isDigit = true) (hne : digits ≠ [])
    (hl : digits.length ≤ 4) (hr : ∀ c ∈ rest.head?, Numeral.digit? c = none) :
    readYear? (digits ++ rest) = some ((Nat.ofDigitChars 10 digits 0 : Int), rest) := by
  have hread := Numeral.leading?_append hd hne hl hr
  obtain ⟨c, tail, rfl⟩ := List.exists_cons_of_ne_nil hne
  have hc := hd c List.mem_cons_self
  rw [readYear?, trimStart_digits hd hne]
  split
  · next h =>
    cases h
    cases hc
  · next h =>
    cases h
    cases hc
  · rw [hread]
    rfl

theorem readYear?_sign (hd : ∀ c ∈ digits, c.isDigit = true) (hne : digits ≠ [])
    (hr : ∀ c ∈ rest.head?, Numeral.digit? c = none) :
    readYear? ('-' :: (digits ++ rest)) = some (-(Nat.ofDigitChars 10 digits 0 : Int), rest) ∧
      readYear? ('+' :: (digits ++ rest)) = some ((Nat.ofDigitChars 10 digits 0 : Int), rest) := by
  have hl : digits.length ≤ (digits ++ rest).length := by
    rw [List.length_append]
    exact Nat.le_add_right _ _
  have hread := Numeral.leading?_append hd hne hl hr
  have hminus : trimStart ('-' :: (digits ++ rest)) = '-' :: (digits ++ rest) := rfl
  have hplus : trimStart ('+' :: (digits ++ rest)) = '+' :: (digits ++ rest) := rfl
  constructor
  · simp only [readYear?, hminus, hread, Option.map_some]
  · simp only [readYear?, hplus, hread, Option.map_some]

end Digits

theorem readYear?_yearText (year : Int) (rest : List Char) :
    readYear? (yearText year ++ '-' :: rest) = some (year, '-' :: rest) := by
  have hr : ∀ c ∈ ('-' :: rest).head?, Numeral.digit? c = none := fun c hc => by
    cases hc
    rfl
  rw [yearText]
  by_cases hshort : 0 ≤ year ∧ year ≤ 9999
  · have hl : ((Numeral.ofNat year.toNat).leftpad 4 '0').length ≤ 4 := by
      have hdigits : (Nat.toDigits 10 year.toNat).length ≤ 4 :=
        (Nat.length_toDigits_le_iff (by decide) (by decide)).2 (by omega)
      rw [List.length_leftpad]
      exact Nat.max_le.2 ⟨Nat.le_refl 4, hdigits⟩
    have hread := readYear?_digits (fun _ => mem_leftpad_ofNat) (leftpad_ne_nil 4 _) hl hr
    rw [if_pos hshort, hread, ofDigitChars_leftpad, Int.toNat_of_nonneg hshort.1]
  · have hread := readYear?_sign (fun _ => mem_leftpad_ofNat) (leftpad_ne_nil 4 year.natAbs) hr
    rw [ofDigitChars_leftpad] at hread
    rw [if_neg hshort]
    by_cases hneg : year < 0
    · have hyear : -(year.natAbs : Int) = year := by omega
      rw [if_pos hneg, List.cons_append, hread.1, hyear]
    · have hyear : (year.natAbs : Int) = year := by omega
      rw [if_neg hneg, List.cons_append, hread.2, hyear]

theorem readPart?_twoDigits {n : Nat} (hn : n < 100) {rest : List Char}
    (hr : ∀ c ∈ rest.head?, Numeral.digit? c = none) :
    readPart? ('-' :: (twoDigits n ++ rest)) = some (n, rest) := by
  have hl := Nat.le_of_eq (length_twoDigits hn)
  have hd : ∀ c ∈ twoDigits n, c.isDigit = true := fun _ => mem_leftpad_ofNat
  have hne := leftpad_ne_nil 2 n
  have hread := Numeral.leading?_append hd hne hl hr
  rw [readPart?, trimStart_digits hd hne, hread, twoDigits, ofDigitChars_leftpad]

theorem parse?_monthKey_append (d : Date) {rest : List Char}
    (hr : ∀ c ∈ rest.head?, Numeral.digit? c = none) :
    Date.parse? (monthKey d ++ rest) = (readPart? rest).bind fun p =>
      if p.2.isEmpty then Date.of? d.year d.month p.1 else none := by
  have hyear := readYear?_yearText d.year (twoDigits d.month ++ rest)
  have hmonth := readPart?_twoDigits (month_lt d) hr
  rw [Date.parse?, monthKey, List.append_assoc, List.cons_append, hyear]
  simp only [Option.bind_eq_bind, Option.bind_some, hmonth]

theorem parse?_dayKey (d : Date) : Date.parse? (dayKey d) = some d := by
  have hday : readPart? ('-' :: (twoDigits d.day ++ [])) = some (d.day, []) :=
    readPart?_twoDigits (day_lt d) fun _ h => nomatch h
  rw [List.append_nil] at hday
  rw [dayKey, parse?_monthKey_append d (fun c hc => by cases hc; rfl), hday]
  exact Date.of?_self d

theorem parse?_monthKey (d : Date) : Date.parse? (monthKey d) = none := by
  have h : Date.parse? (monthKey d ++ []) = none :=
    parse?_monthKey_append d fun _ h => nomatch h
  rwa [List.append_nil] at h

def Date.first (d : Date) : Date where
  year := d.year
  month := d.month
  day := 1
  valid := by
    obtain ⟨hmin, hmax, hlow, hhigh, hone, hday⟩ := d.valid
    exact ⟨hmin, hmax, hlow, hhigh, Nat.le_refl 1, Nat.le_trans hone hday⟩

theorem dayKey_first (d : Date) : dayKey d.first = monthKey d ++ "-01".toList := by
  have hone : twoDigits 1 = ['0', '1'] := by decide
  change monthKey d ++ '-' :: twoDigits 1 = _
  rw [hone]
  rfl

theorem ofKey?_key (p : Period) (d : Date) : Period.ofKey? (p.key d) = some p := by
  rw [Period.ofKey?]
  cases p with
  | day => rw [Period.key, parse?_dayKey, Option.isSome_some, if_pos rfl]
  | month =>
    rw [Period.key, parse?_monthKey, ← dayKey_first, parse?_dayKey]
    rfl

/-- A key says which period it is of, and of which day or month: for every date of the calendar it is
read as the period that it was written for, and different buckets have different keys. -/
theorem keys_identify_buckets :
    (∀ (p : Period) (d : Date), Period.ofKey? (p.key d) = some p) ∧
      (∀ d e : Date, dayKey d = dayKey e ↔ d = e) ∧
      (∀ d e : Date, monthKey d = monthKey e ↔ d.year = e.year ∧ d.month = e.month) ∧
      ∀ d e : Date, dayKey d ≠ monthKey e :=
  ⟨ofKey?_key, fun _ _ => ⟨dayKey_inj, congrArg dayKey⟩, fun _ _ => monthKey_eq_iff,
    dayKey_ne_monthKey⟩

end Telemetry.Calendar
