/-!
Counters. A sum or a difference is exact as long as all of it fits 64 bits. Past that it is taken
in double precision, of 53 significant bits, and stays out of range until a later difference brings
it back.
-/

namespace Telemetry.Tally

/-- Whether a number can be held in 64 bits. -/
def fits (n : Int) : Bool := Int64.minValue.toInt ≤ n ∧ n ≤ Int64.maxValue.toInt

/-- The multiple of `unit` nearest to a number, of two the one with an even quotient. -/
def nearestMultiple (unit n : Nat) : Nat :=
  let q := n / unit
  let rest := 2 * (n % unit)
  unit * (if rest < unit ∨ (rest = unit ∧ q % 2 = 0) then q else q + 1)

def lastPlace (n : Nat) : Nat := 1 <<< (n.log2 - 52)

/-- The number in double precision. -/
def rounded (n : Int) : Int := n.sign * nearestMultiple (lastPlace n.natAbs) n.natAbs

def plus (a b : Int) : Int :=
  if fits a && fits b && fits (a + b) then a + b else rounded (rounded a + rounded b)

def minus (a b : Int) : Int :=
  if fits a && fits b && fits (a - b) then a - b else rounded (rounded a - rounded b)

theorem fits_iff {n : Int} : fits n ↔ -9223372036854775808 ≤ n ∧ n ≤ 9223372036854775807 :=
  decide_eq_true_iff

theorem plus_of_fits {a b : Int} (ha : fits a) (hb : fits b) (h : fits (a + b)) :
    plus a b = a + b := by
  simp [plus, ha, hb, h]

theorem minus_of_fits {a b : Int} (ha : fits a) (hb : fits b) (h : fits (a - b)) :
    minus a b = a - b := by
  simp [minus, ha, hb, h]

theorem nearestMultiple_one (n : Nat) : nearestMultiple 1 n = n := by
  simp [nearestMultiple, Nat.mod_one]

theorem rounded_eq_self {n : Int} (h : n.natAbs.log2 ≤ 52) : rounded n = n := by
  have hu : lastPlace n.natAbs = 1 := by
    simp [lastPlace, Nat.sub_eq_zero_of_le h]
  rw [rounded, hu, nearestMultiple_one, Int.sign_mul_natAbs]

theorem two_mul_nearestMultiple_le {unit : Nat} (h : 0 < unit) (n : Nat) :
    2 * nearestMultiple unit n ≤ 2 * n + unit ∧ 2 * n ≤ 2 * nearestMultiple unit n + unit := by
  have hd := Nat.div_add_mod n unit
  have hm := Nat.mod_lt n h
  unfold nearestMultiple
  simp only
  split
  · omega
  · rw [Nat.mul_add, Nat.mul_one]
    omega

theorem le_two_mul_rounded {n : Int} (h : 0 ≤ n) : n ≤ 2 * rounded n := by
  obtain ⟨m, rfl⟩ := Int.eq_ofNat_of_zero_le h
  rcases Nat.eq_zero_or_pos m with rfl | hpos
  · decide
  · have hunit : 0 < lastPlace m ∧ lastPlace m ≤ m := by
      rw [lastPlace, Nat.one_shiftLeft]
      have hlog : 2 ^ (m.log2 - 52) ≤ 2 ^ m.log2 :=
        Nat.pow_le_pow_right (by decide) (Nat.sub_le _ _)
      exact ⟨Nat.two_pow_pos _, Nat.le_trans hlog (Nat.log2_self_le (by omega))⟩
    have hnear := (two_mul_nearestMultiple_le hunit.1 m).2
    have hsign : Int.sign (m : Int) = 1 := Int.sign_eq_one_of_pos (by omega)
    rw [rounded, Int.natAbs_natCast, hsign, Int.one_mul]
    omega

end Telemetry.Tally
