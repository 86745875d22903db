namespace Telemetry.Codec

abbrev Bytes := List UInt8

/-- The lowest `width` octets of a number, the least significant first. -/
def le : Nat → Nat → Bytes
  | 0, _ => []
  | width + 1, n => UInt8.ofNat n :: le width (n / 256)

def ofLE : Bytes → Nat
  | [] => 0
  | b :: rest => b.toNat + 256 * ofLE rest

def be (width n : Nat) : Bytes := (le width n).reverse

def ofBE (bytes : Bytes) : Nat := bytes.foldl (fun n b => 256 * n + b.toNat) 0

def capacity : Nat → Nat
  | 0 => 1
  | width + 1 => 256 * capacity width

@[simp] theorem length_le (width n : Nat) : (le width n).length = width := by
  induction width generalizing n with
  | zero => rfl
  | succ width ih => simp [le, ih]

theorem ofLE_le (width n : Nat) : ofLE (le width n) = n % capacity width := by
  induction width generalizing n with
  | zero => simp [le, ofLE, capacity, Nat.mod_one]
  | succ width ih =>
    have h8 : (UInt8.ofNat n).toNat = n % 256 := UInt8.toNat_ofNat'
    rw [le, ofLE, ih, h8, capacity, Nat.mod_mul]

theorem ofLE_le_of_lt {width n : Nat} (h : n < capacity width) : ofLE (le width n) = n := by
  rw [ofLE_le, Nat.mod_eq_of_lt h]

theorem le_ofLE (bytes : Bytes) : le bytes.length (ofLE bytes) = bytes := by
  induction bytes with
  | nil => rfl
  | cons b rest ih =>
    have hb : b.toNat < 256 := b.toNat_lt
    have hdiv : (b.toNat + 256 * ofLE rest) / 256 = ofLE rest := by omega
    have hmod : UInt8.ofNat (b.toNat + 256 * ofLE rest) = b := by
      apply UInt8.toNat_inj.1
      have h8 : (UInt8.ofNat (b.toNat + 256 * ofLE rest)).toNat
          = (b.toNat + 256 * ofLE rest) % 256 := UInt8.toNat_ofNat'
      omega
    simp [le, ofLE, hdiv, hmod, ih]

theorem ofBE_reverse (bytes : Bytes) : ofBE bytes.reverse = ofLE bytes := by
  unfold ofBE
  rw [List.foldl_reverse]
  induction bytes with
  | nil => rfl
  | cons b rest ih => simp only [List.foldr_cons, ofLE, ih]; omega

theorem ofBE_be {width n : Nat} (h : n < capacity width) : ofBE (be width n) = n := by
  rw [be, ofBE_reverse, ofLE_le_of_lt h]

@[simp] theorem length_be (width n : Nat) : (be width n).length = width := by simp [be]

end Telemetry.Codec
