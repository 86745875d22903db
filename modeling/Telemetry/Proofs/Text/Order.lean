import Mathlib.Data.List.Basic
import Telemetry.Uuid

namespace Telemetry

open Codec Text

section Lists

variable {α : Type} [LT α]

theorem append_lt_append_iff {a b c d : List α} (h : a.length = c.length) :
    a ++ b < c ++ d ↔ a < c ∨ a = c ∧ b < d := by
  induction a generalizing c with
  | nil =>
    have hc : c = [] := List.length_eq_zero_iff.1 h.symm
    simp [hc]
  | cons x a ih =>
    cases c with
    | nil => cases h
    | cons y c =>
      have hrest := ih (Nat.succ.inj h)
      simp only [List.cons_append, List.cons_lt_cons_iff, hrest, List.cons.injEq, and_or_left,
        or_assoc, and_assoc]

theorem lt_iff_take_drop {xs ys : List α} {n : Nat} (hx : n ≤ xs.length) (hy : n ≤ ys.length) :
    xs < ys ↔ xs.take n < ys.take n ∨ xs.take n = ys.take n ∧ xs.drop n < ys.drop n := by
  have hlength : (xs.take n).length = (ys.take n).length := by
    rw [List.length_take, List.length_take, Nat.min_eq_left hx, Nat.min_eq_left hy]
  rw [← append_lt_append_iff hlength, List.take_append_drop, List.take_append_drop]

end Lists

namespace Text.Hex

theorem digit_lt_iff {m n : Nat} (hm : m < 16) (hn : n < 16) : digit m < digit n ↔ m < n := by
  have hall : ∀ a b : Fin 16, digit a < digit b ↔ a < b := by decide
  exact hall ⟨m, hm⟩ ⟨n, hn⟩

theorem digit_inj {m n : Nat} (hm : m < 16) (hn : n < 16) : digit m = digit n ↔ m = n := by
  have hall : ∀ a b : Fin 16, digit a = digit b ↔ a = b := by decide
  simpa using hall ⟨m, hm⟩ ⟨n, hn⟩

theorem high_lt (b : UInt8) : b.toNat / 16 < 16 := by
  have hb : b.toNat < 256 := b.toNat_lt
  omega

theorem low_lt (b : UInt8) : b.toNat % 16 < 16 := Nat.mod_lt _ (by decide)

theorem encodeOctet_lt_iff (a b : UInt8) : encodeOctet a < encodeOctet b ↔ a < b := by
  rw [encodeOctet, encodeOctet, List.cons_lt_cons_iff, List.cons_lt_cons_iff,
    digit_lt_iff (high_lt a) (high_lt b), digit_inj (high_lt a) (high_lt b),
    digit_lt_iff (low_lt a) (low_lt b), UInt8.lt_iff_toNat_lt]
  simp only [List.not_lt_nil, and_false, or_false]
  omega

theorem encodeOctet_inj (a b : UInt8) : encodeOctet a = encodeOctet b ↔ a = b := by
  rw [encodeOctet, encodeOctet, List.cons.injEq, List.cons.injEq,
    digit_inj (high_lt a) (high_lt b), digit_inj (low_lt a) (low_lt b), ← UInt8.toNat_inj,
    eq_self, and_true]
  omega

theorem encode_cons (x : UInt8) (xs : Bytes) : encode (x :: xs) = encodeOctet x ++ encode xs :=
  List.flatMap_cons

theorem length_encode (xs : Bytes) : (encode xs).length = 2 * xs.length := by
  induction xs with
  | nil => rfl
  | cons x xs ih =>
    rw [encode_cons, List.length_append, ih]
    simp only [encodeOctet, List.length_cons, List.length_nil]
    omega

theorem encode_lt_iff (xs ys : Bytes) : encode xs < encode ys ↔ xs < ys := by
  induction xs generalizing ys with
  | nil =>
    cases ys with
    | nil => simp
    | cons y ys => simp [encode, encodeOctet]
  | cons x xs ih =>
    cases ys with
    | nil => simp [encode]
    | cons y ys =>
      have hlength : (encodeOctet x).length = (encodeOctet y).length := rfl
      rw [encode_cons, encode_cons, append_lt_append_iff hlength, encodeOctet_lt_iff,
        encodeOctet_inj, ih ys, List.cons_lt_cons_iff]

theorem encode_inj (xs ys : Bytes) : encode xs = encode ys ↔ xs = ys := by
  refine ⟨fun h => List.le_antisymm ?_ ?_, fun h => congrArg encode h⟩
  · rw [← List.not_lt, ← encode_lt_iff, h]
    exact List.lt_irrefl _
  · rw [← List.not_lt, ← encode_lt_iff, h]
    exact List.lt_irrefl _

theorem group_lt_iff {xs ys : Bytes} {n : Nat} {s t : List Char} (hx : n ≤ xs.length)
    (hy : n ≤ ys.length) (hrest : s < t ↔ xs.drop n < ys.drop n) :
    encode (xs.take n) ++ '-' :: s < encode (ys.take n) ++ '-' :: t ↔ xs < ys := by
  have hlength : (encode (xs.take n)).length = (encode (ys.take n)).length := by
    rw [length_encode, length_encode, List.length_take, List.length_take, Nat.min_eq_left hx,
      Nat.min_eq_left hy]
  rw [append_lt_append_iff hlength, encode_lt_iff, encode_inj, List.cons_lt_cons_self, hrest,
    ← lt_iff_take_drop hx hy]

end Text.Hex

namespace Uuid

theorem toChars_lt_iff (a b : Uuid) : a.toChars < b.toChars ↔ a.before b := by
  have ha := a.length_bytes
  have hb := b.length_bytes
  simp only [toChars, before, decide_eq_true_eq, List.append_assoc, List.cons_append,
    List.drop_zero]
  refine Hex.group_lt_iff (by omega) (by omega) ?_
  refine Hex.group_lt_iff (by simp [ha]) (by simp [hb]) ?_
  simp only [List.drop_drop]
  refine Hex.group_lt_iff (by simp [ha]) (by simp [hb]) ?_
  simp only [List.drop_drop]
  refine Hex.group_lt_iff (by simp [ha]) (by simp [hb]) ?_
  simp only [List.drop_drop]
  rw [List.take_of_length_le (by simp [ha]), List.take_of_length_le (by simp [hb])]
  exact Hex.encode_lt_iff _ _

theorem toChars_inj {a b : Uuid} (h : a.toChars = b.toChars) : a = b := by
  have hnot {a b : Uuid} (h : a.toChars = b.toChars) : ¬a.bytes < b.bytes := by
    intro hlt
    have hchars := (toChars_lt_iff a b).2 (decide_eq_true hlt)
    rw [h] at hchars
    exact List.lt_irrefl _ hchars
  exact ext (List.le_antisymm (List.not_lt.1 (hnot h.symm)) (List.not_lt.1 (hnot h)))

end Uuid

end Telemetry
