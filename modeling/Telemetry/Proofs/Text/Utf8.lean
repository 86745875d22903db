import Mathlib.Algebra.Group.Nat.Defs
import Telemetry.Text.Utf8

namespace Telemetry.Text.Utf8

theorem toNat_octet {n : Nat} (h : n < 256) : (octet n).toNat = n := UInt8.toNat_ofNat_of_lt' h

theorem decodeFrom_continue (pos : Nat) (p : Pending) (done : List Char) {n : Nat} (hn : n < 256)
    (hlow : p.low ≤ n) (hhigh : n ≤ p.high) (rest : List UInt8) :
    decodeFrom pos (some p) done (octet n :: rest) =
      if p.want = 1 then
        decodeFrom (pos + p.read + 1) none (Char.ofNat (p.value * 64 + (n - 0x80)) :: done) rest
      else
        decodeFrom pos (some ⟨p.value * 64 + (n - 0x80), p.read + 1, p.want - 1, 0x80, 0xBF⟩) done
          rest := by
  rw [decodeFrom]
  simp only [toNat_octet hn, hlow, hhigh, and_self, if_true]

theorem decodeFrom_begin (pos : Nat) (done : List Char) {n : Nat} (hn : n < 256) (hlong : 0x80 ≤ n)
    {p : Pending} (hp : begin? n = some p) (rest : List UInt8) :
    decodeFrom pos none done (octet n :: rest) = decodeFrom pos (some p) done rest := by
  have hshort : ¬n < 0x80 := Nat.not_lt.2 hlong
  rw [decodeFrom]
  simp only [toNat_octet hn, hshort, if_false, hp]

theorem begin_three {n : Nat} (hl : 0x800 ≤ n) (hh : n < 0x10000)
    (hv : n < 0xD800 ∨ 0xDFFF < n) :
    ∃ p, begin? (0xE0 + n / 4096) = some p ∧ p.value = n / 4096 ∧ p.read = 1 ∧ p.want = 2 ∧
      p.low ≤ 0x80 + n / 64 % 64 ∧ 0x80 + n / 64 % 64 ≤ p.high := by
  have h1 : ¬0xE0 + n / 4096 < 0xC2 := by omega
  have h2 : ¬0xE0 + n / 4096 < 0xE0 := by omega
  rw [begin?, if_neg h1, if_neg h2]
  by_cases he0 : 0xE0 + n / 4096 = 0xE0
  · rw [if_pos he0]
    exact ⟨_, rfl, by dsimp only; omega, rfl, rfl, by dsimp only; omega, by dsimp only; omega⟩
  · rw [if_neg he0]
    by_cases hed : 0xE0 + n / 4096 = 0xED
    · rw [if_pos hed]
      exact ⟨_, rfl, by dsimp only; omega, rfl, rfl, by dsimp only; omega, by dsimp only; omega⟩
    · have hlt : 0xE0 + n / 4096 < 0xF0 := by omega
      rw [if_neg hed, if_pos hlt]
      exact ⟨_, rfl, by dsimp only; omega, rfl, rfl, by dsimp only; omega, by dsimp only; omega⟩

theorem begin_four {n : Nat} (hl : 0x10000 ≤ n) (hh : n < 0x110000) :
    ∃ p, begin? (0xF0 + n / 262144) = some p ∧ p.value = n / 262144 ∧ p.read = 1 ∧ p.want = 3 ∧
      p.low ≤ 0x80 + n / 4096 % 64 ∧ 0x80 + n / 4096 % 64 ≤ p.high := by
  have h1 : ¬0xF0 + n / 262144 < 0xC2 := by omega
  have h2 : ¬0xF0 + n / 262144 < 0xE0 := by omega
  have h3 : ¬0xF0 + n / 262144 = 0xE0 := by omega
  have h4 : ¬0xF0 + n / 262144 = 0xED := by omega
  have h5 : ¬0xF0 + n / 262144 < 0xF0 := by omega
  rw [begin?, if_neg h1, if_neg h2, if_neg h3, if_neg h4, if_neg h5]
  by_cases hf0 : 0xF0 + n / 262144 = 0xF0
  · rw [if_pos hf0]
    exact ⟨_, rfl, by dsimp only; omega, rfl, rfl, by dsimp only; omega, by dsimp only; omega⟩
  · rw [if_neg hf0]
    by_cases hlt : 0xF0 + n / 262144 < 0xF4
    · rw [if_pos hlt]
      exact ⟨_, rfl, by dsimp only; omega, rfl, rfl, by dsimp only; omega, by dsimp only; omega⟩
    · have hf4 : 0xF0 + n / 262144 = 0xF4 := by omega
      rw [if_neg hlt, if_pos hf4]
      exact ⟨_, rfl, by dsimp only; omega, rfl, rfl, by dsimp only; omega, by dsimp only; omega⟩

theorem decodeFrom_encodeChar (pos : Nat) (done : List Char) (c : Char) (rest : List UInt8) :
    decodeFrom pos none done (encodeChar c ++ rest) =
      decodeFrom (pos + (encodeChar c).length) none (c :: done) rest := by
  have hc : Char.ofNat c.toNat = c := Char.ofNat_toNat c
  have hv : c.toNat < 0xD800 ∨ 0xDFFF < c.toNat ∧ c.toNat < 0x110000 := c.valid
  generalize hn : c.toNat = n at hc hv
  rw [encodeChar]
  simp only [hn]
  split
  · next h =>
    rw [List.singleton_append, decodeFrom]
    simp only [toNat_octet (show n < 256 by omega), h, if_true, hc, List.length_singleton]
  · next h1 =>
    split
    · next h2 =>
      have hb : begin? (0xC0 + n / 64) = some ⟨n / 64, 1, 1, 0x80, 0xBF⟩ := by
        have hlow : ¬0xC0 + n / 64 < 0xC2 := by omega
        have hhigh : 0xC0 + n / 64 < 0xE0 := by omega
        have hsub : 0xC0 + n / 64 - 0xC0 = n / 64 := by omega
        rw [begin?, if_neg hlow, if_pos hhigh, hsub]
      have hval : n / 64 * 64 + (0x80 + n % 64 - 0x80) = n := by omega
      rw [List.cons_append, decodeFrom_begin pos done (by omega) (by omega) hb, List.cons_append,
        decodeFrom_continue _ _ _ (by omega) (by dsimp only; omega) (by dsimp only; omega)]
      simp only [if_true, hval, hc]
      rfl
    · next h2 =>
      split
      · next h3 =>
        obtain ⟨p, hb, hvalue, hread, hwant, hlow, hhigh⟩ :=
          begin_three (Nat.not_lt.1 h2) h3 (by omega)
        have hval : (n / 4096 * 64 + (0x80 + n / 64 % 64 - 0x80)) * 64 + (0x80 + n % 64 - 0x80) = n := by
          omega
        rw [List.cons_append, decodeFrom_begin pos done (by omega) (by omega) hb, List.cons_append,
          decodeFrom_continue _ _ _ (by omega) hlow hhigh, List.cons_append, hwant,
          if_neg (by decide), decodeFrom_continue _ _ _ (by omega) (by dsimp only; omega)
            (by dsimp only; omega)]
        simp only [if_true, hvalue, hread, hval, hc]
        rfl
      · next h3 =>
        obtain ⟨p, hb, hvalue, hread, hwant, hlow, hhigh⟩ :=
          begin_four (Nat.not_lt.1 h3) (by omega)
        have hval : ((n / 262144 * 64 + (0x80 + n / 4096 % 64 - 0x80)) * 64 +
            (0x80 + n / 64 % 64 - 0x80)) * 64 + (0x80 + n % 64 - 0x80) = n := by
          omega
        rw [List.cons_append, decodeFrom_begin pos done (by omega) (by omega) hb, List.cons_append,
          decodeFrom_continue _ _ _ (by omega) hlow hhigh, List.cons_append, hwant,
          if_neg (by decide), decodeFrom_continue _ _ _ (by omega) (by dsimp only; omega)
            (by dsimp only; omega), if_neg (show ¬3 - 1 = 1 by decide), List.cons_append,
          decodeFrom_continue _ _ _ (by omega) (by dsimp only; omega) (by dsimp only; omega)]
        simp only [if_true, hvalue, hread, hval, hc]
        rfl

theorem decodeFrom_encode (pos : Nat) (done s : List Char) :
    decodeFrom pos none done (encode s) = .ok (done.reverse ++ s) := by
  induction s generalizing pos done with
  | nil => simp [decodeFrom]
  | cons c s ih =>
    rw [encode_cons, decodeFrom_encodeChar, ih, List.reverse_cons, List.append_assoc]
    rfl

theorem decode_encode (s : List Char) : decode (encode s) = .ok s := decodeFrom_encode 0 [] s

section Canonical

def tailOctets : Nat → Nat → List UInt8
  | 0, _ => []
  | count + 1, n => octet (0x80 + n / 64 ^ count % 64) :: tailOctets count n

/-- The front belongs to every character that can still come of what is pending. -/
structure Begun (front : List UInt8) (p : Pending) : Prop where
  wants : 0 < p.want
  low : 0x80 ≤ p.low
  high : p.high ≤ 0xBF
  completes : ∀ n, n / 64 ^ p.want = p.value → p.low ≤ 0x80 + n / 64 ^ (p.want - 1) % 64 →
    0x80 + n / 64 ^ (p.want - 1) % 64 ≤ p.high →
    encodeChar (Char.ofNat n) = front ++ tailOctets p.want n

variable {n b : Nat}

theorem toNat_ofNat_of_isValidChar (h : n.isValidChar) : (Char.ofNat n).toNat = n := by
  rw [Char.ofNat, dif_pos h]
  rfl

theorem encodeChar_one (h : n < 0x80) : encodeChar (Char.ofNat n) = [octet n] := by
  have hn := toNat_ofNat_of_isValidChar (n := n) (.inl (by omega))
  simp only [encodeChar, hn, h, if_true]

theorem encodeChar_two (hl : 0x80 ≤ n) (hh : n < 0x800) :
    encodeChar (Char.ofNat n) = [octet (0xC0 + n / 64)] ++ tailOctets 1 n := by
  have hn := toNat_ofNat_of_isValidChar (n := n) (.inl (by omega))
  have h1 : ¬n < 0x80 := by omega
  simp [encodeChar, hn, h1, hh, tailOctets]

theorem encodeChar_three (hl : 0x800 ≤ n) (hh : n < 0x10000) (hv : n < 0xD800 ∨ 0xDFFF < n) :
    encodeChar (Char.ofNat n) = [octet (0xE0 + n / 4096)] ++ tailOctets 2 n := by
  have hn := toNat_ofNat_of_isValidChar (n := n) (hv.imp_right fun h => ⟨h, by omega⟩)
  have h1 : ¬n < 0x80 := by omega
  have h2 : ¬n < 0x800 := by omega
  simp [encodeChar, hn, h1, h2, hh, tailOctets]

theorem encodeChar_four (hl : 0x10000 ≤ n) (hh : n < 0x110000) :
    encodeChar (Char.ofNat n) = [octet (0xF0 + n / 262144)] ++ tailOctets 3 n := by
  have hn := toNat_ofNat_of_isValidChar (n := n) (.inr ⟨by omega, hh⟩)
  have h1 : ¬n < 0x80 := by omega
  have h2 : ¬n < 0x800 := by omega
  have h3 : ¬n < 0x10000 := by omega
  simp [encodeChar, hn, h1, h2, h3, tailOctets]

variable {value low high : Nat}

theorem begun_three (hb : 0xE0 + value = b) (hv : value < 16) (hlow : 0x80 ≤ low)
    (hhigh : high ≤ 0xBF) (hshort : value = 0 → 0xA0 ≤ low) (hgap : value = 0xD → high ≤ 0x9F) :
    Begun [octet b] ⟨value, 1, 2, low, high⟩ := by
  refine ⟨Nat.succ_pos 1, hlow, hhigh, fun n hn hl hh => ?_⟩
  simp only [Nat.reducePow, Nat.reduceSub] at hn hl hh
  rw [encodeChar_three (by omega) (by omega) (by omega), hn, hb]

theorem begun_four (hb : 0xF0 + value = b) (hv : value ≤ 4) (hlow : 0x80 ≤ low)
    (hhigh : high ≤ 0xBF) (hshort : value = 0 → 0x90 ≤ low) (hlarge : value = 4 → high ≤ 0x8F) :
    Begun [octet b] ⟨value, 1, 3, low, high⟩ := by
  refine ⟨Nat.succ_pos 2, hlow, hhigh, fun n hn hl hh => ?_⟩
  simp only [Nat.reducePow, Nat.reduceSub] at hn hl hh
  rw [encodeChar_four (by omega) (by omega), hn, hb]

theorem begun_begin {p : Pending} (h : begin? b = some p) : Begun [octet b] p := by
  rw [begin?] at h
  split at h
  · cases h
  split at h
  · obtain rfl := Option.some.inj h
    refine ⟨Nat.one_pos, Nat.le_refl _, Nat.le_refl _, fun n hn _ _ => ?_⟩
    simp only [Nat.pow_one] at hn
    have hb : 0xC0 + n / 64 = b := by omega
    rw [encodeChar_two (by omega) (by omega), hb]
  split at h
  · obtain rfl := Option.some.inj h
    exact begun_three (by omega) (by omega) (by omega) (by omega) (by omega) (by omega)
  split at h
  · obtain rfl := Option.some.inj h
    exact begun_three (by omega) (by omega) (by omega) (by omega) (by omega) (by omega)
  split at h
  · obtain rfl := Option.some.inj h
    exact begun_three (by omega) (by omega) (by omega) (by omega) (by omega) (by omega)
  split at h
  · obtain rfl := Option.some.inj h
    exact begun_four (by omega) (by omega) (by omega) (by omega) (by omega) (by omega)
  split at h
  · obtain rfl := Option.some.inj h
    exact begun_four (by omega) (by omega) (by omega) (by omega) (by omega) (by omega)
  split at h
  · obtain rfl := Option.some.inj h
    exact begun_four (by omega) (by omega) (by omega) (by omega) (by omega) (by omega)
  · cases h

variable {front : List UInt8} {p : Pending} {c : Nat}

theorem Begun.next (h : Begun front p) (hl : p.low ≤ c) (hh : c ≤ p.high)
    (hn : n / 64 ^ (p.want - 1) = p.value * 64 + (c - 0x80)) :
    encodeChar (Char.ofNat n) = front ++ octet c :: tailOctets (p.want - 1) n := by
  have hlow := h.low
  have hhigh := h.high
  have hcompletes := h.completes n
  obtain ⟨count, hcount⟩ := Nat.exists_eq_succ_of_ne_zero (Nat.ne_of_gt h.wants)
  rw [hcount, Nat.succ_sub_one] at hn hcompletes ⊢
  rw [Nat.pow_succ, ← Nat.div_div_eq_div_mul, hn, tailOctets, hn] at hcompletes
  -- the six bits that the octet brings are those of the character at its place
  have hrest : 0x80 + (p.value * 64 + (c - 0x80)) % 64 = c := by omega
  rw [hrest] at hcompletes
  exact hcompletes (by omega) hl hh

theorem Begun.complete (h : Begun front p) (hl : p.low ≤ c) (hh : c ≤ p.high) (hw : p.want = 1) :
    encodeChar (Char.ofNat (p.value * 64 + (c - 0x80))) = front ++ [octet c] := by
  have hnext := h.next (n := p.value * 64 + (c - 0x80)) hl hh
  rw [hw, Nat.sub_self, Nat.pow_zero, Nat.div_one] at hnext
  exact hnext rfl

theorem Begun.step (h : Begun front p) (hl : p.low ≤ c) (hh : c ≤ p.high) (hw : p.want ≠ 1) :
    Begun (front ++ [octet c])
      ⟨p.value * 64 + (c - 0x80), p.read + 1, p.want - 1, 0x80, 0xBF⟩ := by
  have hwants := h.wants
  refine ⟨by dsimp only; omega, Nat.le_refl _, Nat.le_refl _, fun n hn _ _ => ?_⟩
  rw [List.append_assoc]
  exact h.next hl hh hn

def Continues (done s : List Char) (octets : List UInt8) : Prop :=
  ∃ more, s = done.reverse ++ more ∧ encode more = octets

theorem Continues.cons {done s : List Char} {octets : List UInt8} {c : Char}
    (hc : encodeChar c = front) (h : Continues (c :: done) s octets) :
    Continues done s (front ++ octets) := by
  obtain ⟨more, hs, hoctets⟩ := h
  refine ⟨c :: more, ?_, ?_⟩
  · rw [hs, List.reverse_cons, List.append_assoc]
    rfl
  · rw [encode_cons, hc, hoctets]

theorem continues_of_decodeFrom (octets : List UInt8) (pos : Nat) (done s : List Char) :
    (decodeFrom pos none done octets = .ok s → Continues done s octets) ∧
      ∀ {front : List UInt8} {p : Pending}, Begun front p →
        decodeFrom pos (some p) done octets = .ok s → Continues done s (front ++ octets) := by
  induction octets generalizing pos done with
  | nil =>
    refine ⟨fun h => ?_, fun _ h => by cases h⟩
    cases h
    exact ⟨[], (List.append_nil _).symm, rfl⟩
  | cons o octets ih =>
    have ho : octet o.toNat = o := UInt8.ofNat_toNat
    constructor
    · intro h
      rw [decodeFrom] at h
      split at h
      · next hshort =>
        have hchar := encodeChar_one hshort
        rw [ho] at hchar
        exact ((ih _ _).1 h).cons hchar
      · split at h
        · cases h
        · next p hp =>
          have hbegun := begun_begin hp
          rw [ho] at hbegun
          exact (ih _ _).2 hbegun h
    · intro front p hbegun h
      rw [decodeFrom] at h
      split at h
      · next hb =>
        rw [List.append_cons]
        split at h
        · next hw =>
          have hchar := hbegun.complete hb.1 hb.2 hw
          rw [ho] at hchar
          exact ((ih _ _).1 h).cons hchar
        · next hw =>
          have hstep := hbegun.step hb.1 hb.2 hw
          rw [ho] at hstep
          exact (ih _ _).2 hstep h
      · cases h

/-- A text has no other octets than its own. -/
theorem encode_of_decode {octets : List UInt8} {s : List Char} (h : decode octets = .ok s) :
    encode s = octets := by
  obtain ⟨more, rfl, hoctets⟩ := (continues_of_decodeFrom octets 0 [] s).1 h
  exact hoctets

end Canonical

end Telemetry.Text.Utf8
