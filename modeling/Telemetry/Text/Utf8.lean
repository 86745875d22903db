import Telemetry.SumOf

namespace Telemetry.Text.Utf8

def octet (n : Nat) : UInt8 := UInt8.ofNat n

def encodeChar (c : Char) : List UInt8 :=
  let n := c.toNat
  if n < 0x80 then [octet n]
  else if n < 0x800 then [octet (0xC0 + n / 64), octet (0x80 + n % 64)]
  else if n < 0x10000 then
    [octet (0xE0 + n / 4096), octet (0x80 + n / 64 % 64), octet (0x80 + n % 64)]
  else
    [octet (0xF0 + n / 262144), octet (0x80 + n / 4096 % 64), octet (0x80 + n / 64 % 64),
     octet (0x80 + n % 64)]

def encode (s : List Char) : List UInt8 := s.flatMap encodeChar

structure Fault where
  validUpTo : Nat
  invalidLength : Option Nat
  deriving DecidableEq, Repr

/-- A character begun: the value of its octets so far, how many there were, how many it still wants
and the bounds of the next one. -/
structure Pending where
  value : Nat
  read : Nat
  want : Nat
  low : Nat := 0x80
  high : Nat := 0xBF
  deriving DecidableEq, Repr

/-- What the first octet of a longer character begins. The bounds of the second octet exclude long
forms, surrogates and values past the last character. -/
def begin? (b : Nat) : Option Pending :=
  if b < 0xC2 then none
  else if b < 0xE0 then some { value := b - 0xC0, read := 1, want := 1 }
  else if b = 0xE0 then some { value := 0, read := 1, want := 2, low := 0xA0 }
  else if b = 0xED then some { value := 0xD, read := 1, want := 2, high := 0x9F }
  else if b < 0xF0 then some { value := b - 0xE0, read := 1, want := 2 }
  else if b = 0xF0 then some { value := 0, read := 1, want := 3, low := 0x90 }
  else if b < 0xF4 then some { value := b - 0xF0, read := 1, want := 3 }
  else if b = 0xF4 then some { value := 4, read := 1, want := 3, high := 0x8F }
  else none

def decodeFrom (pos : Nat) (pending : Option Pending) (done : List Char) :
    List UInt8 → Except Fault (List Char)
  | [] =>
    match pending with
    | none => .ok done.reverse
    | some _ => .error ⟨pos, none⟩
  | octet :: rest =>
    let b := octet.toNat
    match pending with
    | none =>
      if b < 0x80 then decodeFrom (pos + 1) none (Char.ofNat b :: done) rest
      else match begin? b with
        | none => .error ⟨pos, some 1⟩
        | some p => decodeFrom pos (some p) done rest
    | some p =>
      if p.low ≤ b ∧ b ≤ p.high then
        let value := p.value * 64 + (b - 0x80)
        if p.want = 1 then decodeFrom (pos + p.read + 1) none (Char.ofNat value :: done) rest
        else
          let next : Pending := { value := value, read := p.read + 1, want := p.want - 1 }
          decodeFrom pos (some next) done rest
      else .error ⟨pos, some p.read⟩

/-- The text that the octets encode, or the first fault in them. -/
def decode (octets : List UInt8) : Except Fault (List Char) := decodeFrom 0 none [] octets

def size (s : List Char) : Nat := sumOf (fun c => (encodeChar c).length) s

theorem length_encode (s : List Char) : (encode s).length = size s :=
  length_flatMap_eq_sumOf encodeChar s

@[simp] theorem encode_nil : encode [] = [] := rfl

@[simp] theorem encode_cons (c : Char) (s : List Char) :
    encode (c :: s) = encodeChar c ++ encode s := rfl

end Telemetry.Text.Utf8
