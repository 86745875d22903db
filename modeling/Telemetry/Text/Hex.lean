namespace Telemetry.Text.Hex

def digit (n : Nat) : Char :=
  if n < 10 then Char.ofNat (48 + n) else Char.ofNat (87 + n)

def value? (c : Char) : Option Nat :=
  let n := c.toNat
  if 48 ≤ n ∧ n ≤ 57 then some (n - 48)
  else if 97 ≤ n ∧ n ≤ 102 then some (n - 87)
  else if 65 ≤ n ∧ n ≤ 70 then some (n - 55)
  else none

def encodeOctet (b : UInt8) : List Char := [digit (b.toNat / 16), digit (b.toNat % 16)]

def encode (bytes : List UInt8) : List Char := bytes.flatMap encodeOctet

def decodeOnto (done : List UInt8) : List Char → Option (List UInt8)
  | [] => some done.reverse
  | high :: low :: rest =>
    match value? high, value? low with
    | some h, some l => decodeOnto (UInt8.ofNat (16 * h + l) :: done) rest
    | _, _ => none
  | [_] => none

def decode? (digits : List Char) : Option (List UInt8) := decodeOnto [] digits

end Telemetry.Text.Hex
