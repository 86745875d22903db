import Telemetry.Codec.Fixed

namespace Telemetry.Compress

open Codec

/-- The bits not yet read of octets already begun, as a number, how many they are, and the octets
behind them. -/
structure Bits where
  held : Nat
  count : Nat
  rest : Bytes
  deriving DecidableEq, Repr

namespace Bits

def ofBytes (bytes : Bytes) : Bits := ⟨0, 0, bytes⟩

def fill (n held count : Nat) (rest : Bytes) : Option Bits :=
  if n ≤ count then some ⟨held, count, rest⟩
  else match rest with
    | [] => none
    | b :: rest => fill n (held + (b.toNat <<< count)) (count + 8) rest

def take (n : Nat) (s : Bits) : Option (Nat × Bits) :=
  (fill n s.held s.count s.rest).map fun s =>
    (s.held % (1 <<< n), ⟨s.held >>> n, s.count - n, s.rest⟩)

def align (s : Bits) : Bytes := s.rest

end Bits

end Telemetry.Compress
