import Telemetry.Codec.Fixed

namespace Telemetry.Digest.Sha1

open Codec

structure State where
  a : UInt32
  b : UInt32
  c : UInt32
  d : UInt32
  e : UInt32
  deriving DecidableEq, Repr

def initial : State := ⟨0x67452301, 0xEFCDAB89, 0x98BADCFE, 0x10325476, 0xC3D2E1F0⟩

def rotl (x : UInt32) (n : UInt32) : UInt32 := (x <<< n) ||| (x >>> (32 - n))

def pad (message : Bytes) : Bytes :=
  let zeros := (119 - message.length % 64) % 64
  message ++ 0x80 :: List.replicate zeros 0 ++ be 8 (8 * message.length)

def words : Nat → Bytes → List UInt32
  | count + 1, b₀ :: b₁ :: b₂ :: b₃ :: rest =>
    UInt32.ofNat (ofBE [b₀, b₁, b₂, b₃]) :: words count rest
  | _, _ => []

def expand : Nat → List UInt32 → List UInt32
  | 0, ws => ws
  | count + 1, ws =>
    let back (i : Nat) := ws.getD i 0
    expand count (rotl (back 2 ^^^ back 7 ^^^ back 13 ^^^ back 15) 1 :: ws)

def mix (t : Nat) (b c d : UInt32) : UInt32 × UInt32 :=
  if t < 20 then ((b &&& c) ||| (~~~b &&& d), 0x5A827999)
  else if t < 40 then (b ^^^ c ^^^ d, 0x6ED9EBA1)
  else if t < 60 then ((b &&& c) ||| (b &&& d) ||| (c &&& d), 0x8F1BBCDC)
  else (b ^^^ c ^^^ d, 0xCA62C1D6)

def round (s : State) (t : Nat) (w : UInt32) : State :=
  let (f, k) := mix t s.b s.c s.d
  ⟨rotl s.a 5 + f + s.e + k + w, s.a, rotl s.b 30, s.c, s.d⟩

def rounds (s : State) (t : Nat) : List UInt32 → State
  | [] => s
  | w :: ws => rounds (round s t w) (t + 1) ws

def block (s : State) (bytes : Bytes) : State :=
  let s' := rounds s 0 (expand 64 (words 16 bytes).reverse).reverse
  ⟨s.a + s'.a, s.b + s'.b, s.c + s'.c, s.d + s'.d, s.e + s'.e⟩

def blocks (s : State) : Nat → Bytes → State
  | 0, _ => s
  | count + 1, bytes => blocks (block s (bytes.take 64)) count (bytes.drop 64)

def digest (message : Bytes) : Bytes :=
  let padded := pad message
  let s := blocks initial (padded.length / 64) padded
  [s.a, s.b, s.c, s.d, s.e].flatMap fun w => be 4 w.toNat

theorem length_digest (message : Bytes) : (digest message).length = 20 := by
  simp [digest]

end Telemetry.Digest.Sha1
