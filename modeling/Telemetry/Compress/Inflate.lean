import Telemetry.Compress.Huffman

namespace Telemetry.Compress.Inflate

open Codec

abbrev Output := Array UInt8

def lengthBases : Array Nat :=
  #[3, 4, 5, 6, 7, 8, 9, 10, 11, 13, 15, 17, 19, 23, 27, 31, 35, 43, 51, 59, 67, 83, 99, 115, 131,
    163, 195, 227, 258]

def lengthBits : Array Nat :=
  #[0, 0, 0, 0, 0, 0, 0, 0, 1, 1, 1, 1, 2, 2, 2, 2, 3, 3, 3, 3, 4, 4, 4, 4, 5, 5, 5, 5, 0]

def distanceBases : Array Nat :=
  #[1, 2, 3, 4, 5, 7, 9, 13, 17, 25, 33, 49, 65, 97, 129, 193, 257, 385, 513, 769, 1025, 1537, 2049,
    3073, 4097, 6145, 8193, 12289, 16385, 24577]

def distanceBits : Array Nat :=
  #[0, 0, 0, 0, 1, 1, 2, 2, 3, 3, 4, 4, 5, 5, 6, 6, 7, 7, 8, 8, 9, 9, 10, 10, 11, 11, 12, 12, 13,
    13]

def extended (bases bits : Array Nat) (symbol : Nat) (s : Bits) : Option (Nat × Bits) := do
  let base ← bases[symbol]?
  let (more, s) ← s.take (← bits[symbol]?)
  return (base + more, s)

def fromEnd (distance : Nat) (out : Output) : UInt8 :=
  if distance ≤ out.size then (out[out.size - distance]?).getD 0 else 0

def copy (distance : Nat) : Nat → Output → Output
  | 0, out => out
  | length + 1, out => copy distance length (out.push (fromEnd distance out))

/-- Literals and copies up to the end of a block. Each takes at least one bit, which bounds their
number by `fuel`. -/
def compressed (literals distances : Huffman) : Nat → Output → Bits → Option (Output × Bits)
  | 0, _, _ => none
  | fuel + 1, out, s =>
    match literals.decode s with
    | none => none
    | some (symbol, s) =>
      if symbol < 256 then compressed literals distances fuel (out.push (UInt8.ofNat symbol)) s
      else if symbol = 256 then some (out, s)
      else
        match extended lengthBases lengthBits (symbol - 257) s with
        | none => none
        | some (length, s) =>
          match distances.decode s with
          | none => none
          | some (symbol, s) =>
            match extended distanceBases distanceBits symbol s with
            | none => none
            | some (distance, s) =>
              compressed literals distances fuel (copy distance length out) s

def stow : Nat → Output → Bytes → Option (Output × Bytes)
  | 0, out, rest => some (out, rest)
  | _ + 1, _, [] => none
  | count + 1, out, b :: rest => stow count (out.push b) rest

def stored (out : Output) (bytes : Bytes) : Option (Output × Bytes) :=
  match bytes with
  | l₀ :: l₁ :: n₀ :: n₁ :: rest =>
    let length := ofLE [l₀, l₁]
    if ofLE [n₀, n₁] = 65535 - length then stow length out rest else none
  | _ => none

def fixedLengths : List Nat :=
  List.replicate 144 8 ++ List.replicate 112 9 ++ List.replicate 24 7 ++ List.replicate 8 8

def fixedCodes? : Option (Huffman × Huffman) := do
  return (← Huffman.ofLengths? fixedLengths, ← Huffman.ofLengths? (List.replicate 32 5))

def lengthOrder : List Nat := [16, 17, 18, 0, 8, 7, 9, 6, 10, 5, 11, 4, 12, 3, 13, 2, 14, 1, 15]

def smallLengths : List Nat → Bits → Option (List (Nat × Nat) × Bits)
  | [], s => some ([], s)
  | symbol :: symbols, s => do
    let (length, s) ← s.take 3
    let (more, s) ← smallLengths symbols s
    return ((symbol, length) :: more, s)

def lengths (code : Huffman) (wanted : Nat) : Nat → List Nat → Bits → Option (List Nat × Bits)
  | 0, _, _ => none
  | fuel + 1, done, s =>
    if done.length = wanted then some (done.reverse, s)
    else if wanted < done.length then none
    else do
      let (symbol, s) ← code.decode s
      if symbol < 16 then lengths code wanted fuel (symbol :: done) s
      else if symbol = 16 then
        let (n, s) ← s.take 2
        lengths code wanted fuel (List.replicate (3 + n) (← done.head?) ++ done) s
      else if symbol = 17 then
        let (n, s) ← s.take 3
        lengths code wanted fuel (List.replicate (3 + n) 0 ++ done) s
      else
        let (n, s) ← s.take 7
        lengths code wanted fuel (List.replicate (11 + n) 0 ++ done) s

def givenCodes (s : Bits) : Option ((Huffman × Huffman) × Bits) := do
  let (l, s) ← s.take 5
  let (d, s) ← s.take 5
  let (c, s) ← s.take 4
  if 286 < l + 257 ∨ 30 < d + 1 then none
  else
    let (small, s) ← smallLengths (lengthOrder.take (c + 4)) s
    let code ← Huffman.ofLengths? ((List.range 19).map fun i => (small.lookup i).getD 0)
    let wanted := l + 257 + (d + 1)
    let (all, s) ← lengths code wanted (wanted + 1) [] s
    let literals ← Huffman.ofLengths? (all.take (l + 257))
    let distances ← Huffman.ofLengths? (all.drop (l + 257))
    return ((literals, distances), s)

def block (fuel : Nat) (out : Output) (s : Bits) : Option (Output × Bits) :=
  match s.take 2 with
  | some (0, s) => (stored out s.align).map fun (out, rest) => (out, .ofBytes rest)
  | some (1, s) =>
    match fixedCodes? with
    | some (literals, distances) => compressed literals distances fuel out s
    | none => none
  | some (2, s) =>
    match givenCodes s with
    | some ((literals, distances), s) => compressed literals distances fuel out s
    | none => none
  | _ => none

def blocks (size : Nat) : Nat → Output → Bits → Option (Output × Bytes)
  | 0, _, _ => none
  | fuel + 1, out, s =>
    match s.take 1 with
    | none => none
    | some (last, s) =>
      match block size out s with
      | none => none
      | some (out, s) => if last = 1 then some (out, s.align) else blocks size fuel out s

/-- The octets that a deflated sequence holds, and what follows it. -/
def inflate (bytes : Bytes) : Option (Bytes × Bytes) :=
  let bits := 8 * bytes.length + 1
  (blocks bits bits #[] (.ofBytes bytes)).map fun (out, rest) => (out.toList, rest)

def storedBlock (last : Bool) (bytes : Bytes) : Bytes :=
  (if last then 1 else 0) :: le 2 bytes.length ++ le 2 (65535 - bytes.length) ++ bytes

def store : Nat → Bytes → Bytes
  | 0, bytes => storedBlock true bytes
  | count + 1, bytes =>
    let head := bytes.take 65535
    let tail := bytes.drop 65535
    if tail.isEmpty then storedBlock true head else storedBlock false head ++ store count tail

/-- A deflated sequence that holds the octets. -/
def deflate (bytes : Bytes) : Bytes := store (bytes.length / 65535 + 1) bytes

end Telemetry.Compress.Inflate
