import Telemetry.Compress.Inflate
import Telemetry.Digest.Crc32

namespace Telemetry.Compress.Gzip

open Codec Digest

def maxField : Nat := 65535

def skipField (room : Nat) : Bytes → Option Bytes
  | [] => none
  | b :: rest =>
    if b = 0 then some rest
    else match room with
      | 0 => none
      | room + 1 => skipField room rest

def skipExtra : Bytes → Option Bytes
  | l₀ :: l₁ :: rest =>
    let length := ofLE [l₀, l₁]
    let after := rest.drop length
    if after.length + length = rest.length then some after else none
  | _ => none

def when (present : Bool) (skip : Bytes → Option Bytes) (bytes : Bytes) : Option Bytes :=
  if present then skip bytes else some bytes

def skipCheck (all : Bytes) (bytes : Bytes) : Option Bytes :=
  match bytes with
  | c₀ :: c₁ :: rest =>
    let header := all.take (all.length - bytes.length)
    if ofLE [c₀, c₁] = (Crc32.checksum header).toNat % 65536 then some rest else none
  | _ => none

/-- The octets behind the header. Bits of the flags: 1 for a check sum, 2 for an extra field, 3 for
a name, 4 for a comment, and the upper three clear. -/
def skipHeader (all : Bytes) : Option Bytes :=
  match all with
  | 0x1f :: 0x8b :: 8 :: flags :: _ :: _ :: _ :: _ :: _ :: _ :: rest =>
    let bit (i : Nat) := flags.toNat.testBit i
    if bit 5 || bit 6 || bit 7 then none
    else do
      let rest ← when (bit 2) skipExtra rest
      let rest ← when (bit 3) (skipField maxField) rest
      let rest ← when (bit 4) (skipField maxField) rest
      when (bit 1) (skipCheck all) rest
  | _ => none

/-- What the first member holds. -/
def decompress? (bytes : Bytes) : Option Bytes := do
  let body ← skipHeader bytes
  let (out, rest) ← Inflate.inflate body
  match rest with
  | c₀ :: c₁ :: c₂ :: c₃ :: n₀ :: n₁ :: n₂ :: n₃ :: _ =>
    if ofLE [c₀, c₁, c₂, c₃] = (Crc32.checksum out).toNat
        ∧ ofLE [n₀, n₁, n₂, n₃] = out.length % UInt32.size then some out
    else none
  | _ => none

def header : Bytes := [0x1f, 0x8b, 8, 0, 0, 0, 0, 0, 0, 255]

def compress (bytes : Bytes) : Bytes :=
  header ++ Inflate.deflate bytes ++ le 4 (Crc32.checksum bytes).toNat ++ le 4 bytes.length

end Telemetry.Compress.Gzip
