import Telemetry.Codec.Fixed
import Telemetry.Text.Utf8

namespace Telemetry.Codec

open Text

inductive DecodeError
  | endOfInput
  | shortBlock
  | optionTag (found : Nat)
  | variant (found count : Nat)
  | boolean (found : Nat)
  | utf8 (fault : Utf8.Fault)
  | uuidLength (found : Nat)
  deriving DecidableEq, Repr

def faultMessage (f : Utf8.Fault) : String :=
  match f.invalidLength with
  | some n => "invalid utf-8 sequence of " ++ toString n ++ " bytes from index "
      ++ toString f.validUpTo
  | none => "incomplete utf-8 byte sequence from index " ++ toString f.validUpTo

def DecodeError.message : DecodeError → String
  | .endOfInput => "io error: unexpected end of file"
  | .shortBlock => "io error: "
  | .optionTag found => "tag for enum is not valid, found " ++ toString found
  | .variant found count =>
    "invalid value: integer \x60" ++ toString found ++ "\x60, expected variant index 0 <= i < "
      ++ toString count
  | .boolean found =>
    "invalid u8 while decoding bool, expected 0 or 1, found " ++ toString found
  | .utf8 fault => "string is not valid utf8: " ++ faultMessage fault
  | .uuidLength found =>
    "UUID parsing failed: invalid length: expected 16 bytes, found " ++ toString found

abbrev Decoder := StateT Bytes (Except DecodeError)

namespace Decoder

def decode {α : Type} (d : Decoder α) (bytes : Bytes) : Except DecodeError α :=
  (d bytes).map Prod.fst

def fail {α : Type} (e : DecodeError) : Decoder α := fun _ => .error e

def splitOnto (done : Bytes) : Nat → Bytes → Option (Bytes × Bytes)
  | 0, rest => some (done.reverse, rest)
  | _ + 1, [] => none
  | count + 1, b :: rest => splitOnto (b :: done) count rest

def octets (e : DecodeError) (count : Nat) : Decoder Bytes := fun bytes =>
  match splitOnto [] count bytes with
  | some r => .ok r
  | none => .error e

def number (width : Nat) : Decoder Nat := do
  return ofLE (← octets .endOfInput width)

def uint8 : Decoder UInt8 := do return UInt8.ofNat (← number 1)

def uint32 : Decoder UInt32 := do return UInt32.ofNat (← number 4)

def uint64 : Decoder UInt64 := do return UInt64.ofNat (← number 8)

def int32 : Decoder Int32 := do return (← uint32).toInt32

def int64 : Decoder Int64 := do return (← uint64).toInt64

def boolean : Decoder Bool := do
  let n ← number 1
  if n = 0 then return false
  else if n = 1 then return true
  else fail (.boolean n)

def tag (count : Nat) : Decoder Nat := do
  let n ← number 4
  if n < count then return n else fail (.variant n count)

def option {α : Type} (d : Decoder α) : Decoder (Option α) := do
  let n ← number 1
  if n = 0 then return none
  else if n = 1 then return some (← d)
  else fail (.optionTag n)

def times {α : Type} (d : Decoder α) (done : List α) : Nat → Decoder (List α)
  | 0, bytes => .ok (done.reverse, bytes)
  | count + 1, bytes =>
    match d bytes with
    | .error e => .error e
    | .ok (v, rest) => times d (v :: done) count rest

def list {α : Type} (d : Decoder α) : Decoder (List α) := do times d [] (← number 8)

def counted : Decoder Bytes := do octets .endOfInput (← number 8)

def block : Decoder Bytes := do octets .shortBlock (← number 8)

def text : Decoder (List Char) := do
  match Utf8.decode (← block) with
  | .ok s => return s
  | .error fault => fail (.utf8 fault)

theorem splitOnto_append (done bytes rest : Bytes) :
    splitOnto done bytes.length (bytes ++ rest) = some (done.reverse ++ bytes, rest) := by
  induction bytes generalizing done with
  | nil => simp [splitOnto]
  | cons b bytes ih =>
    simp only [List.length_cons, List.cons_append, splitOnto, ih]
    simp

theorem octets_append (e : DecodeError) (bytes rest : Bytes) :
    octets e bytes.length (bytes ++ rest) = .ok (bytes, rest) := by
  simp [octets, splitOnto_append]

theorem splitOnto_eq_none {count : Nat} {bytes : Bytes} (done : Bytes)
    (h : bytes.length < count) : splitOnto done count bytes = none := by
  induction bytes generalizing count done with
  | nil =>
    cases count with
    | zero => simp at h
    | succ count => rfl
  | cons b bytes ih =>
    cases count with
    | zero => simp at h
    | succ count => exact ih _ (by simpa using h)

end Decoder

end Telemetry.Codec
