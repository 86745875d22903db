import Telemetry.Codec.Decoder
import Telemetry.Payload.Value

namespace Telemetry

open Codec Text

namespace Codec

def encodeUInt32 (n : UInt32) : Bytes := le 4 n.toNat

def encodeUInt64 (n : UInt64) : Bytes := le 8 n.toNat

def encodeInt64 (n : Int64) : Bytes := le 8 n.toUInt64.toNat

def encodeBool (b : Bool) : Bytes := [if b then 1 else 0]

def encodeLength (n : Nat) : Bytes := le 8 n

def encodeText (s : List Char) : Bytes := encodeLength (Utf8.size s) ++ Utf8.encode s

def encodeBytes (bs : Bytes) : Bytes := encodeLength bs.length ++ bs

def encodeOption {α : Type} (enc : α → Bytes) : Option α → Bytes
  | none => [0]
  | some a => 1 :: enc a

def encodeList {α : Type} (enc : α → Bytes) (as : List α) : Bytes :=
  encodeLength as.length ++ as.flatMap enc

def encodeTag (n : Nat) : Bytes := le 4 n

end Codec

namespace Value

mutual

def encode : Value → Bytes
  | bool b => encodeTag 0 ++ encodeBool b
  | int32 n => encodeTag 1 ++ encodeUInt32 n.toUInt32
  | uint32 n => encodeTag 2 ++ encodeUInt32 n
  | int64 n => encodeTag 3 ++ encodeInt64 n
  | uint64 n => encodeTag 4 ++ encodeUInt64 n
  | double bits => encodeTag 5 ++ encodeUInt64 bits
  | text s => encodeTag 6 ++ encodeText s
  | bytes bs => encodeTag 7 ++ encodeBytes bs
  | array vs => encodeTag 8 ++ (encodeLength vs.length ++ encodeAll vs)
  | tuple vs => encodeTag 9 ++ (encodeLength vs.length ++ encodeAll vs)

def encodeAll : List Value → Bytes
  | [] => []
  | v :: vs => encode v ++ encodeAll vs

end

/-- Reads a value. Every level of nesting takes a tag, so as many levels as there are octets in
`fuel` suffice where `fuel` is as long as the input. -/
def decoderWithin : (fuel : Bytes) → Decoder Value
  | [] => Decoder.fail .endOfInput
  | _ :: fuel => do
    match ← Decoder.tag 10 with
    | 0 => return bool (← Decoder.boolean)
    | 1 => return int32 (← Decoder.int32)
    | 2 => return uint32 (← Decoder.uint32)
    | 3 => return int64 (← Decoder.int64)
    | 4 => return uint64 (← Decoder.uint64)
    | 5 => return double (← Decoder.uint64)
    | 6 => return text (← Decoder.text)
    | 7 => return bytes (← Decoder.counted)
    | 8 => return array (← Decoder.list (decoderWithin fuel))
    | _ => return tuple (← Decoder.list (decoderWithin fuel))

def decoder : Decoder Value := fun bytes => decoderWithin bytes bytes

end Value

namespace Payload

/-- The stored form: nothing for no value. -/
def store : Payload → Bytes
  | none => []
  | some v => v.encode

def restore (bytes : Bytes) : Except DecodeError Payload :=
  if bytes.isEmpty then .ok none else (Value.decoder.decode bytes).map some

def restoreMessage (cause : DecodeError) : String := "Failed to decode payload: " ++ cause.message

def encode (p : Payload) : Bytes := encodeOption Value.encode p

def decoder : Decoder Payload := Decoder.option Value.decoder

end Payload

end Telemetry
