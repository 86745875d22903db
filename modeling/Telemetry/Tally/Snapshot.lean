import Telemetry.Payload.Codec
import Telemetry.Tally.Store

namespace Telemetry.Tally

open Codec

def encodeInteger (width : Nat) (n : Int) : Bytes := le width (n % capacity width).toNat

def integerDecoder (width : Nat) : Decoder Int := do
  return (Int.ofNat (← Decoder.number width)).bmod (capacity width)

namespace Stored

def encode (r : Stored) : Bytes :=
  encodeLength r.id ++ (encodeText r.key.bucket ++ (r.key.event.encode
    ++ (encodeInteger 8 r.key.user ++ (encodeBytes r.key.payload
      ++ encodeInteger 16 r.counter))))

def decoder : Decoder Stored := do
  let id ← Decoder.number 8
  let bucket ← Decoder.text
  let event ← Uuid.decoder
  let user ← integerDecoder 8
  let payload ← Decoder.block
  return ⟨id, ⟨bucket, event, user, payload⟩, ← integerDecoder 16⟩

end Stored

namespace Table

def encode (t : Table) : Bytes := encodeList Stored.encode t

def decoder : Decoder Table := Decoder.list Stored.decoder

end Table

end Telemetry.Tally
