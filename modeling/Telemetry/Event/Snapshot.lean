import Telemetry.Event.Cache
import Telemetry.Payload.Codec

namespace Telemetry.Event

open Codec

namespace CacheRow

def encode (r : CacheRow) : Bytes := encodeLength r.id ++ encodeBytes r.blob

def decoder : Decoder CacheRow := do
  let id ← Decoder.number 8
  return ⟨id, ← Decoder.block⟩

end CacheRow

namespace CacheTable

def encode (t : CacheTable) : Bytes := encodeLength t.nextId ++ encodeList CacheRow.encode t.rows

def decoder : Decoder CacheTable := do
  let nextId ← Decoder.number 8
  return ⟨← Decoder.list CacheRow.decoder, nextId⟩

end CacheTable

end Telemetry.Event
