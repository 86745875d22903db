import Telemetry.Codec.Fixed

namespace Telemetry.Digest.Crc32

open Codec

def shift (register : UInt32) : UInt32 :=
  if register &&& 1 = 0 then register >>> 1 else (register >>> 1) ^^^ 0xEDB88320

def octet (register : UInt32) (b : UInt8) : UInt32 :=
  shift (shift (shift (shift (shift (shift (shift (shift (register ^^^ b.toUInt32))))))))

def checksum (bytes : Bytes) : UInt32 := bytes.foldl octet 0xFFFFFFFF ^^^ 0xFFFFFFFF

end Telemetry.Digest.Crc32
