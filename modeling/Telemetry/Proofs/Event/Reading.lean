import Telemetry.Proofs.Payload.Reading

namespace Telemetry

open Codec

theorem Uuid.reads_decoder (u : Uuid) : Reads decoder u.encode u := by
  have hl : u.bytes.length < capacity 8 := by
    rw [u.length_bytes]
    decide
  have hb : Reads Decoder.block (encodeBytes u.bytes) u.bytes := Reads.block hl
  rw [encodeBytes, u.length_bytes] at hb
  refine hb.finish ?_
  rw [ofBytes?_bytes]
  exact Reads.pure u

namespace Event

def Singular.Measured (e : Singular) : Prop := e.payload.Measured

def Aggregate.Measured (e : Aggregate) : Prop := e.payload.Measured

def Point.Measured (p : Point) : Prop := p.payload.Measured

def Sequence.Measured (e : Sequence) : Prop := Listed Point.Measured e.points

/-- The lengths inside a record are below 64 bits. -/
def Record.Measured : Record → Prop
  | .singular e => e.Measured
  | .aggregate e => e.Measured
  | .sequence e => e.Measured

theorem Singular.measured_of_size {e : Singular} (hs : e.size < capacity 8) : e.Measured := by
  rw [size] at hs
  exact Payload.measured_of_size (by omega)

theorem Aggregate.measured_of_size {e : Aggregate} (hs : e.size < capacity 8) : e.Measured := by
  rw [size] at hs
  exact Payload.measured_of_size (by omega)

theorem Point.measured_of_size {p : Point} (hs : p.size < capacity 8) : p.Measured := by
  rw [size] at hs
  exact Payload.measured_of_size (by omega)

theorem Sequence.measured_of_size {e : Sequence} (hs : e.size < capacity 8) : e.Measured := by
  have hlist : (encodeList Point.encode e.points).length < capacity 8 := by
    rw [← length_encode, encode, List.length_append] at hs
    omega
  refine listed_of_size hlist Point.length_encode (fun p => ?_) fun p => Point.measured_of_size
  rw [Point.size]
  omega

theorem Record.measured_of_cost {r : Record} (hs : r.cost < capacity 8) : r.Measured := by
  cases r with
  | singular e =>
    rw [cost] at hs
    exact Singular.measured_of_size (by omega)
  | aggregate e =>
    rw [cost] at hs
    exact Aggregate.measured_of_size (by omega)
  | sequence e =>
    rw [cost] at hs
    exact Sequence.measured_of_size (by omega)

theorem Singular.reads_decoder {e : Singular} (h : e.Measured) : Reads decoder e.encode e := by
  rw [encode, List.append_assoc, List.append_assoc]
  exact (Reads.uint32 e.user).bind ((Uuid.reads_decoder e.event).bind
    ((Reads.int64 e.stamp).bind (Payload.reads_decoder h).map))

theorem Aggregate.reads_decoder {e : Aggregate} (h : e.Measured) : Reads decoder e.encode e := by
  rw [encode, List.append_assoc, List.append_assoc, List.append_assoc]
  exact (Reads.uint32 e.user).bind ((Uuid.reads_decoder e.event).bind
    ((Reads.int64 e.count).bind ((Reads.int64 e.stamp).bind (Payload.reads_decoder h).map)))

theorem Point.reads_decoder {p : Point} (h : p.Measured) : Reads decoder p.encode p :=
  (Reads.int64 p.stamp).bind (Payload.reads_decoder h).map

theorem Sequence.reads_decoder {e : Sequence} (h : e.Measured) : Reads decoder e.encode e := by
  have hpoints := Reads.list (h.imp fun p => Point.reads_decoder)
  rw [encode, List.append_assoc]
  exact (Reads.uint32 e.user).bind ((Uuid.reads_decoder e.event).bind hpoints.map)

theorem Record.reads_decoder {r : Record} (h : r.Measured) : Reads decoder r.encode r := by
  cases r with
  | singular e => exact (Reads.tag 3 0 (by decide) (by decide)).bind (Singular.reads_decoder h).map
  | aggregate e => exact (Reads.tag 3 1 (by decide) (by decide)).bind (Aggregate.reads_decoder h).map
  | sequence e => exact (Reads.tag 3 2 (by decide) (by decide)).bind (Sequence.reads_decoder h).map

theorem Record.decode_encode {r : Record} (hs : r.cost < capacity 8) :
    decoder.decode r.encode = .ok r := (reads_decoder (measured_of_cost hs)).decode

end Event

end Telemetry
