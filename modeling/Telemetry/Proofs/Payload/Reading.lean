import Telemetry.Event.Record
import Telemetry.Proofs.Codec.Reading

namespace Telemetry

open Codec Text

namespace Value

mutual

/-- The lengths inside a value are below 64 bits. -/
def Measured : Value → Prop
  | text s => Utf8.size s < capacity 8
  | bytes bs => bs.length < capacity 8
  | array vs => vs.length < capacity 8 ∧ MeasuredAll vs
  | tuple vs => vs.length < capacity 8 ∧ MeasuredAll vs
  | _ => True

def MeasuredAll : List Value → Prop
  | [] => True
  | v :: vs => Measured v ∧ MeasuredAll vs

end

theorem measuredAll_iff {vs : List Value} : MeasuredAll vs ↔ ∀ v ∈ vs, v.Measured := by
  induction vs with
  | nil => simp [MeasuredAll]
  | cons v vs ih => simp [MeasuredAll, ih]

theorem encodeAll_eq_flatMap (vs : List Value) : encodeAll vs = vs.flatMap encode := by
  induction vs with
  | nil => rfl
  | cons v vs ih => rw [encodeAll, ih, List.flatMap_cons]

theorem size_pos (v : Value) : 0 < v.size := by
  cases v <;> simp only [size] <;> omega

theorem length_le_sizeAll (vs : List Value) : vs.length ≤ sizeAll vs := by
  induction vs with
  | nil => exact Nat.le_refl 0
  | cons v vs ih =>
    have hv := size_pos v
    rw [List.length_cons, sizeAll]
    omega

mutual

theorem measured_of_size : (v : Value) → v.size < capacity 8 → v.Measured
  | bool _, _ | int32 _, _ | uint32 _, _ | int64 _, _ | uint64 _, _ | double _, _ => trivial
  | text s, h => by
    rw [size] at h
    rw [Measured]
    omega
  | bytes bs, h => by
    rw [size] at h
    rw [Measured]
    omega
  | array vs, h => by
    have hlength := length_le_sizeAll vs
    rw [size] at h
    exact ⟨by omega, measuredAll_of_size vs (by omega)⟩
  | tuple vs, h => by
    have hlength := length_le_sizeAll vs
    rw [size] at h
    exact ⟨by omega, measuredAll_of_size vs (by omega)⟩

theorem measuredAll_of_size : (vs : List Value) → sizeAll vs < capacity 8 → MeasuredAll vs
  | [], _ => trivial
  | v :: vs, h => by
    rw [sizeAll] at h
    exact ⟨measured_of_size v (by omega), measuredAll_of_size vs (by omega)⟩

end

theorem reads_elements {d : Decoder Value} {vs : List Value} (hl : vs.length < capacity 8)
    (h : ∀ v ∈ vs, Reads d (encode v) v) :
    Reads (Decoder.list d) (encodeLength vs.length ++ encodeAll vs) vs := by
  rw [encodeAll_eq_flatMap]
  exact Reads.list ⟨hl, h⟩

theorem reads_tag {n : Nat} (h : n < 10) : Reads (Decoder.tag 10) (encodeTag n) n :=
  Reads.tag 10 n h (by decide)

mutual

/-- As many levels as the value has octets suffice. -/
theorem reads_decoderWithin : (v : Value) → (fuel : Bytes) → v.size ≤ fuel.length →
    v.Measured → Reads (decoderWithin fuel) (encode v) v
  | v, [], hf, _ => absurd hf (Nat.not_le.2 v.size_pos)
  | bool b, _ :: _, _, _ => (reads_tag (n := 0) (by decide)).bind (Reads.boolean b).map
  | int32 n, _ :: _, _, _ => (reads_tag (n := 1) (by decide)).bind (Reads.int32 n).map
  | uint32 n, _ :: _, _, _ => (reads_tag (n := 2) (by decide)).bind (Reads.uint32 n).map
  | int64 n, _ :: _, _, _ => (reads_tag (n := 3) (by decide)).bind (Reads.int64 n).map
  | uint64 n, _ :: _, _, _ => (reads_tag (n := 4) (by decide)).bind (Reads.uint64 n).map
  | double bits, _ :: _, _, _ => (reads_tag (n := 5) (by decide)).bind (Reads.uint64 bits).map
  | text s, _ :: _, _, hm => by
    have hr : Reads Decoder.text (encodeText s) s := Reads.text hm
    exact (reads_tag (n := 6) (by decide)).bind hr.map
  | bytes bs, _ :: _, _, hm => by
    have hr : Reads Decoder.counted (encodeBytes bs) bs := Reads.counted hm
    exact (reads_tag (n := 7) (by decide)).bind hr.map
  | array vs, _ :: fuel, hf, hm => by
    rw [size] at hf
    rw [List.length_cons] at hf
    have hall := reads_all vs fuel (by omega) hm.2
    exact (reads_tag (n := 8) (by decide)).bind (reads_elements hm.1 hall).map
  | tuple vs, _ :: fuel, hf, hm => by
    rw [size] at hf
    rw [List.length_cons] at hf
    have hall := reads_all vs fuel (by omega) hm.2
    exact (reads_tag (n := 9) (by decide)).bind (reads_elements hm.1 hall).map

theorem reads_all : (vs : List Value) → (fuel : Bytes) → sizeAll vs ≤ fuel.length →
    MeasuredAll vs → ∀ v ∈ vs, Reads (decoderWithin fuel) (encode v) v
  | [], _, _, _ => fun _ h => nomatch h
  | v :: vs, fuel, hf, hm => by
    rw [sizeAll] at hf
    have hv := reads_decoderWithin v fuel (by omega) hm.1
    have hvs := reads_all vs fuel (by omega) hm.2
    intro u hu
    obtain rfl | hu := List.mem_cons.1 hu
    · exact hv
    · exact hvs u hu

end

theorem reads_decoder {v : Value} (hm : v.Measured) : Reads decoder (encode v) v := by
  intro rest
  apply reads_decoderWithin v _ _ hm
  rw [List.length_append, length_encode]
  exact Nat.le_add_right _ _

theorem encode_ne_nil (v : Value) : v.encode ≠ [] := by
  rw [← List.length_pos_iff, length_encode]
  exact v.size_pos

end Value

namespace Payload

def Measured : Payload → Prop
  | none => True
  | some v => v.Measured

theorem measured_of_length {p : Payload} (h : p.store.length < capacity 8) : p.Measured := by
  cases p with
  | none => trivial
  | some v =>
    rw [store, Value.length_encode] at h
    exact Value.measured_of_size v h

theorem restore_of_ne_nil {bytes : Bytes} (h : bytes ≠ []) :
    restore bytes = (Value.decoder.decode bytes).map some := by
  rw [restore, if_neg (by simpa using h)]

theorem restore_store {p : Payload} (h : p.Measured) : restore p.store = .ok p := by
  cases p with
  | none => rfl
  | some v =>
    rw [store, restore_of_ne_nil v.encode_ne_nil, (Value.reads_decoder h).decode]
    rfl

theorem measured_of_size {p : Payload} (h : p.size < capacity 8) : p.Measured := by
  cases p with
  | none => trivial
  | some v =>
    rw [size] at h
    exact Value.measured_of_size v (by omega)

theorem reads_decoder {p : Payload} (h : p.Measured) : Reads decoder p.encode p := by
  cases p with
  | none => exact Reads.optionNone _
  | some v => exact Reads.optionSome (Value.reads_decoder h)

end Payload

end Telemetry
