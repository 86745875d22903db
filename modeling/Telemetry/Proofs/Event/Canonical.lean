import Telemetry.Proofs.Event.Reading
import Telemetry.Proofs.Payload.Canonical

namespace Telemetry

open Codec

variable {bytes rest : Bytes}

theorem Uuid.bytes_of_ofBytes? {u : Uuid} (h : ofBytes? bytes = some u) : u.bytes = bytes := by
  rw [ofBytes?] at h
  split at h
  · cases h
    rfl
  · cases h

theorem Uuid.decoder_eq_ok {u : Uuid} (h : decoder bytes = .ok (u, rest)) :
    bytes = u.encode ++ rest := by
  obtain ⟨bs, more, hb, hu⟩ := Decoder.bind_eq_ok h
  obtain ⟨rfl, -⟩ := Decoder.block_eq_ok hb
  cases hsixteen : ofBytes? bs with
  | none =>
    rw [hsixteen] at hu
    cases hu
  | some u' =>
    rw [hsixteen] at hu
    cases hu
    rw [← bytes_of_ofBytes? hsixteen, encodeBytes, u.length_bytes]
    rfl

theorem Payload.decoder_eq_ok {p : Payload} (h : decoder bytes = .ok (p, rest)) :
    bytes = p.encode ++ rest ∧ p.Measured := by
  obtain ⟨hbytes, hm⟩ := Decoder.option_eq_ok Value.decoderWithin_eq_ok h
  refine ⟨hbytes, ?_⟩
  cases p with
  | none => trivial
  | some v => exact hm v rfl

namespace Event

theorem Singular.decoder_eq_ok {e : Singular} (h : decoder bytes = .ok (e, rest)) :
    bytes = e.encode ++ rest ∧ e.Measured := by
  obtain ⟨user, _, huser, h⟩ := Decoder.bind_eq_ok h
  obtain ⟨event, _, hevent, h⟩ := Decoder.bind_eq_ok h
  obtain ⟨stamp, _, hstamp, h⟩ := Decoder.bind_eq_ok h
  obtain ⟨payload, hpayload, rfl⟩ := Decoder.map_eq_ok h
  obtain ⟨rfl, hm⟩ := Payload.decoder_eq_ok hpayload
  refine ⟨?_, hm⟩
  rw [Decoder.uint32_eq_ok huser, Uuid.decoder_eq_ok hevent, Decoder.int64_eq_ok hstamp]
  simp only [encode, List.append_assoc]

theorem Aggregate.decoder_eq_ok {e : Aggregate} (h : decoder bytes = .ok (e, rest)) :
    bytes = e.encode ++ rest ∧ e.Measured := by
  obtain ⟨user, _, huser, h⟩ := Decoder.bind_eq_ok h
  obtain ⟨event, _, hevent, h⟩ := Decoder.bind_eq_ok h
  obtain ⟨count, _, hcount, h⟩ := Decoder.bind_eq_ok h
  obtain ⟨stamp, _, hstamp, h⟩ := Decoder.bind_eq_ok h
  obtain ⟨payload, hpayload, rfl⟩ := Decoder.map_eq_ok h
  obtain ⟨rfl, hm⟩ := Payload.decoder_eq_ok hpayload
  refine ⟨?_, hm⟩
  rw [Decoder.uint32_eq_ok huser, Uuid.decoder_eq_ok hevent, Decoder.int64_eq_ok hcount,
    Decoder.int64_eq_ok hstamp]
  simp only [encode, List.append_assoc]

theorem Point.decoder_eq_ok {p : Point} (h : decoder bytes = .ok (p, rest)) :
    bytes = p.encode ++ rest ∧ p.Measured := by
  obtain ⟨stamp, _, hstamp, h⟩ := Decoder.bind_eq_ok h
  obtain ⟨payload, hpayload, rfl⟩ := Decoder.map_eq_ok h
  obtain ⟨rfl, hm⟩ := Payload.decoder_eq_ok hpayload
  refine ⟨?_, hm⟩
  rw [Decoder.int64_eq_ok hstamp, encode, List.append_assoc]

theorem Sequence.decoder_eq_ok {e : Sequence} (h : decoder bytes = .ok (e, rest)) :
    bytes = e.encode ++ rest ∧ e.Measured := by
  obtain ⟨user, _, huser, h⟩ := Decoder.bind_eq_ok h
  obtain ⟨event, _, hevent, h⟩ := Decoder.bind_eq_ok h
  obtain ⟨points, hpoints, rfl⟩ := Decoder.map_eq_ok h
  obtain ⟨rfl, hm⟩ := Decoder.list_eq_ok Point.decoder_eq_ok hpoints
  refine ⟨?_, hm⟩
  rw [Decoder.uint32_eq_ok huser, Uuid.decoder_eq_ok hevent]
  simp only [encode, List.append_assoc]

theorem Record.decoder_eq_ok {r : Record} (h : decoder bytes = .ok (r, rest)) :
    bytes = r.encode ++ rest ∧ r.Measured := by
  obtain ⟨n, more, htag, hr⟩ := Decoder.bind_eq_ok h
  obtain ⟨rfl, hn⟩ := Decoder.tag_eq_ok htag
  obtain rfl | rfl | rfl : n = 0 ∨ n = 1 ∨ n = 2 := by omega
  · obtain ⟨e, he, rfl⟩ := Decoder.map_eq_ok hr
    obtain ⟨rfl, hm⟩ := Singular.decoder_eq_ok he
    rw [encode, List.append_assoc]
    exact ⟨rfl, hm⟩
  · obtain ⟨e, he, rfl⟩ := Decoder.map_eq_ok hr
    obtain ⟨rfl, hm⟩ := Aggregate.decoder_eq_ok he
    rw [encode, List.append_assoc]
    exact ⟨rfl, hm⟩
  · obtain ⟨e, he, rfl⟩ := Decoder.map_eq_ok hr
    obtain ⟨rfl, hm⟩ := Sequence.decoder_eq_ok he
    rw [encode, List.append_assoc]
    exact ⟨rfl, hm⟩

theorem Record.cost_le_of_decode {r : Record} (h : decoder.decode bytes = .ok r) :
    r.cost ≤ bytes.length := by
  rw [Decoder.decode] at h
  cases hd : decoder bytes with
  | error fault =>
    rw [hd] at h
    cases h
  | ok p =>
    obtain ⟨r', rest⟩ := p
    rw [hd] at h
    cases h
    obtain ⟨rfl, -⟩ := decoder_eq_ok hd
    rw [List.length_append, length_encode]
    exact Nat.le_add_right _ _

end Event

end Telemetry
