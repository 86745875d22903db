import Telemetry.Proofs.Codec.Canonical
import Telemetry.Proofs.Payload.Reading

namespace Telemetry

open Codec

namespace Value

variable {bytes rest : Bytes} {v : Value}

theorem elements_eq_ok {d : Decoder Value} {vs : List Value}
    (hd : ∀ {bytes v rest}, d bytes = .ok (v, rest) → bytes = v.encode ++ rest ∧ v.Measured)
    (h : Decoder.list d bytes = .ok (vs, rest)) :
    bytes = encodeLength vs.length ++ encodeAll vs ++ rest ∧ vs.length < capacity 8 ∧
      MeasuredAll vs := by
  obtain ⟨hbytes, hl, hall⟩ := Decoder.list_eq_ok hd h
  rw [encodeAll_eq_flatMap, measuredAll_iff]
  exact ⟨hbytes, hl, hall⟩

/-- A value was read from its encoding. -/
theorem decoderWithin_eq_ok {fuel : Bytes} (h : decoderWithin fuel bytes = .ok (v, rest)) :
    bytes = v.encode ++ rest ∧ v.Measured := by
  -- on the levels; the tag says which kind of value was read
  induction fuel generalizing bytes v rest with
  | nil => cases h
  | cons _ fuel ih =>
    obtain ⟨n, more, ht, hv⟩ := Decoder.bind_eq_ok h
    obtain ⟨rfl, hn⟩ := Decoder.tag_eq_ok ht
    split at hv
    · obtain ⟨b, hb, rfl⟩ := Decoder.map_eq_ok hv
      rw [encode, List.append_assoc, Decoder.boolean_eq_ok hb]
      exact ⟨rfl, trivial⟩
    · obtain ⟨n, hn, rfl⟩ := Decoder.map_eq_ok hv
      rw [encode, List.append_assoc, Decoder.int32_eq_ok hn]
      exact ⟨rfl, trivial⟩
    · obtain ⟨n, hn, rfl⟩ := Decoder.map_eq_ok hv
      rw [encode, List.append_assoc, Decoder.uint32_eq_ok hn]
      exact ⟨rfl, trivial⟩
    · obtain ⟨n, hn, rfl⟩ := Decoder.map_eq_ok hv
      rw [encode, List.append_assoc, Decoder.int64_eq_ok hn]
      exact ⟨rfl, trivial⟩
    · obtain ⟨n, hn, rfl⟩ := Decoder.map_eq_ok hv
      rw [encode, List.append_assoc, Decoder.uint64_eq_ok hn]
      exact ⟨rfl, trivial⟩
    · obtain ⟨bits, hbits, rfl⟩ := Decoder.map_eq_ok hv
      rw [encode, List.append_assoc, Decoder.uint64_eq_ok hbits]
      exact ⟨rfl, trivial⟩
    · obtain ⟨s, hs, rfl⟩ := Decoder.map_eq_ok hv
      obtain ⟨rfl, hm⟩ := Decoder.text_eq_ok hs
      rw [encode, List.append_assoc]
      exact ⟨rfl, hm⟩
    · obtain ⟨bs, hbs, rfl⟩ := Decoder.map_eq_ok hv
      obtain ⟨rfl, hm⟩ := Decoder.counted_eq_ok hbs
      rw [encode, List.append_assoc]
      exact ⟨rfl, hm⟩
    · obtain ⟨vs, hvs, rfl⟩ := Decoder.map_eq_ok hv
      obtain ⟨rfl, hm⟩ := elements_eq_ok ih hvs
      rw [encode, List.append_assoc]
      exact ⟨rfl, hm⟩
    · have hnine : n = 9 := by
        match n, hn with
        | 9, _ => rfl
      obtain ⟨vs, hvs, rfl⟩ := Decoder.map_eq_ok hv
      obtain ⟨rfl, hm⟩ := elements_eq_ok ih hvs
      rw [encode, List.append_assoc, hnine]
      exact ⟨rfl, hm⟩

end Value

namespace Payload

theorem store_eq_nil_iff {p : Payload} : p.store = [] ↔ p = none := by
  cases p with
  | none => simp [store]
  | some v => simp [store, v.encode_ne_nil]

theorem prefix_of_restore {bytes : Bytes} {p : Payload} (h : restore bytes = .ok p) :
    p.Measured ∧ p.store <+: bytes := by
  by_cases hempty : bytes = []
  · rw [hempty] at h ⊢
    cases h
    exact ⟨trivial, List.prefix_refl []⟩
  · rw [restore_of_ne_nil hempty, Decoder.decode] at h
    cases hd : Value.decoder bytes with
    | error e =>
      rw [hd] at h
      cases h
    | ok q =>
      obtain ⟨v, rest⟩ := q
      rw [hd] at h
      cases h
      obtain ⟨hbytes, hm⟩ := Value.decoderWithin_eq_ok hd
      exact ⟨hm, rest, hbytes.symm⟩

theorem restore_append {v : Value} (hv : v.Measured) (s : Bytes) :
    restore (store (some v) ++ s) = .ok (some v) := by
  have hread := Value.reads_decoder hv s
  rw [store, restore_of_ne_nil (List.append_ne_nil_of_left_ne_nil v.encode_ne_nil s),
    Decoder.decode, hread]
  rfl

/-- A stored payload and its octets stand for each other. It is restored from them, and where there is
a value also from them and whatever follows; no other payload has them, and only the one without a
value has none. Whatever octets a payload is restored from, they begin with its own. -/
theorem store_canonical :
    (∀ p : Payload, p.Measured → restore p.store = .ok p) ∧
      (∀ (v : Value) (s : Bytes), v.Measured → restore (store (some v) ++ s) = .ok (some v)) ∧
      (∀ p q : Payload, p.Measured → q.Measured → p.store = q.store → p = q) ∧
      (∀ p : Payload, p.store = [] ↔ p = none) ∧
      ∀ (bytes : Bytes) (p : Payload), restore bytes = .ok p → p.Measured ∧ p.store <+: bytes := by
  refine ⟨fun p => restore_store, fun v s hv => restore_append hv s, fun p q hp hq h => ?_,
    fun p => store_eq_nil_iff, fun bytes p => prefix_of_restore⟩
  have hrestored := restore_store hp
  rw [h, restore_store hq] at hrestored
  exact (Except.ok.inj hrestored).symm

def nested : Value :=
  .tuple [.text "naïve".toList, .array [.bytes [0, 255], .array [], .double 0x8000000000000000]]

theorem store_canonical_nested :
    Measured (some nested) ∧ restore (store (some nested)) = .ok (some nested) ∧
      restore (store (some nested) ++ [6, 0]) = .ok (some nested) ∧
      store (some nested) ≠ store none := by
  obtain ⟨hrestore, hfollowed, hinj, -, -⟩ := store_canonical
  have hmeasured : Measured (some nested) := measured_of_length (by decide)
  refine ⟨hmeasured, hrestore (some nested) hmeasured, hfollowed nested [6, 0] hmeasured, ?_⟩
  intro h
  cases hinj (some nested) none hmeasured trivial h

end Payload

end Telemetry
