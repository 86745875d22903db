import Telemetry.Payload.Codec
import Telemetry.Proofs.Text.Utf8

namespace Telemetry.Codec

open Text

theorem ofLE_lt (bytes : Bytes) : ofLE bytes < capacity bytes.length := by
  induction bytes with
  | nil => exact Nat.one_pos
  | cons b rest ih =>
    have hb : b.toNat < 256 := b.toNat_lt
    rw [ofLE, List.length_cons, capacity]
    omega

theorem ofBE_eq (bytes : Bytes) : ofBE bytes = ofLE bytes.reverse := by
  have h := ofBE_reverse bytes.reverse
  rwa [List.reverse_reverse] at h

theorem ofBE_lt (bytes : Bytes) : ofBE bytes < capacity bytes.length := by
  rw [ofBE_eq, ← List.length_reverse]
  exact ofLE_lt bytes.reverse

theorem be_ofBE (bytes : Bytes) : be bytes.length (ofBE bytes) = bytes := by
  have h := le_ofLE bytes.reverse
  rw [List.length_reverse] at h
  rw [be, ofBE_eq, h, List.reverse_reverse]

theorem Decoder.splitOnto_nil {count : Nat} {bytes out rest : Bytes}
    (h : Decoder.splitOnto [] count bytes = some (out, rest)) :
    bytes = out ++ rest ∧ out.length = count := by
  by_cases hlen : bytes.length < count
  · rw [Decoder.splitOnto_eq_none [] hlen] at h
    cases h
  · have htake : (bytes.take count).length = count := List.length_take_of_le (Nat.not_lt.1 hlen)
    have hs := Decoder.splitOnto_append [] (bytes.take count) (bytes.drop count)
    rw [htake, List.take_append_drop, h] at hs
    cases hs
    exact ⟨(List.take_append_drop count bytes).symm, htake⟩

namespace Decoder

variable {α β : Type} {d : Decoder α} {bytes rest : Bytes}

theorem bind_eq_ok {f : α → Decoder β} {b : β} (h : (d >>= f) bytes = .ok (b, rest)) :
    ∃ a more, d bytes = .ok (a, more) ∧ f a more = .ok (b, rest) := by
  change (d bytes >>= fun p => f p.1 p.2) = .ok (b, rest) at h
  cases hd : d bytes with
  | error e =>
    rw [hd] at h
    cases h
  | ok p =>
    rw [hd] at h
    exact ⟨p.1, p.2, rfl, h⟩

theorem map_eq_ok {f : α → β} {b : β} (h : (do return f (← d)) bytes = .ok (b, rest)) :
    ∃ a, d bytes = .ok (a, rest) ∧ f a = b := by
  obtain ⟨a, more, hd, hf⟩ := bind_eq_ok h
  cases hf
  exact ⟨a, hd, rfl⟩

theorem octets_eq_ok {e : DecodeError} {count : Nat} {out : Bytes}
    (h : octets e count bytes = .ok (out, rest)) : bytes = out ++ rest ∧ out.length = count := by
  rw [octets] at h
  split at h
  · next hs =>
    cases h
    exact splitOnto_nil hs
  · cases h

theorem number_eq_ok {width n : Nat} (h : number width bytes = .ok (n, rest)) :
    bytes = le width n ++ rest ∧ n < capacity width := by
  obtain ⟨out, ho, rfl⟩ := map_eq_ok h
  obtain ⟨rfl, rfl⟩ := octets_eq_ok ho
  rw [le_ofLE]
  exact ⟨rfl, ofLE_lt out⟩

theorem uint32_eq_ok {n : UInt32} (h : uint32 bytes = .ok (n, rest)) :
    bytes = encodeUInt32 n ++ rest := by
  obtain ⟨m, hm, rfl⟩ := map_eq_ok h
  obtain ⟨hbytes, hlt⟩ := number_eq_ok hm
  rw [encodeUInt32, UInt32.toNat_ofNat_of_lt' hlt]
  exact hbytes

theorem uint64_eq_ok {n : UInt64} (h : uint64 bytes = .ok (n, rest)) :
    bytes = encodeUInt64 n ++ rest := by
  obtain ⟨m, hm, rfl⟩ := map_eq_ok h
  obtain ⟨hbytes, hlt⟩ := number_eq_ok hm
  rw [encodeUInt64, UInt64.toNat_ofNat_of_lt' hlt]
  exact hbytes

theorem int32_eq_ok {n : Int32} (h : int32 bytes = .ok (n, rest)) :
    bytes = encodeUInt32 n.toUInt32 ++ rest := by
  obtain ⟨m, hm, rfl⟩ := map_eq_ok h
  exact uint32_eq_ok hm

theorem int64_eq_ok {n : Int64} (h : int64 bytes = .ok (n, rest)) :
    bytes = encodeInt64 n ++ rest := by
  obtain ⟨m, hm, rfl⟩ := map_eq_ok h
  exact uint64_eq_ok hm

theorem boolean_eq_ok {b : Bool} (h : boolean bytes = .ok (b, rest)) :
    bytes = encodeBool b ++ rest := by
  obtain ⟨n, more, hn, hb⟩ := bind_eq_ok h
  obtain ⟨hbytes, -⟩ := number_eq_ok hn
  split at hb
  · next hzero =>
    cases hb
    rw [hbytes, hzero]
    rfl
  · split at hb
    · next hone =>
      cases hb
      rw [hbytes, hone]
      rfl
    · cases hb

theorem tag_eq_ok {count n : Nat} (h : tag count bytes = .ok (n, rest)) :
    bytes = encodeTag n ++ rest ∧ n < count := by
  obtain ⟨m, more, hm, hn⟩ := bind_eq_ok h
  obtain ⟨hbytes, -⟩ := number_eq_ok hm
  split at hn
  · next hlt =>
    cases hn
    exact ⟨hbytes, hlt⟩
  · cases hn

theorem sized_eq_ok {e : DecodeError} {bs : Bytes}
    (h : (do octets e (← number 8) : Decoder Bytes) bytes = .ok (bs, rest)) :
    bytes = encodeBytes bs ++ rest ∧ bs.length < capacity 8 := by
  obtain ⟨n, more, hn, ho⟩ := bind_eq_ok h
  obtain ⟨rfl, hlt⟩ := number_eq_ok hn
  obtain ⟨rfl, rfl⟩ := octets_eq_ok ho
  rw [encodeBytes, List.append_assoc]
  exact ⟨rfl, hlt⟩

theorem counted_eq_ok {bs : Bytes} (h : counted bytes = .ok (bs, rest)) :
    bytes = encodeBytes bs ++ rest ∧ bs.length < capacity 8 := sized_eq_ok h

theorem block_eq_ok {bs : Bytes} (h : block bytes = .ok (bs, rest)) :
    bytes = encodeBytes bs ++ rest ∧ bs.length < capacity 8 := sized_eq_ok h

theorem text_eq_ok {s : List Char} (h : text bytes = .ok (s, rest)) :
    bytes = encodeText s ++ rest ∧ Utf8.size s < capacity 8 := by
  obtain ⟨bs, more, hb, hs⟩ := bind_eq_ok h
  obtain ⟨rfl, hlt⟩ := block_eq_ok hb
  cases hdecode : Utf8.decode bs with
  | error fault =>
    rw [hdecode] at hs
    cases hs
  | ok s' =>
    rw [hdecode] at hs
    cases hs
    obtain rfl := Utf8.encode_of_decode hdecode
    rw [encodeText, ← Utf8.length_encode]
    exact ⟨rfl, hlt⟩

section Of

variable {enc : α → Bytes} {valid : α → Prop} {as : List α}

theorem option_eq_ok {o : Option α}
    (hd : ∀ {bytes a rest}, d bytes = .ok (a, rest) → bytes = enc a ++ rest ∧ valid a)
    (h : option d bytes = .ok (o, rest)) :
    bytes = encodeOption enc o ++ rest ∧ ∀ a, o = some a → valid a := by
  obtain ⟨n, more, hn, ho⟩ := bind_eq_ok h
  obtain ⟨rfl, -⟩ := number_eq_ok hn
  split at ho
  · next hzero =>
    cases ho
    subst hzero
    exact ⟨rfl, fun _ h => nomatch h⟩
  · split at ho
    · next hone =>
      obtain ⟨a, ha, rfl⟩ := map_eq_ok ho
      obtain ⟨rfl, hvalid⟩ := hd ha
      subst hone
      refine ⟨rfl, fun a' h' => ?_⟩
      cases h'
      exact hvalid
    · cases ho

theorem times_eq_ok
    (hd : ∀ {bytes a rest}, d bytes = .ok (a, rest) → bytes = enc a ++ rest ∧ valid a)
    {done : List α} {count : Nat} (h : times d done count bytes = .ok (as, rest)) :
    ∃ bs, as = done.reverse ++ bs ∧ bs.length = count ∧ bytes = bs.flatMap enc ++ rest ∧
      ∀ b ∈ bs, valid b := by
  induction count generalizing done bytes with
  | zero =>
    cases h
    exact ⟨[], (List.append_nil _).symm, rfl, rfl, List.forall_mem_nil _⟩
  | succ count ih =>
    rw [times] at h
    split at h
    · cases h
    · next a more ha =>
      obtain ⟨rfl, hvalid⟩ := hd ha
      obtain ⟨bs, rfl, rfl, rfl, hall⟩ := ih h
      refine ⟨a :: bs, ?_, rfl, ?_, List.forall_mem_cons.2 ⟨hvalid, hall⟩⟩
      · rw [List.reverse_cons, List.append_assoc]
        rfl
      · rw [List.flatMap_cons, List.append_assoc]

theorem list_eq_ok
    (hd : ∀ {bytes a rest}, d bytes = .ok (a, rest) → bytes = enc a ++ rest ∧ valid a)
    (h : list d bytes = .ok (as, rest)) :
    bytes = encodeList enc as ++ rest ∧ as.length < capacity 8 ∧ ∀ a ∈ as, valid a := by
  obtain ⟨n, more, hn, ht⟩ := bind_eq_ok h
  obtain ⟨rfl, hlt⟩ := number_eq_ok hn
  obtain ⟨bs, rfl, rfl, rfl, hall⟩ := times_eq_ok hd ht
  rw [encodeList, List.append_assoc]
  exact ⟨rfl, hlt, hall⟩

end Of

end Decoder

end Telemetry.Codec
