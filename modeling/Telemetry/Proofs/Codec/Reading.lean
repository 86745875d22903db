import Telemetry.Payload.Codec
import Telemetry.Proofs.Text.Utf8

namespace Telemetry

open Text

namespace Codec

/-- The count of a list is below 64 bits, and its members are what they should be. -/
def Listed {α : Type} (valid : α → Prop) (as : List α) : Prop :=
  as.length < capacity 8 ∧ ∀ a ∈ as, valid a

theorem Listed.imp {α : Type} {valid valid' : α → Prop} {as : List α} (h : Listed valid as)
    (hv : ∀ a, valid a → valid' a) : Listed valid' as := ⟨h.1, fun a ha => hv a (h.2 a ha)⟩

theorem listed_of_size {α : Type} {enc : α → Bytes} {valid : α → Prop} {size : α → Nat} {as : List α}
    (hs : (encodeList enc as).length < capacity 8) (hsize : ∀ a, (enc a).length = size a)
    (hpos : ∀ a, 0 < size a) (h : ∀ a, size a < capacity 8 → valid a) : Listed valid as := by
  have henc : (fun a => (enc a).length) = size := funext hsize
  rw [encodeList, List.length_append, length_flatMap_eq_sumOf, henc] at hs
  have hlen : as.length ≤ sumOf size as := length_le_sumOf fun a _ => hpos a
  refine ⟨by omega, fun a ha => h a ?_⟩
  have hle := le_sumOf size ha
  omega

def Reads {α : Type} (d : Decoder α) (bytes : Bytes) (a : α) : Prop :=
  ∀ rest, d (bytes ++ rest) = .ok (a, rest)

namespace Reads

variable {α β : Type} {d : Decoder α} {bytes more : Bytes} {a : α} {b : β}

theorem decode (h : Reads d bytes a) : d.decode bytes = .ok a := by
  have hr := h []
  rw [List.append_nil] at hr
  rw [Decoder.decode, hr]
  rfl

theorem pure (a : α) : Reads (Pure.pure a) [] a := fun _ => rfl

theorem bind {f : α → Decoder β} (h : Reads d bytes a) (h' : Reads (f a) more b) :
    Reads (d >>= f) (bytes ++ more) b := by
  intro rest
  have hd := h (more ++ rest)
  rw [List.append_assoc]
  change (d (bytes ++ (more ++ rest)) >>= fun p => f p.1 p.2) = _
  rw [hd]
  exact h' rest

theorem finish {f : α → Decoder β} (h : Reads d bytes a) (h' : Reads (f a) [] b) :
    Reads (d >>= f) bytes b := by
  have hb := h.bind h'
  rw [List.append_nil] at hb
  exact hb

theorem map {f : α → β} (h : Reads d bytes a) : Reads (do return f (← d)) bytes (f a) :=
  h.finish (pure (f a))

theorem octets (e : DecodeError) (bytes : Bytes) :
    Reads (Decoder.octets e bytes.length) bytes bytes := Decoder.octets_append e bytes

theorem number (width : Nat) {n : Nat} (h : n < capacity width) :
    Reads (Decoder.number width) (le width n) n := by
  have ho := Reads.octets .endOfInput (le width n)
  rw [length_le] at ho
  have hm := ho.map (f := ofLE)
  rw [ofLE_le_of_lt h] at hm
  exact hm

theorem uint32 (n : UInt32) : Reads Decoder.uint32 (encodeUInt32 n) n := by
  have hm := (Reads.number 4 n.toNat_lt).map (f := UInt32.ofNat)
  rw [UInt32.ofNat_toNat] at hm
  exact hm

theorem uint64 (n : UInt64) : Reads Decoder.uint64 (encodeUInt64 n) n := by
  have hm := (Reads.number 8 n.toNat_lt).map (f := UInt64.ofNat)
  rw [UInt64.ofNat_toNat] at hm
  exact hm

theorem int32 (n : Int32) : Reads Decoder.int32 (encodeUInt32 n.toUInt32) n :=
  (Reads.uint32 n.toUInt32).map (f := UInt32.toInt32)

theorem int64 (n : Int64) : Reads Decoder.int64 (encodeInt64 n) n :=
  (Reads.uint64 n.toUInt64).map (f := UInt64.toInt64)

theorem boolean (b : Bool) : Reads Decoder.boolean (encodeBool b) b := by
  cases b with
  | false => exact (Reads.number 1 (n := 0) (by decide)).finish (pure false)
  | true => exact (Reads.number 1 (n := 1) (by decide)).finish (pure true)

theorem tag (count n : Nat) (hn : n < count) (hc : count ≤ capacity 4) :
    Reads (Decoder.tag count) (encodeTag n) n := by
  refine (Reads.number 4 (Nat.lt_of_lt_of_le hn hc)).finish ?_
  rw [if_pos hn]
  exact pure n

theorem optionNone (d : Decoder α) : Reads (Decoder.option d) [0] none :=
  (Reads.number 1 (n := 0) (by decide)).finish (pure none)

theorem optionSome (h : Reads d bytes a) : Reads (Decoder.option d) (1 :: bytes) (some a) :=
  (Reads.number 1 (n := 1) (by decide)).bind (h.map (f := some))

theorem times {enc : α → Bytes} {as : List α} (h : ∀ a ∈ as, Reads d (enc a) a) (done : List α) :
    Reads (Decoder.times d done as.length) (as.flatMap enc) (done.reverse ++ as) := by
  intro rest
  induction as generalizing done with
  | nil => simp [Decoder.times]
  | cons a as ih =>
    have ha := h a List.mem_cons_self (as.flatMap enc ++ rest)
    have has := ih (fun b hb => h b (List.mem_cons_of_mem a hb)) (a :: done)
    rw [List.flatMap_cons, List.append_assoc, List.length_cons, Decoder.times, ha]
    dsimp only
    rw [has, List.reverse_cons, List.append_assoc]
    rfl

theorem list {enc : α → Bytes} {as : List α} (h : Listed (fun a => Reads d (enc a) a) as) :
    Reads (Decoder.list d) (encodeList enc as) as := (Reads.number 8 h.1).bind (times h.2 [])

theorem counted {bs : Bytes} (hl : bs.length < capacity 8) :
    Reads Decoder.counted (encodeBytes bs) bs := (Reads.number 8 hl).bind (octets .endOfInput bs)

theorem block {bs : Bytes} (hl : bs.length < capacity 8) :
    Reads Decoder.block (encodeBytes bs) bs := (Reads.number 8 hl).bind (octets .shortBlock bs)

theorem text {s : List Char} (hl : Utf8.size s < capacity 8) :
    Reads Decoder.text (encodeText s) s := by
  have hlen : (Utf8.encode s).length = Utf8.size s := Utf8.length_encode s
  rw [← hlen] at hl
  have ht : Reads Decoder.text (encodeBytes (Utf8.encode s)) s := by
    refine (Reads.block hl).finish ?_
    rw [Utf8.decode_encode]
    exact pure s
  rw [encodeBytes, hlen] at ht
  exact ht

end Reads

end Codec

end Telemetry
