import Telemetry.Proofs.Codec.Canonical
import Telemetry.Proofs.Codec.Reading
import Telemetry.Protocol.Frame

namespace Telemetry.Protocol.Frame

open Codec

section Body

variable {α : Type} {d : Decoder α} {body : Bytes}

theorem read_envelope (octets : Bytes) :
    read d (envelope octets) = (d.decode octets).mapError .malformed := by
  have hv : Decoder.uint32 (envelope octets) = .ok (1, octets) := Reads.uint32 1 octets
  rw [read, hv]
  dsimp only
  rw [if_pos rfl]
  cases d.decode octets <;> rfl

theorem read_eq_ok_iff {a : α} :
    read d body = .ok a ↔ ∃ octets, body = envelope octets ∧ d.decode octets = .ok a := by
  constructor
  · intro h
    cases hv : Decoder.uint32 body with
    | error e => simp [read, hv] at h
    | ok p =>
      obtain ⟨found, octets⟩ := p
      have hbody := Decoder.uint32_eq_ok hv
      by_cases hf : found = 1
      · subst hf
        change body = envelope octets at hbody
        rw [hbody, read_envelope] at h
        refine ⟨octets, hbody, ?_⟩
        cases hd : d.decode octets with
        | error e =>
          rw [hd] at h
          cases h
        | ok b =>
          rw [hd] at h
          cases h
          rfl
      · simp [read, hv, hf] at h
  · rintro ⟨octets, rfl, hd⟩
    rw [read_envelope, hd]
    rfl

theorem write_eq_ok {message bytes : Bytes} (h : write message = .ok bytes) :
    bytes = wrap (envelope message) ∧ (envelope message).length ≤ maxFrame := by
  rw [write] at h
  split at h
  · cases h
  · next hn =>
    cases h
    exact ⟨rfl, Nat.not_lt.1 hn⟩

theorem length_lt_of_envelope {message : Bytes} (h : (envelope message).length ≤ maxFrame) :
    message.length < capacity 8 := by
  have hm : message.length ≤ maxFrame := by
    rw [envelope, List.length_append] at h
    omega
  exact Nat.lt_of_le_of_lt hm (by decide)

end Body

/-- Octets that end the reading: less than a length, a length that is too large, or less than the
length says. -/
inductive Stops : End → Bytes → Prop
  | noHeader {bytes : Bytes} (h : bytes.length < 4) : Stops .noHeader bytes
  | tooLarge {size : Nat} (h : maxFrame < size) (hs : size < capacity 4) (rest : Bytes) :
    Stops (.tooLarge size) (be 4 size ++ rest)
  | cut {size : Nat} (h : size ≤ maxFrame) {rest : Bytes} (hr : rest.length < size) :
    Stops .cut (be 4 size ++ rest)

/-- A stream is made up of the frames of some bodies, none of them too large, and of octets behind
them that end the reading. -/
structure Divides (stream : Bytes) (bodies : List Bytes) (last : End) (left : Bytes) : Prop where
  joined : stream = bodies.flatMap wrap ++ left
  fits : ∀ body ∈ bodies, body.length ≤ maxFrame
  stops : Stops last left

theorem Stops.divides {last : End} {left : Bytes} (h : Stops last left) :
    Divides left [] last left :=
  ⟨rfl, by simp, h⟩

theorem lt_capacity {size : Nat} (h : size ≤ maxFrame) : size < capacity 4 :=
  Nat.lt_of_le_of_lt h (by decide)

theorem front_be {size : Nat} (hs : size < capacity 4) (rest : Bytes) :
    front (be 4 size ++ rest) =
      if maxFrame < size then .tooLarge size
      else match Decoder.splitOnto [] size rest with
        | some (bytes, rest) => .body bytes rest
        | none => .cut := by
  have hlen : (be 4 size).length = 4 := length_be 4 size
  have hval : ofBE (be 4 size) = size := ofBE_be hs
  generalize be 4 size = header at hlen hval
  match header, hlen with
  | [b₀, b₁, b₂, b₃], _ =>
    subst hval
    rfl

theorem front_wrap {body : Bytes} (h : body.length ≤ maxFrame) (rest : Bytes) :
    front (wrap body ++ rest) = .body body rest := by
  rw [wrap, List.append_assoc, front_be (lt_capacity h), if_neg (Nat.not_lt.2 h),
    Decoder.splitOnto_append]
  rfl

theorem split_wrap {body : Bytes} (h : body.length ≤ maxFrame) (rest : Bytes) :
    split (wrap body ++ rest) = (body :: (split rest).1, (split rest).2) := by
  have hf := front_wrap h rest
  rw [split]
  split
  · next hb =>
    rw [hf] at hb
    cases hb
    rfl
  all_goals
    next hb =>
    rw [hf] at hb
    cases hb

theorem split_flatMap {bodies : List Bytes} (h : ∀ body ∈ bodies, body.length ≤ maxFrame)
    (rest : Bytes) :
    split (bodies.flatMap wrap ++ rest) = (bodies ++ (split rest).1, (split rest).2) := by
  induction bodies with
  | nil => rfl
  | cons body bodies ih =>
    have hb := h body List.mem_cons_self
    have hbs := ih fun b hb => h b (List.mem_cons_of_mem body hb)
    rw [List.flatMap_cons, List.append_assoc, split_wrap hb, hbs]
    rfl

theorem split_of_stops {last : End} {left : Bytes} (h : Stops last left) :
    split left = ([], last, left) := by
  have hf : front left = match last with
      | .noHeader => .noHeader
      | .tooLarge size => .tooLarge size
      | .cut => .cut := by
    cases h with
    | noHeader h =>
      match left, h with
      | [], _ => rfl
      | [_], _ => rfl
      | [_, _], _ => rfl
      | [_, _, _], _ => rfl
    | tooLarge h hs rest => rw [front_be hs, if_pos h]
    | cut h hr =>
      rw [front_be (lt_capacity h), if_neg (Nat.not_lt.2 h), Decoder.splitOnto_eq_none [] hr]
  rw [split]
  cases last <;> split <;> next hb => cases hf.symm.trans hb <;> rfl

theorem eq_of_front (bytes : Bytes) : match front bytes with
    | .body body rest => bytes = wrap body ++ rest ∧ body.length ≤ maxFrame
    | .noHeader => Stops .noHeader bytes
    | .tooLarge size => Stops (.tooLarge size) bytes
    | .cut => Stops .cut bytes := by
  match bytes with
  | [] => exact .noHeader (by decide)
  | [_] => exact .noHeader (by simp)
  | [_, _] => exact .noHeader (by simp)
  | [_, _, _] => exact .noHeader (by simp)
  | b₀ :: b₁ :: b₂ :: b₃ :: rest =>
    have hlt : ofBE [b₀, b₁, b₂, b₃] < capacity 4 := ofBE_lt [b₀, b₁, b₂, b₃]
    have hjoin : b₀ :: b₁ :: b₂ :: b₃ :: rest = be 4 (ofBE [b₀, b₁, b₂, b₃]) ++ rest := by
      have hbe : be 4 (ofBE [b₀, b₁, b₂, b₃]) = [b₀, b₁, b₂, b₃] := be_ofBE [b₀, b₁, b₂, b₃]
      rw [hbe]
      rfl
    rw [hjoin]
    generalize ofBE [b₀, b₁, b₂, b₃] = size at hlt
    rw [front_be hlt]
    by_cases hsize : maxFrame < size
    · rw [if_pos hsize]
      exact .tooLarge hsize hlt rest
    · rw [if_neg hsize]
      cases hs : Decoder.splitOnto [] size rest with
      | none =>
        refine .cut (Nat.not_lt.1 hsize) (Nat.not_le.1 fun hle => ?_)
        have happ := Decoder.splitOnto_append [] (rest.take size) (rest.drop size)
        rw [List.length_take_of_le hle, List.take_append_drop, hs] at happ
        cases happ
      | some p =>
        obtain ⟨out, more⟩ := p
        obtain ⟨rfl, rfl⟩ := Decoder.splitOnto_nil hs
        refine ⟨?_, Nat.not_lt.1 hsize⟩
        rw [wrap, List.append_assoc]

/-- A stream divides into what `split` finds, and in no other way. -/
theorem divides_iff {stream : Bytes} {bodies : List Bytes} {last : End} {left : Bytes} :
    Divides stream bodies last left ↔ split stream = (bodies, last, left) := by
  constructor
  · rintro ⟨rfl, hfits, hstops⟩
    rw [split_flatMap hfits, split_of_stops hstops, List.append_nil]
  · intro h
    have hf := eq_of_front stream
    -- each step of the recursion takes one whole frame, or finds the end
    fun_induction split stream generalizing bodies with
    | case1 stream body rest hb _ rest' last' left' hs ih =>
      cases h
      rw [hb] at hf
      obtain ⟨rfl, hfits⟩ := hf
      have hd := ih hs (eq_of_front _)
      refine ⟨?_, ?_, hd.stops⟩
      · rw [List.flatMap_cons, List.append_assoc, ← hd.joined]
      · intro b hbm
        rcases List.mem_cons.1 hbm with rfl | hbm
        · exact hfits
        · exact hd.fits b hbm
    | case2 stream hb =>
      cases h
      rw [hb] at hf
      exact hf.divides
    | case3 stream size hb =>
      cases h
      rw [hb] at hf
      exact hf.divides
    | case4 stream hb =>
      cases h
      rw [hb] at hf
      exact hf.divides

theorem divides_split (stream : Bytes) :
    Divides stream (split stream).1 (split stream).2.1 (split stream).2.2 := divides_iff.2 rfl

theorem Stops.append {size : Nat} {left : Bytes} (h : Stops (.tooLarge size) left) (more : Bytes) :
    Stops (.tooLarge size) (left ++ more) := by
  cases h with
  | tooLarge h hs rest =>
    rw [List.append_assoc]
    exact .tooLarge h hs (rest ++ more)

end Telemetry.Protocol.Frame
