import Telemetry.Proofs.Protocol.Reading
import Telemetry.Proofs.Protocol.Stream

namespace Telemetry.Protocol.Frame

open Codec

/-- Of the chunks those that lie entirely within the first `size` octets are the first `k`. -/
structure Whole (chunks : List Bytes) (size k : Nat) : Prop where
  le : k ≤ chunks.length
  iff : ∀ j ≤ chunks.length, (chunks.take j).flatten.length ≤ size ↔ j ≤ k

section Cut

variable {chunk front : Bytes} {chunks : List Bytes} {size k : Nat}

theorem whole_nil (size : Nat) : Whole [] size 0 :=
  ⟨Nat.le_refl 0, fun j hj => by simp [Nat.le_zero.1 hj]⟩

theorem whole_of_lt (h : size < chunk.length) : Whole (chunk :: chunks) size 0 := by
  refine ⟨Nat.zero_le _, fun j _ => ?_⟩
  cases j with
  | zero => simp
  | succ j =>
    simp only [List.take_succ_cons, List.flatten_cons, List.length_append]
    omega

theorem Whole.cons (h : Whole chunks size k) : Whole (chunk :: chunks) (chunk.length + size) (k + 1) := by
  refine ⟨Nat.succ_le_succ h.le, fun j hj => ?_⟩
  cases j with
  | zero => simp
  | succ j =>
    have hiff := h.iff j (Nat.le_of_succ_le_succ hj)
    simp only [List.take_succ_cons, List.flatten_cons, List.length_append]
    omega

theorem prefix_append_cases {more : Bytes} (h : front <+: chunk ++ more) :
    (front <+: chunk ∧ front.length < chunk.length) ∨ ∃ rest, front = chunk ++ rest ∧ rest <+: more := by
  by_cases hl : front.length < chunk.length
  · have hchunk : chunk <+: chunk ++ more := List.prefix_append chunk more
    exact .inl ⟨List.prefix_of_prefix_length_le h hchunk (Nat.le_of_lt hl), hl⟩
  · have hchunk : chunk <+: front :=
      List.prefix_of_prefix_length_le (List.prefix_append chunk more) h (Nat.not_lt.1 hl)
    obtain ⟨rest, rfl⟩ := hchunk
    exact .inr ⟨rest, rfl, (List.prefix_append_right_inj chunk).1 h⟩

end Cut

variable {α : Type} {d : Decoder α} {enc : α → Bytes} {messages : List α} {body front : Bytes}

theorem stops_of_cut (hb : body.length ≤ maxFrame) (h : front <+: wrap body)
    (hl : front.length < (wrap body).length) :
    Stops (if front.length < 4 then .noHeader else .cut) front := by
  rw [wrap] at h hl
  obtain ⟨-, hshort⟩ | ⟨rest, rfl, -⟩ := prefix_append_cases h
  · rw [length_be] at hshort
    rw [if_pos hshort]
    exact .noHeader hshort
  · rw [List.length_append, List.length_append, length_be] at hl
    rw [List.length_append, length_be, if_neg (by omega)]
    exact .cut hb (by omega)

def frameOf (enc : α → Bytes) (m : α) : Bytes := wrap (envelope (enc m))

theorem mapM_write (h : ∀ m ∈ messages, (envelope (enc m)).length ≤ maxFrame) :
    messages.mapM (fun m => write (enc m)) = .ok (messages.map (frameOf enc)) := by
  induction messages with
  | nil => rfl
  | cons m messages ih =>
    have hm : write (enc m) = .ok (frameOf enc m) := if_neg (Nat.not_lt.2 (h m List.mem_cons_self))
    rw [List.mapM_cons, hm, ih fun m' hm' => h m' (List.mem_cons_of_mem m hm')]
    rfl

theorem readAll_of_stops {last : End} (h : Stops last front) : readAll d front = ([], last.error?) := by
  rw [readAll, split_of_stops h]
  rfl

theorem readAll_frameOf {m : α} (hm : (envelope (enc m)).length ≤ maxFrame)
    (hd : Reads d (enc m) m) (rest : Bytes) :
    readAll d (frameOf enc m ++ rest) = (.ok m :: (readAll d rest).1, (readAll d rest).2) := by
  have hread : read d (envelope (enc m)) = .ok m := by
    rw [read_envelope, hd.decode]
    rfl
  rw [readAll, frameOf, split_wrap hm, readAll]
  simp only [List.map_cons, hread]

theorem exists_readAll_of_prefix (hfits : ∀ m ∈ messages, (envelope (enc m)).length ≤ maxFrame)
    (hreads : ∀ m ∈ messages, Reads d (enc m) m)
    (h : front <+: (messages.map (frameOf enc)).flatten) :
    ∃ k, Whole (messages.map (frameOf enc)) front.length k ∧
      readAll d front = ((messages.take k).map .ok,
        if front.length < ((messages.map (frameOf enc)).take k).flatten.length + 4 then none
        else some .earlyEnd) := by
  -- on the messages: the cut is within the first frame or behind it
  induction messages generalizing front with
  | nil =>
    rw [List.map_nil, List.flatten_nil, List.prefix_nil] at h
    subst h
    exact ⟨0, whole_nil 0, readAll_of_stops (.noHeader (by decide))⟩
  | cons m messages ih =>
    have hm := hfits m List.mem_cons_self
    rw [List.map_cons, List.flatten_cons] at h
    obtain ⟨hcut, hl⟩ | ⟨rest, rfl, hrest⟩ := prefix_append_cases h
    · refine ⟨0, whole_of_lt hl, ?_⟩
      rw [readAll_of_stops (stops_of_cut hm hcut hl)]
      simp only [List.take_zero, List.flatten_nil, List.length_nil, Nat.zero_add, List.map_nil]
      split <;> rfl
    · obtain ⟨k, hwhole, hread⟩ := ih (fun m' hm' => hfits m' (List.mem_cons_of_mem m hm'))
        (fun m' hm' => hreads m' (List.mem_cons_of_mem m hm')) hrest
      refine ⟨k + 1, ?_, ?_⟩
      · rw [List.length_append]
        exact hwhole.cons
      · rw [readAll_frameOf hm (hreads m List.mem_cons_self), hread]
        simp only [List.map_cons, List.take_succ_cons, List.flatten_cons, List.length_append,
          Nat.add_assoc, Nat.add_lt_add_iff_left]

/-- The messages are written as the frames, and whatever is left of these one behind the other is read
as the messages whose frames are whole. The end is clean if less than a length follows them. -/
structure Survives (enc : α → Bytes) (d : Decoder α) (messages : List α) (frames : List Bytes) :
    Prop where
  written : messages.mapM (fun m => write (enc m)) = .ok frames
  read : ∀ front, front <+: frames.flatten → ∃ k, Whole frames front.length k ∧
    readAll d front = ((messages.take k).map .ok,
      if front.length < (frames.take k).flatten.length + 4 then none else some .earlyEnd)

theorem exists_survives (hfits : ∀ m ∈ messages, (envelope (enc m)).length ≤ maxFrame)
    (hreads : ∀ m ∈ messages, (enc m).length < capacity 8 → Reads d (enc m) m) :
    ∃ frames, Survives enc d messages frames :=
  ⟨_, mapM_write hfits, fun _ => exists_readAll_of_prefix hfits fun m hm =>
    hreads m hm (length_lt_of_envelope (hfits m hm))⟩

/-- Requests and responses that fit a frame survive a cut of their stream, at whatever octet. A message
that does not fit is refused, and there is no frame of it. -/
theorem truncated_streams_read :
    (∀ requests : List Request, (∀ r ∈ requests, (envelope r.encode).length ≤ maxFrame) →
        ∃ frames, Survives Request.encode Request.decoder requests frames) ∧
      (∀ responses : List Response, (∀ r ∈ responses, (envelope r.encode).length ≤ maxFrame) →
        ∃ frames, Survives Response.encode Response.decoder responses frames) ∧
      ∀ message : Bytes, maxFrame < (envelope message).length →
        write message = .error (.tooLarge (envelope message).length) :=
  ⟨fun _ hfits => exists_survives hfits fun _ _ hs => Request.reads_decoder hs,
    fun _ hfits => exists_survives hfits fun _ _ hs => Response.reads_decoder hs,
    fun _ h => if_pos h⟩

theorem truncated_streams_read_halved :
    let requests : List Request := [.getEnabled, .setEnabled true]
    (∀ r ∈ requests, (envelope r.encode).length ≤ maxFrame) ∧
      (∃ frames, Survives Request.encode Request.decoder requests frames ∧
        readAll Request.decoder (frames.flatten.take 18) = ([.ok .getEnabled], some .earlyEnd)) ∧
      (∃ frames, Survives Response.encode Response.decoder [.timer ⟨7⟩, .ok] frames) ∧
      write (List.replicate maxFrame 0) = .error (.tooLarge (maxFrame + 4)) := by
  intro requests
  obtain ⟨hrequests, hresponses, hlarge⟩ := truncated_streams_read
  have hfits : ∀ r ∈ requests, (envelope r.encode).length ≤ maxFrame := by decide
  have hlength : (envelope (List.replicate maxFrame 0)).length = maxFrame + 4 := by
    rw [envelope, List.length_append, length_le, List.length_replicate, Nat.add_comm]
  obtain ⟨frames, h⟩ := hrequests requests hfits
  refine ⟨hfits, ⟨frames, h, ?_⟩, hresponses _ (by decide), ?_⟩
  · have hframes : frames = requests.map (frameOf Request.encode) :=
      Except.ok.inj (h.written.symm.trans (mapM_write hfits))
    obtain ⟨k, hwhole, hread⟩ := h.read _ (List.take_prefix 18 _)
    rw [hframes] at hwhole hread ⊢
    have hfirst : 1 ≤ k := (hwhole.iff 1 (by decide)).1 (by decide)
    have hsecond : ¬2 ≤ k := fun hle => absurd ((hwhole.iff 2 (by decide)).2 hle) (by decide)
    have hone : k = 1 := by omega
    rw [hread, hone]
    rfl
  · have hrefused := hlarge (List.replicate maxFrame 0) (by omega)
    rwa [hlength] at hrefused

end Telemetry.Protocol.Frame
