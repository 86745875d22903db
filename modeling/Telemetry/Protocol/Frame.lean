import Telemetry.Codec.Decoder

namespace Telemetry.Protocol

open Codec

def maxFrame : Nat := 1024 * 1024

inductive FrameError
  | earlyEnd
  | tooLarge (size : Nat)
  | malformed (cause : DecodeError)
  | version (found : UInt32)
  deriving DecidableEq, Repr

namespace FrameError

def message : FrameError → String
  | earlyEnd => "I/O error: early eof"
  | tooLarge size =>
    "frame of " ++ toString size ++ " bytes exceeds the " ++ toString maxFrame ++ "-byte limit"
  | malformed cause => "malformed message: " ++ cause.message
  | version found =>
    "unsupported protocol version " ++ toString found.toNat ++ " (expected 1)"

/-- Whether the stream is still at the start of a frame. -/
def recoverable : FrameError → Bool
  | malformed _ => true
  | version _ => true
  | _ => false

end FrameError

namespace Frame

inductive Front
  | body (bytes rest : Bytes)
  | noHeader
  | tooLarge (size : Nat)
  | cut
  deriving DecidableEq, Repr

def front : Bytes → Front
  | b₀ :: b₁ :: b₂ :: b₃ :: rest =>
    let size := ofBE [b₀, b₁, b₂, b₃]
    if maxFrame < size then .tooLarge size
    else match Decoder.splitOnto [] size rest with
      | some (bytes, rest) => .body bytes rest
      | none => .cut
  | _ => .noHeader

/-- How a stream ends behind its last whole frame; what is left of it may become a frame yet if
more comes. -/
inductive End
  | noHeader
  | tooLarge (size : Nat)
  | cut
  deriving DecidableEq, Repr

theorem length_splitOnto {count : Nat} {done bytes out rest : Bytes}
    (h : Decoder.splitOnto done count bytes = some (out, rest)) : rest.length ≤ bytes.length := by
  induction bytes generalizing done count with
  | nil =>
    cases count with
    | zero =>
      simp only [Decoder.splitOnto, Option.some.injEq, Prod.mk.injEq] at h
      obtain ⟨_, rfl⟩ := h
      exact Nat.le_refl _
    | succ count => simp [Decoder.splitOnto] at h
  | cons b bytes ih =>
    cases count with
    | zero =>
      simp only [Decoder.splitOnto, Option.some.injEq, Prod.mk.injEq] at h
      obtain ⟨_, rfl⟩ := h
      exact Nat.le_refl _
    | succ count =>
      simp only [Decoder.splitOnto] at h
      exact Nat.le_succ_of_le (ih h)

theorem length_rest_of_front {bytes body rest : Bytes} (h : front bytes = .body body rest) :
    rest.length < bytes.length := by
  unfold front at h
  split at h
  · next b₀ b₁ b₂ b₃ tail =>
    dsimp only at h
    split at h
    · cases h
    · split at h
      · next out r hs =>
        simp only [Front.body.injEq] at h
        obtain ⟨_, rfl⟩ := h
        have := length_splitOnto hs
        simp only [List.length_cons]
        omega
      · cases h
  · cases h

/-- The bodies of the whole frames of a stream, in order, how it ends, and what is left. -/
def split (bytes : Bytes) : List Bytes × End × Bytes :=
  match h : front bytes with
  | .body body rest =>
    have : rest.length < bytes.length := length_rest_of_front h
    let (bodies, last, left) := split rest
    (body :: bodies, last, left)
  | .noHeader => ([], .noHeader, bytes)
  | .tooLarge size => ([], .tooLarge size, bytes)
  | .cut => ([], .cut, bytes)
termination_by bytes.length

def wrap (body : Bytes) : Bytes := be 4 body.length ++ body

def envelope (message : Bytes) : Bytes := le 4 1 ++ message

def write (message : Bytes) : Except FrameError Bytes :=
  let body := envelope message
  if maxFrame < body.length then .error (.tooLarge body.length) else .ok (wrap body)

/-- Reads the message in a body. The version is looked at first. -/
def read {α : Type} (d : Decoder α) (body : Bytes) : Except FrameError α :=
  match Decoder.uint32 body with
  | .error cause => .error (.malformed cause)
  | .ok (found, rest) =>
    if found = 1 then
      match d.decode rest with
      | .ok message => .ok message
      | .error cause => .error (.malformed cause)
    else .error (.version found)

def End.error? : End → Option FrameError
  | .noHeader => none
  | .tooLarge size => some (.tooLarge size)
  | .cut => some .earlyEnd

/-- Everything that can be read from a stream that has ended: messages and recoverable errors in
order, and how it ends. -/
def readAll {α : Type} (d : Decoder α) (bytes : Bytes) :
    List (Except FrameError α) × Option FrameError :=
  let (bodies, last, _) := split bytes
  (bodies.map (read d), last.error?)

end Frame

end Telemetry.Protocol
