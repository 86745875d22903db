import Telemetry.Compress.Gzip

namespace Telemetry.Compress

open Codec Digest

theorem Bits.fill_of_le {n count : Nat} (h : n ≤ count) (held : Nat) (rest : Bytes) :
    fill n held count rest = some ⟨held, count, rest⟩ := by
  unfold fill
  exact if_pos h

theorem Bits.fill_cons {n count : Nat} (h : count < n) (held : Nat) (b : UInt8) (rest : Bytes) :
    fill n held count (b :: rest) = fill n (held + (b.toNat <<< count)) (count + 8) rest := by
  rw [fill]
  exact if_neg (Nat.not_le.2 h)

namespace Inflate

theorem stow_append (out : Output) (bytes rest : Bytes) :
    stow bytes.length out (bytes ++ rest) = some (out ++ bytes.toArray, rest) := by
  induction bytes generalizing out with
  | nil => simp [stow]
  | cons b bytes ih =>
    rw [List.length_cons, List.cons_append, stow, ih]
    simp

theorem stored_append (out : Output) {bytes : Bytes} (h : bytes.length ≤ 65535) (rest : Bytes) :
    stored out (le 2 bytes.length ++ le 2 (65535 - bytes.length) ++ bytes ++ rest) =
      some (out ++ bytes.toArray, rest) := by
  have hlength : ofLE (le 2 bytes.length) = bytes.length :=
    ofLE_le_of_lt (Nat.lt_succ_of_le h)
  have hcomplement : ofLE (le 2 (65535 - bytes.length)) = 65535 - bytes.length :=
    ofLE_le_of_lt (Nat.lt_succ_of_le (Nat.sub_le _ _))
  change (if ofLE (le 2 (65535 - bytes.length)) = 65535 - ofLE (le 2 bytes.length)
    then stow (ofLE (le 2 bytes.length)) out (bytes ++ rest) else none) = _
  rw [hlength, hcomplement, if_pos rfl, stow_append]

theorem take_mark (last : Bool) (rest : Bytes) :
    (Bits.ofBytes ((if last then 1 else 0) :: rest)).take 1 =
      some (if last then 1 else 0, ⟨0, 7, rest⟩) := by
  rw [Bits.take, Bits.ofBytes, Bits.fill_cons Nat.one_pos, Bits.fill_of_le (by decide)]
  cases last <;> simp

theorem block_stored (size : Nat) (out : Output) (rest : Bytes) :
    block size out ⟨0, 7, rest⟩ =
      (stored out rest).map fun (out, rest) => (out, .ofBytes rest) := by
  have hkind : (⟨0, 7, rest⟩ : Bits).take 2 = some (0, ⟨0, 5, rest⟩) := by
    rw [Bits.take, Bits.fill_of_le (Nat.le_of_ble_eq_true rfl)]
    simp
  rw [block, hkind]
  rfl

theorem blocks_storedBlock (size fuel : Nat) (out : Output) (last : Bool) {bytes : Bytes}
    (h : bytes.length ≤ 65535) (rest : Bytes) :
    blocks size (fuel + 1) out (.ofBytes (storedBlock last bytes ++ rest)) =
      if last then some (out ++ bytes.toArray, rest)
      else blocks size fuel (out ++ bytes.toArray) (.ofBytes rest) := by
  have hs := stored_append out h rest
  have hfront : storedBlock last bytes ++ rest = (if last then 1 else 0) ::
      (le 2 bytes.length ++ le 2 (65535 - bytes.length) ++ bytes ++ rest) := rfl
  rw [blocks, hfront, take_mark]
  dsimp only
  rw [block_stored, hs]
  cases last <;> rfl

theorem length_storedBlock (last : Bool) (bytes : Bytes) :
    (storedBlock last bytes).length = bytes.length + 5 := by
  simp [storedBlock]
  omega

theorem le_length_store (count : Nat) (bytes : Bytes) :
    bytes.length + 5 ≤ (store count bytes).length := by
  induction count generalizing bytes with
  | zero => exact Nat.le_of_eq (length_storedBlock true bytes).symm
  | succ count ih =>
    have htail := ih (bytes.drop 65535)
    rw [List.length_drop] at htail
    rw [store]
    split
    · next he =>
      have hlen : (bytes.drop 65535).length = 0 := by rw [List.isEmpty_iff.1 he, List.length_nil]
      rw [List.length_drop] at hlen
      rw [length_storedBlock, List.length_take]
      omega
    · rw [List.length_append, length_storedBlock, List.length_take]
      omega

theorem blocks_store (size : Nat) {fuel count : Nat} (hfuel : count < fuel) (out : Output)
    {bytes : Bytes} (h : bytes.length ≤ 65535 * (count + 1)) (rest : Bytes) :
    blocks size fuel out (.ofBytes (store count bytes ++ rest)) =
      some (out ++ bytes.toArray, rest) := by
  induction count generalizing fuel out bytes with
  | zero =>
    obtain ⟨fuel, rfl⟩ : ∃ n, fuel = n + 1 := ⟨fuel - 1, by omega⟩
    rw [store, blocks_storedBlock size fuel out true (by omega), if_pos rfl]
  | succ count ih =>
    obtain ⟨fuel, rfl⟩ : ∃ n, fuel = n + 1 := ⟨fuel - 1, by omega⟩
    have hhead : (bytes.take 65535).length ≤ 65535 := List.length_take_le _ _
    have htail : (bytes.drop 65535).length ≤ 65535 * (count + 1) := by
      rw [List.length_drop]
      omega
    have hboth : bytes.take 65535 ++ bytes.drop 65535 = bytes := List.take_append_drop 65535 bytes
    rw [store]
    split
    · next he =>
      rw [List.isEmpty_iff.1 he, List.append_nil] at hboth
      rw [blocks_storedBlock size fuel out true hhead, if_pos rfl, hboth]
    · rw [List.append_assoc, blocks_storedBlock size fuel out false hhead,
        if_neg Bool.false_ne_true, ih (by omega) _ htail, Array.append_assoc,
        List.append_toArray (bytes.take 65535), hboth]

theorem inflate_deflate (bytes rest : Bytes) :
    inflate (deflate bytes ++ rest) = some (bytes, rest) := by
  have hlen : bytes.length + 5 ≤ (deflate bytes).length := le_length_store _ bytes
  have hcount : bytes.length / 65535 + 1 < 8 * (deflate bytes ++ rest).length + 1 := by
    have hdiv : bytes.length / 65535 ≤ bytes.length := Nat.div_le_self _ _
    rw [List.length_append]
    omega
  have hroom : bytes.length ≤ 65535 * (bytes.length / 65535 + 1 + 1) := by omega
  rw [inflate]
  dsimp only
  rw [deflate] at hcount ⊢
  rw [blocks_store _ hcount #[] hroom rest]
  simp

end Inflate

namespace Gzip

/-- Compressing loses nothing. -/
theorem decompress_compress (bytes : Bytes) : decompress? (compress bytes) = some bytes := by
  have hbody := Inflate.inflate_deflate bytes
    (le 4 (Crc32.checksum bytes).toNat ++ le 4 bytes.length)
  have hsum : ofLE (le 4 (Crc32.checksum bytes).toNat) = (Crc32.checksum bytes).toNat :=
    ofLE_le_of_lt (Crc32.checksum bytes).toNat_lt
  have hsize : ofLE (le 4 bytes.length) = bytes.length % UInt32.size := ofLE_le 4 bytes.length
  have hheader : skipHeader (compress bytes) = some (Inflate.deflate bytes ++
      (le 4 (Crc32.checksum bytes).toNat ++ le 4 bytes.length)) := by
    rw [compress, List.append_assoc, List.append_assoc]
    rfl
  rw [decompress?, hheader, Option.bind_eq_bind, Option.bind_some, hbody]
  change (if ofLE (le 4 (Crc32.checksum bytes).toNat) = (Crc32.checksum bytes).toNat ∧
    ofLE (le 4 bytes.length) = bytes.length % UInt32.size then some bytes else none) = _
  rw [if_pos ⟨hsum, hsize⟩]

end Gzip

end Telemetry.Compress
