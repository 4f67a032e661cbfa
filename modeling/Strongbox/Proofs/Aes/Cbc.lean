/-
  Strongbox.Proofs.Aes.Cbc — chained blocks are deciphered as they were enciphered.

  Enciphering combines each block with the enciphered one before it, and the padding fills the
  last block or takes one of its own, so that whole blocks come out.
  - `unpad?_append_padding`: the padding is taken off.
  - `decrypt?_encrypt`: what is encrypted with a key and a vector is decrypted with them.
-/

import Strongbox.Aes.Cbc
import Strongbox.Proofs.Aes.Block

namespace Strongbox.Aes.Cbc

/-- The blocks enciphered in order, `before` standing ahead of the first. -/
def encipherBlocks (keys : List Block) (before : Block) : List Block → List Block
  | [] => []
  | s :: ss => encipher keys (s.xor before) :: encipherBlocks keys (encipher keys (s.xor before)) ss

def paddingSize (b : Bytes) : Nat := 16 - b.length % 16

def padding (b : Bytes) : Bytes := List.replicate (paddingSize b) (UInt8.ofNat (paddingSize b))

def encrypt (key vector b : Bytes) : Bytes :=
  (encipherBlocks (roundKeys key) (Block.ofBytes vector)
    ((Bytes.chunks 16 (b ++ padding b)).map Block.ofBytes)).flatMap Block.toBytes

/-! ## Padding -/

theorem paddingSize_bounds (b : Bytes) : 1 ≤ paddingSize b ∧ paddingSize b ≤ 16 := by
  have hmod := Nat.mod_lt b.length (show 16 > 0 by decide)
  exact ⟨Nat.le_sub_of_add_le (by omega), Nat.sub_le _ _⟩

theorem length_append_padding (b : Bytes) :
    (b ++ padding b).length = 16 * (b.length / 16 + 1) := by
  have hmod := Nat.mod_lt b.length (show 16 > 0 by decide)
  rw [List.length_append, padding, List.length_replicate, paddingSize]
  omega

theorem unpad?_append_padding (b : Bytes) : unpad? (b ++ padding b) = some b := by
  obtain ⟨hpos, hle⟩ := paddingSize_bounds b
  have hne : paddingSize b ≠ 0 := Nat.ne_of_gt hpos
  have hlast : (b ++ padding b).getLast? = some (UInt8.ofNat (paddingSize b)) := by
    rw [List.getLast?_append, padding, List.getLast?_replicate, if_neg hne, Option.some_or]
  have htoNat : (UInt8.ofNat (paddingSize b)).toNat = paddingSize b := by
    rw [UInt8.toNat_ofNat', Nat.mod_eq_of_lt (by omega)]
  have hlength : (b ++ padding b).length = b.length + paddingSize b := by
    rw [List.length_append, padding, List.length_replicate]
  have hsub : (b ++ padding b).length - paddingSize b = b.length := by omega
  have hall : (padding b).all (· == UInt8.ofNat (paddingSize b)) = true := by
    rw [List.all_eq_true]
    intro x hx
    exact beq_iff_eq.mpr (List.eq_of_mem_replicate hx)
  rw [unpad?, hlast]
  simp only [htoNat]
  rw [hsub, List.drop_left, List.take_left, if_pos ⟨hpos, hle, by omega, hall⟩]

/-! ## Chains -/

theorem length_encipherBlocks (keys : List Block) (before : Block) (ss : List Block) :
    (encipherBlocks keys before ss).length = ss.length := by
  induction ss generalizing before with
  | nil => rfl
  | cons s ss ih => rw [encipherBlocks, List.length_cons, ih, List.length_cons]

theorem blocks_encipherBlocks {keys : List Block} (h : 2 ≤ keys.length) (before : Block)
    (ss : List Block) :
    blocks keys before ((encipherBlocks keys before ss).map Block.toBytes) =
      ss.flatMap Block.toBytes := by
  induction ss generalizing before with
  | nil => rfl
  | cons s ss ih =>
    rw [encipherBlocks, List.map_cons, blocks]
    simp only [Block.ofBytes_toBytes]
    rw [decipher_encipher h, Block.xor_xor, ih, List.flatMap_cons]

theorem flatMap_toBytes_map {bs : List Bytes} (h : ∀ b ∈ bs, b.length = 16) :
    (bs.map Block.ofBytes).flatMap Block.toBytes = bs.flatten := by
  induction bs with
  | nil => rfl
  | cons b bs ih =>
    rw [List.forall_mem_cons] at h
    rw [List.map_cons, List.flatMap_cons, Block.toBytes_ofBytes h.1, ih h.2, List.flatten_cons]

theorem forall_mem_toBytes (ss : List Block) : ∀ b ∈ ss.map Block.toBytes, b.length = 16 := by
  intro b hb
  obtain ⟨s, -, rfl⟩ := List.mem_map.mp hb
  exact Block.length_toBytes s

theorem length_encrypt (key vector b : Bytes) :
    (encrypt key vector b).length = 16 * (b.length / 16 + 1) := by
  obtain ⟨pieces, hpieces, hcount, hsize⟩ := Bytes.exists_flatten (length_append_padding b)
  rw [encrypt, ← hpieces, Bytes.chunks_flatten (by decide) hsize, List.flatMap_def,
    Bytes.length_flatten (forall_mem_toBytes _), List.length_map, length_encipherBlocks,
    List.length_map, hcount]

/-- What is encrypted with a key and a vector is decrypted with them. -/
theorem decrypt?_encrypt {key : Bytes} {width : Nat} (hpos : 0 < width)
    (h : key.length = 4 * width) (vector b : Bytes) :
    decrypt? key vector (encrypt key vector b) = some b := by
  obtain ⟨pieces, hpieces, hcount, hsize⟩ := Bytes.exists_flatten (length_append_padding b)
  have hlength := length_encrypt key vector b
  have hwhole : ¬(encrypt key vector b = [] ∨ (encrypt key vector b).length % 16 ≠ 0) := by
    rw [← List.length_eq_zero_iff, hlength]
    omega
  have hkeys : 2 ≤ (roundKeys key).length := by
    rw [length_roundKeys hpos h]
    omega
  rw [decrypt?, if_neg hwhole, encrypt, List.flatMap_def,
    Bytes.chunks_flatten (by decide) (forall_mem_toBytes _), blocks_encipherBlocks hkeys, ← hpieces,
    Bytes.chunks_flatten (by decide) hsize, flatMap_toBytes_map hsize, hpieces,
    unpad?_append_padding]

end Strongbox.Aes.Cbc
