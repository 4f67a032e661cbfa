/-
  Strongbox.Proofs.Rsa.Padding — decryption undoes encryption, for both paddings.

  A padded message fills the octets of the modulus and begins with zero, so as a number it is
  below the modulus: the permutations give it back, and so do its octets. What remains is that
  each padding can be taken off again.
  - `Pkcs1.decrypt_encrypt`, `Oaep.decrypt_encrypt`: a key that inverts decrypts what its public
    key encrypted.
-/

import Strongbox.Proofs.Bytes
import Strongbox.Proofs.Outcome
import Strongbox.Proofs.Rsa.Inverse
import Strongbox.Proofs.Thumbprint
import Strongbox.Rsa.Oaep
import Strongbox.Rsa.Pkcs1

namespace Strongbox.Rsa

theorem PublicKey.check_bind_eq_ok (k : PublicKey) {x : Except Error α} {a : α} :
    (k.check >>= fun _ => x) = .ok a ↔ k.isUsable = true ∧ x = .ok a := by
  rw [Outcome.bind_eq_ok, ← check_eq_ok_iff]
  constructor
  · rintro ⟨⟨⟩, hc, h⟩
    exact ⟨hc, h⟩
  · rintro ⟨hc, h⟩
    exact ⟨(), hc, h⟩

/-! ## Blocks of octets under a key -/

def PublicKey.image (k : PublicKey) (block : Bytes) : Bytes :=
  Bytes.ofNat k.size (k.apply block.toNat)

@[simp] theorem PublicKey.length_image (k : PublicKey) (block : Bytes) :
    (k.image block).length = k.size := Bytes.length_ofNat _ _

/-- A block that fills the modulus and begins with zero is a number below it. -/
theorem PrivateKey.toNat_block_lt {k : PrivateKey} {rest : Bytes}
    (hl : (0 :: rest : Bytes).length = k.size) :
    Bytes.toNat (0 :: rest) < k.publicKey.modulus := by
  have hn : k.publicKey.modulus ≠ 0 := by
    intro hz
    rw [size, PublicKey.size, hz] at hl
    cases hl
  have hr : rest.length = Bytes.widthOf k.publicKey.modulus - 1 := by
    rw [← PublicKey.size, ← size, ← hl, List.length_cons, Nat.add_sub_cancel]
  have hz : (0 : UInt8).toNat = 0 := rfl
  rw [Bytes.toNat_cons, hz, Nat.zero_mul, Nat.zero_add]
  refine Nat.lt_of_lt_of_le (Bytes.toNat_lt_capacity rest) ?_
  rw [hr]
  exact Bytes.capacity_widthOf_le hn

/-- A block that fills the modulus and begins with zero is recovered from its image. -/
theorem PrivateKey.apply_image {k : PrivateKey} (hi : k.Inverts) {block : Bytes}
    (h0 : block.head? = some 0) (hl : block.length = k.size) :
    k.apply (k.publicKey.image block).toNat = .ok block.toNat := by
  obtain ⟨rest, rfl⟩ : ∃ rest, block = 0 :: rest := List.head?_eq_some_iff.mp h0
  have hm := PrivateKey.toNat_block_lt hl
  have hc : k.publicKey.apply (Bytes.toNat (0 :: rest)) < k.publicKey.modulus := by
    rw [PublicKey.apply, Number.powMod_eq]
    exact Nat.mod_lt _ (Nat.zero_lt_of_lt hm)
  have hw : k.publicKey.apply (Bytes.toNat (0 :: rest)) < Bytes.capacity k.publicKey.size :=
    Nat.lt_trans hc (Bytes.lt_capacity_widthOf _)
  rw [PublicKey.image, Bytes.toNat_ofNat hw, hi _ hm]

theorem PrivateKey.ofNat_block {k : PrivateKey} {block : Bytes} (hl : block.length = k.size) :
    Bytes.ofNat k.size block.toNat = block := by
  rw [← hl, Bytes.ofNat_toNat]

/-! ## The older padding -/

namespace Pkcs1

theorem length_pad (random : Nat → UInt8) {size : Nat} {message : Bytes}
    (h : message.length + 11 ≤ size) : (pad size random message).length = size := by
  simp only [pad, List.length_cons, List.length_append, List.length_map, List.length_range]
  omega

theorem encrypt_eq_ok {key : PublicKey} {random : Nat → UInt8} {message c : Bytes} :
    encrypt key random message = .ok c ↔ key.isUsable = true ∧
      message.length + 11 ≤ key.size ∧ c = key.image (pad key.size random message) := by
  rw [encrypt, key.check_bind_eq_ok, Outcome.ite_error_eq_ok, gt_iff_lt, Nat.not_lt]
  rfl

theorem failsAs_unpad (em : Bytes) : Outcome.FailsAs (· = .decryption) (unpad em) := by
  unfold unpad
  split
  · dsimp only
    split
    · split
      · exact Outcome.failsAs_error.mpr rfl
      · exact Outcome.failsAs_ok _
    · exact Outcome.failsAs_error.mpr rfl
  · exact Outcome.failsAs_error.mpr rfl

/-- There is no padding on less than eleven octets. -/
theorem unpad_of_short {em : Bytes} (h : em.length < 11) :
    unpad em = .error .decryption := by
  unfold unpad
  split
  · rename_i rest
    dsimp only
    split
    · rename_i b message hd
      have hl := congrArg List.length hd
      simp only [List.length_drop, List.length_cons] at hl h
      rw [if_pos (by omega)]
    · rfl
  · rfl

/-- The size of the key is checked by taking the padding off. -/
theorem decrypt_eq (k : PrivateKey) (data : Bytes) :
    decrypt k data = (k.publicKey.check >>= fun _ => k.apply data.toNat >>= fun m =>
      unpad (Bytes.ofNat k.size m)) := by
  have h (m : Nat) : (if k.size < 11 then throw .decryption else unpad (Bytes.ofNat k.size m) :
      Except Error Bytes) = unpad (Bytes.ofNat k.size m) := by
    split
    · rename_i hs
      rw [unpad_of_short (by rwa [Bytes.length_ofNat])]
      rfl
    · rfl
  rw [← funext h]
  rfl

theorem decrypt_encrypt {key : PrivateKey} (hi : key.Inverts) {random : Nat → UInt8}
    {message c : Bytes} (h : encrypt key.publicKey random message = .ok c) :
    decrypt key c = .ok message := by
  obtain ⟨hu, hl, rfl⟩ := encrypt_eq_ok.mp h
  have hp : (pad key.publicKey.size random message).length = key.size := length_pad random hl
  rw [decrypt_eq, Outcome.bind_of_ok (PublicKey.check_eq_ok_iff.mpr hu),
    key.apply_image hi rfl hp, Outcome.ok_bind]
  rw [PrivateKey.ofNat_block hp, unpad_pad random hl]

end Pkcs1

/-! ## Optimal padding -/

namespace Oaep

@[simp] theorem length_maskOctets (seed : Bytes) (size : Nat) : (maskOctets seed size).length = size := by
  have hf (is : List Nat) :
      ((is.map fun i => Digest.sha1 (seed ++ Bytes.ofNat 4 i)).flatten).length = 20 * is.length := by
    induction is with
    | nil => rfl
    | cons i is ih =>
      rw [List.map_cons, List.flatten_cons, List.length_append, ih, Digest.length_sha1,
        List.length_cons]
      omega
  rw [maskOctets, List.length_take, hf, List.length_range]
  omega

theorem length_dataBlock {size : Nat} {digest : Digest.Algorithm} {message : Bytes}
    (h : message.length + 2 * digest.size + 2 ≤ size) :
    (dataBlock size digest message).length = size - digest.size - 1 := by
  simp only [dataBlock, List.length_append, List.length_replicate, List.length_cons,
    Digest.Algorithm.length_digest]
  omega

theorem length_masked {size : Nat} {digest : Digest.Algorithm} {seed message : Bytes}
    (h : message.length + 2 * digest.size + 2 ≤ size) :
    (Bytes.xor (dataBlock size digest message)
      (maskOctets seed (size - digest.size - 1))).length = size - digest.size - 1 := by
  rw [Bytes.length_xor, length_dataBlock h, length_maskOctets, Nat.min_self]

theorem length_pad {size : Nat} {digest : Digest.Algorithm} {seed message : Bytes}
    (hs : seed.length = digest.size) (h : message.length + 2 * digest.size + 2 ≤ size) :
    (pad size digest seed message).length = size := by
  simp only [pad, List.length_append, List.length_cons, length_masked h, Bytes.length_xor,
    length_maskOctets, hs, Nat.min_self]
  omega

/-- The zeros of a data block end at the octet before the message. -/
theorem dropWhile_replicate (n : Nat) (message : Bytes) :
    (List.replicate n 0 ++ 1 :: message).dropWhile (· == (0 : UInt8)) = 1 :: message := by
  rw [List.dropWhile_append_of_pos fun x hx => by rw [List.eq_of_mem_replicate hx]; rfl]
  rfl

/-- A padded message is read back, when there is room for it. -/
theorem unpad_pad {size : Nat} {digest : Digest.Algorithm} {seed message : Bytes}
    (hs : seed.length = digest.size) (h : message.length + 2 * digest.size + 2 ≤ size) :
    unpad digest (pad size digest seed message) = .ok message := by
  obtain ⟨masked, hm⟩ : ∃ m, m = Bytes.xor (dataBlock size digest message)
    (maskOctets seed (size - digest.size - 1)) := ⟨_, rfl⟩
  have hml : masked.length = size - digest.size - 1 := by rw [hm, length_masked h]
  have hsl : (Bytes.xor seed (maskOctets masked digest.size)).length = digest.size := by
    rw [Bytes.length_xor, length_maskOctets, hs, Nat.min_self]
  have hseed : Bytes.xor (Bytes.xor seed (maskOctets masked digest.size))
      (maskOctets masked digest.size) = seed :=
    Bytes.xor_xor _ _ (by rw [length_maskOctets, hs])
  have hblock : Bytes.xor masked (maskOctets seed masked.length) = dataBlock size digest message := by
    rw [hml, hm]
    exact Bytes.xor_xor _ _ (by rw [length_maskOctets, length_dataBlock h])
  have hd := digest.length_digest []
  simp only [pad, ← hm, unpad, List.cons_append, List.take_left' hsl, List.drop_left' hsl, hseed,
    hblock]
  rw [dataBlock, List.append_assoc, List.take_left' hd, List.drop_left' hd, dropWhile_replicate,
    if_neg (not_not_intro rfl)]
  rfl

theorem encrypt_eq_ok {key : PublicKey} {digest : Digest.Algorithm} {random : Nat → UInt8}
    {message c : Bytes} :
    encrypt key digest random message = .ok c ↔ key.isUsable = true ∧
      message.length + 2 * digest.size + 2 ≤ key.size ∧
        c = key.image (pad key.size digest ((List.range digest.size).map random) message) := by
  rw [encrypt, key.check_bind_eq_ok, Outcome.ite_error_eq_ok, gt_iff_lt, Nat.not_lt]
  rfl

theorem failsAs_unpad (digest : Digest.Algorithm) (em : Bytes) :
    Outcome.FailsAs (· = .decryption) (unpad digest em) := by
  unfold unpad
  split
  · dsimp only
    split
    · exact Outcome.failsAs_error.mpr rfl
    · split
      · exact Outcome.failsAs_ok _
      · exact Outcome.failsAs_error.mpr rfl
  · exact Outcome.failsAs_error.mpr rfl

theorem decrypt_eq (k : PrivateKey) (digest : Digest.Algorithm) (data : Bytes) :
    decrypt k digest data = (k.publicKey.check >>= fun _ =>
      if data.length > k.size ∨ k.size < 2 * digest.size + 2 then .error .decryption
      else k.apply data.toNat >>= fun m => unpad digest (Bytes.ofNat k.size m)) := rfl

/-- A key that inverts decrypts what its public key encrypted. -/
theorem decrypt_encrypt {key : PrivateKey} (hi : key.Inverts) {digest : Digest.Algorithm}
    {random : Nat → UInt8} {message c : Bytes}
    (h : encrypt key.publicKey digest random message = .ok c) :
    decrypt key digest c = .ok message := by
  obtain ⟨hu, hl, rfl⟩ := encrypt_eq_ok.mp h
  have hs : ((List.range digest.size).map random).length = digest.size := by
    rw [List.length_map, List.length_range]
  have hp : (pad key.publicKey.size digest ((List.range digest.size).map random) message).length =
      key.size := length_pad hs hl
  have hsize : ¬ ((key.publicKey.image (pad key.publicKey.size digest
      ((List.range digest.size).map random) message)).length > key.size ∨
        key.size < 2 * digest.size + 2) := by
    rw [PublicKey.length_image, PrivateKey.size]
    omega
  rw [decrypt_eq, Outcome.bind_of_ok (PublicKey.check_eq_ok_iff.mpr hu), if_neg hsize,
    key.apply_image hi rfl hp, Outcome.ok_bind]
  rw [PrivateKey.ofNat_block hp, unpad_pad hs hl]

end Oaep

end Strongbox.Rsa
