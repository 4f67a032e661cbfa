/-
  Strongbox.Proofs.Rsa.Signature — a signature is one of the message that was signed.

  The private permutation answers only where the public one leads back to its argument, so the
  public image of a signature is the block that was signed, whatever the key is like. A key that
  inverts answers everywhere, as the public permutation is one of finitely many numbers.
  - `Pkcs1.verify_sign`: what a key signs its public key verifies.
  - `Pkcs1.exists_sign`: a key that inverts signs every message it has room for.
-/

import Mathlib.Data.Fintype.EquivFin
import Strongbox.Proofs.Rsa.Padding

namespace Strongbox.Rsa

open Outcome

/-! ## The private permutation -/

theorem PublicKey.apply_lt {k : PublicKey} {m : Nat} (h : 0 < k.modulus) : k.apply m < k.modulus := by
  rw [apply, Number.powMod_eq]
  exact Nat.mod_lt _ h

theorem PrivateKey.of_apply_eq_ok {k : PrivateKey} {c m : Nat} (h : k.apply c = .ok m) :
    c < k.publicKey.modulus ∧ m < k.publicKey.modulus ∧ k.publicKey.apply m = c := by
  obtain ⟨hc, h⟩ : c < k.publicKey.modulus ∧ (if k.publicKey.apply
      (Number.powMod k.publicKey.modulus c k.exponent) = c
        then .ok (Number.powMod k.publicKey.modulus c k.exponent)
        else .error .inconsistentKey : Except Error Nat) = .ok m := by
    rw [apply] at h
    split at h
    · cases h
    · rename_i hc
      exact ⟨Nat.not_le.mp hc, h⟩
  obtain ⟨hm, rfl⟩ := ite_ok_eq_ok.mp h
  refine ⟨hc, ?_, hm⟩
  rw [Number.powMod_eq]
  exact Nat.mod_lt _ (Nat.zero_lt_of_lt hc)

/-- A key that inverts answers for every number below the modulus. -/
theorem PrivateKey.Inverts.exists_apply {k : PrivateKey} (hi : k.Inverts) {c : Nat}
    (hc : c < k.publicKey.modulus) : ∃ m, k.apply c = .ok m := by
  have hpos : 0 < k.publicKey.modulus := Nat.zero_lt_of_lt hc
  let image (m : Fin k.publicKey.modulus) : Fin k.publicKey.modulus :=
    ⟨k.publicKey.apply m, PublicKey.apply_lt hpos⟩
  have hinj : Function.Injective image := by
    intro m n h
    have hm := hi m m.isLt
    rw [Fin.mk.inj h, hi n n.isLt] at hm
    exact Fin.ext (Except.ok.inj hm).symm
  obtain ⟨m, hm⟩ := (Finite.injective_iff_surjective.mp hinj) ⟨c, hc⟩
  refine ⟨m, ?_⟩
  rw [← Fin.mk.inj hm]
  exact hi m m.isLt

/-! ## Signatures with the older padding -/

namespace Pkcs1

variable {size : Nat} {a : Digest.Algorithm} {message : Bytes}

theorem length_signedOctets? {em : Bytes} (h : signedOctets? size a message = some em) :
    em.length = size := by
  rw [signedOctets?] at h
  split at h
  · cases h
  · rename_i hroom
    cases h
    simp only [List.length_append, List.length_cons, List.length_replicate] at hroom ⊢
    omega

theorem head?_signedOctets? {em : Bytes} (h : signedOctets? size a message = some em) :
    em.head? = some 0 := by
  rw [signedOctets?] at h
  split at h
  · cases h
  · cases h
    rfl

/-- The name of an algorithm and its digest, with the least padding, are all that needs room. -/
theorem exists_signedOctets? (h : (digestHeader a).length + a.size + 11 ≤ size)
    (message : Bytes) : ∃ em, signedOctets? size a message = some em := by
  rw [signedOctets?]
  have hroom : ¬ size < (digestHeader a ++ a.digest message).length + 11 := by
    rw [List.length_append, Digest.Algorithm.length_digest]
    omega
  simp only [if_neg hroom]
  exact ⟨_, rfl⟩

theorem sign_eq_ok {key : PrivateKey} {signature : Bytes} :
    sign key a message = .ok signature ↔ ∃ em m, signedOctets? key.size a message = some em ∧
      key.apply em.toNat = .ok m ∧ signature = Bytes.ofNat key.size m := by
  rw [sign]
  cases signedOctets? key.size a message with
  | none => simp
  | some em =>
    cases hm : key.apply em.toNat with
    | error e => simp [Except.map, hm]
    | ok m => simp [Except.map, hm, eq_comm]

/-- What a key signs its public key verifies, and the signature fills the modulus. -/
theorem verify_sign {key : PrivateKey} {signature : Bytes}
    (h : sign key a message = .ok signature) :
    signature.length = key.publicKey.size ∧ verify key.publicKey a message signature = true := by
  obtain ⟨em, m, hem, hm, rfl⟩ := sign_eq_ok.mp h
  obtain ⟨-, hlt, hpublic⟩ := PrivateKey.of_apply_eq_ok hm
  have hl : (Bytes.ofNat key.size m).length = key.publicKey.size := Bytes.length_ofNat _ _
  have hread : (Bytes.ofNat key.size m).toNat = m :=
    Bytes.toNat_ofNat (Nat.lt_trans hlt (Bytes.lt_capacity_widthOf _))
  have hblock : Bytes.ofNat key.publicKey.size em.toNat = em :=
    PrivateKey.ofNat_block (length_signedOctets? hem)
  refine ⟨hl, ?_⟩
  rw [PrivateKey.size] at hem
  rw [verify, hem]
  simp only [hl, hread, hpublic, hblock, beq_self_eq_true, decide_eq_true hlt, Bool.and_self]

theorem exists_sign {key : PrivateKey} (hi : key.Inverts)
    (hroom : (digestHeader a).length + a.size + 11 ≤ key.size) (message : Bytes) :
    ∃ signature, sign key a message = .ok signature := by
  obtain ⟨em, hem⟩ := exists_signedOctets? hroom message
  obtain ⟨rest, rfl⟩ := List.head?_eq_some_iff.mp (head?_signedOctets? hem)
  have hlt : Bytes.toNat (0 :: rest) < key.publicKey.modulus :=
    PrivateKey.toNat_block_lt (length_signedOctets? hem)
  obtain ⟨m, hm⟩ := hi.exists_apply hlt
  exact ⟨_, sign_eq_ok.mpr ⟨_, m, hem, hm, rfl⟩⟩

end Pkcs1

end Strongbox.Rsa
