/-
  Strongbox.Proofs.Service.Schemes — a signature belongs to one scheme and to one digest.

  Of a signature an RSA key gives back the whole block that was signed. Its filler ends at the
  first octet that is not 255, and behind it stand the name of the digest algorithm and the
  digest, whose length the name tells. So the block leaves no choice of the algorithm, whatever
  the size of the key is, and verifying chooses the digest by the same scheme as the name.
  - `Pkcs1.signedOctets?_inj`: blocks are equal only for one algorithm and one digest.
  - `Primitives.verify_rsa_iff_sameDigest`: of an accepted signature, which other checks accept it.
-/

import Strongbox.Proofs.Service.Signatures

namespace Strongbox

open Outcome

/-! ## The signed block -/

namespace Rsa.Pkcs1

variable {size : Nat} {a b : Digest.Algorithm} {data data' : Bytes}

/-- A filler of one octet is over where another octet stands. -/
theorem filler_append_inj {x y : UInt8} (h : x ≠ y) {m n : Nat} {s t : Bytes}
    (he : List.replicate m x ++ y :: s = List.replicate n x ++ y :: t) : s = t := by
  induction m generalizing n with
  | zero =>
    cases n with
    | zero => exact (List.cons.inj he).2
    | succ n => exact absurd (List.cons.inj he).1.symm h
  | succ m ih =>
    cases n with
    | zero => exact absurd (List.cons.inj he).1 h
    | succ n => exact ih (List.cons.inj he).2

/-- The second octet of a header is the length of what follows, which no two algorithms share. -/
theorem digestHeader_append_inj {s t : Bytes} (h : digestHeader a ++ s = digestHeader b ++ t) :
    a = b ∧ s = t := by
  have ha : a = b := by
    have h1 : (digestHeader a ++ s)[1]? = (digestHeader b ++ t)[1]? := by rw [h]
    cases a <;> cases b <;> first | rfl | exact absurd (Option.some.inj h1) (by decide)
  subst ha
  exact ⟨rfl, List.append_cancel_left h⟩

/-- The block that is signed tells the algorithm and the digest. -/
theorem signedOctets?_inj {em : Bytes} (h : signedOctets? size a data = some em)
    (h' : signedOctets? size b data' = some em) : a = b ∧ a.digest data = b.digest data' := by
  obtain ⟨-, hem⟩ := Option.ite_none_left_eq_some.mp h
  obtain ⟨-, hem'⟩ := Option.ite_none_left_eq_some.mp h'
  have hblock := (Option.some.inj hem).trans (Option.some.inj hem').symm
  obtain ⟨-, hblock⟩ := List.cons.inj hblock
  obtain ⟨-, hblock⟩ := List.cons.inj hblock
  exact digestHeader_append_inj (filler_append_inj (by decide) hblock)

/-- The block depends on the message by its digest alone. -/
theorem signedOctets?_congr (h : a.digest data = a.digest data') :
    signedOctets? size a data = signedOctets? size a data' := by
  rw [signedOctets?, signedOctets?, h]

/-- A signature is accepted when it is a number of the key and its image is the whole block. -/
theorem verify_eq_true {key : PublicKey} {signature : Bytes} :
    verify key a data signature = true ↔ signature.length = key.size ∧
      signature.toNat < key.modulus ∧
        signedOctets? key.size a data =
          some (Bytes.ofNat key.size (key.apply signature.toNat)) := by
  rw [verify]
  cases signedOctets? key.size a data with
  | none =>
    constructor
    · intro h
      cases h
    · rintro ⟨-, -, h⟩
      cases h
  | some em =>
    simp only [Bool.and_eq_true, beq_iff_eq, decide_eq_true_eq, and_assoc, Option.some.injEq]
    exact and_congr_right fun _ => and_congr_right fun _ => eq_comm

theorem verify_unique {key : PublicKey} {signature : Bytes}
    (h : verify key a data signature = true) :
    verify key b data' signature = true ↔ b = a ∧ a.digest data' = a.digest data := by
  obtain ⟨hl, hlt, hem⟩ := verify_eq_true.mp h
  constructor
  · intro h'
    obtain ⟨-, -, hem'⟩ := verify_eq_true.mp h'
    obtain ⟨rfl, hd⟩ := signedOctets?_inj hem' hem
    exact ⟨rfl, hd⟩
  · rintro ⟨rfl, hd⟩
    exact verify_eq_true.mpr ⟨hl, hlt, (signedOctets?_congr hd).trans hem⟩

end Rsa.Pkcs1

/-! ## Schemes -/

namespace Primitives

/-- An RSA key accepts signatures under the schemes for RSA only. -/
theorem verify_rsa_eq_ok {s : SignatureScheme} {provider : Option String} {key : Rsa.PublicKey}
    {data signature : Bytes} :
    verify s provider (.rsa key) data signature = .ok true ↔ checkProvider provider = .ok () ∧
      ∃ a, s = .rsa a ∧ Rsa.Pkcs1.verify key a data signature = true := by
  constructor
  · intro h
    obtain ⟨⟨⟩, hp, h⟩ := bind_eq_ok.mp h
    refine ⟨hp, ?_⟩
    cases s with
    | ed25519 => cases h
    | rsa a =>
      obtain ⟨-, h⟩ := Outcome.ite_error_eq_ok.mp h
      exact ⟨a, rfl, h.symm⟩
  · rintro ⟨hp, a, rfl, h⟩
    have hl := (Rsa.Pkcs1.verify_eq_true.mp h).1
    rw [verify, bind_of_ok hp, if_neg (not_not.mpr hl), h]
    rfl

/-- A signature that an RSA key accepts, or that a private key of it made, is accepted under the
scheme it was made with and for messages of the same digest, and never under another scheme or
for another digest. -/
theorem verify_rsa_iff_sameDigest {s : SignatureScheme} {provider : Option String}
    {key : Rsa.PublicKey} {data signature : Bytes}
    (h : verify s provider (.rsa key) data signature = .ok true ∨
      ∃ k : Rsa.PrivateKey, k.publicKey = key ∧
        sign s provider (.rsa k) data = .ok signature) :
    ∃ a, s = .rsa a ∧ ∀ (s' : SignatureScheme) (provider' : Option String) (data' : Bytes),
      verify s' provider' (.rsa key) data' signature = .ok true ↔
        checkProvider provider' = .ok () ∧ s' = s ∧ a.digest data' = a.digest data := by
  have hv : ∃ a, s = .rsa a ∧ Rsa.Pkcs1.verify key a data signature = true := by
    rcases h with h | ⟨k, rfl, h⟩
    · exact (verify_rsa_eq_ok.mp h).2
    · have hk (e : Ed25519.PrivateKey) (he : PrivateKey.rsa k = .ed25519 e) : e.Verifies data :=
        nomatch he
      have h' : verify s none (.rsa k.publicKey) data signature = .ok true := verify_sign hk h rfl
      exact (verify_rsa_eq_ok.mp h').2
  obtain ⟨a, rfl, hv⟩ := hv
  refine ⟨a, rfl, fun s' provider' data' => ?_⟩
  rw [verify_rsa_eq_ok]
  refine and_congr_right fun _ => ?_
  constructor
  · rintro ⟨b, rfl, h'⟩
    obtain ⟨rfl, hd⟩ := (Rsa.Pkcs1.verify_unique hv).mp h'
    exact ⟨rfl, hd⟩
  · rintro ⟨rfl, hd⟩
    exact ⟨a, rfl, (Rsa.Pkcs1.verify_unique hv).mpr ⟨rfl, hd⟩⟩

/-- A signature with SHA-256, made with the key of two Mersenne primes: it is accepted as such,
and with SHA-1 it is accepted for no message. -/
theorem verify_rsa_iff_sameDigest_mersenne :
    ∃ signature, sign (.rsa .sha256) none (.rsa .ofMersenne) [1] = .ok signature ∧
      verify (.rsa .sha256) none (.rsa Rsa.PrivateKey.ofMersenne.publicKey) [1] signature =
        .ok true ∧
      ∀ data, verify (.rsa .sha1) none (.rsa Rsa.PrivateKey.ofMersenne.publicKey) data
        signature ≠ .ok true := by
  obtain ⟨signature, hs⟩ :=
    Rsa.Pkcs1.exists_sign Rsa.PrivateKey.ofMersenne_inverts (a := .sha256) (by decide +kernel) [1]
  have h : sign (.rsa .sha256) none (.rsa .ofMersenne) [1] = .ok signature := ofRsa_eq_ok.mpr hs
  obtain ⟨a, -, hv⟩ := verify_rsa_iff_sameDigest (.inr ⟨_, rfl, h⟩)
  refine ⟨signature, h, (hv _ _ _).mpr ⟨rfl, rfl, rfl⟩, fun data h' => ?_⟩
  obtain ⟨-, hne, -⟩ := (hv _ _ _).mp h'
  cases hne

end Primitives

end Strongbox
