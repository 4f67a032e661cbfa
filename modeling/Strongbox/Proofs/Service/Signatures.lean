/-
  Strongbox.Proofs.Service.Signatures — what is signed with one key of a pair is verified with the
  other.

  Signing and verifying choose the padding, the digest and the kind of key by the scheme, each on
  its own, and verifying refuses what has not the size of a signature. RSA needs no assumption
  about the key, since the private permutation is checked with the public one; of Ed25519 it is
  assumed that the public key accepts what the private key signs (`Verifies`).
  - `Primitives.verify_sign`: under one scheme the public half of the key verifies.
  - `Service.verify_own_signature`: under two names of the scheme the certificate of the context
    does.
-/

import Strongbox.KeyStore.Memory
import Strongbox.Proofs.Operations
import Strongbox.Proofs.Resolver
import Strongbox.Proofs.Rsa.Signature
import Strongbox.Service

namespace Strongbox

open Outcome

namespace Ed25519

def PrivateKey.Verifies (k : PrivateKey) (data : Bytes) : Prop :=
  verify k.publicKey data (sign k data) = true

theorem length_sign (k : PrivateKey) (data : Bytes) : (sign k data).length = 64 := by
  simp only [sign, Point.toBytes, List.length_append, List.length_reverse, Bytes.length_ofNat]

/-! ## Signatures from their digests -/

section

variable {k : PrivateKey} {message low high nonce challenge point : Bytes}

theorem number_of_digest (hseed : Digest.sha512 k.seed = low ++ high) (hlow : low.length = 32) :
    k.number = (1 <<< 254) + littleEndian low % (1 <<< 254) / 8 * 8 := by
  simp only [PrivateKey.number, hseed, List.take_left' hlow]

theorem sign_of_digests (hseed : Digest.sha512 k.seed = low ++ high) (hlow : low.length = 32)
    (hnonce : Digest.sha512 (high ++ message) = nonce)
    (hpoint : (Point.base.times (littleEndian nonce % groupOrder)).toBytes = point)
    (hchallenge : Digest.sha512 (point ++ k.publicKey.octets ++ message) = challenge) :
    sign k message = point ++ (Bytes.ofNat 32 ((littleEndian nonce % groupOrder +
      littleEndian challenge % groupOrder * k.number) % groupOrder)).reverse := by
  simp only [sign, hseed, List.drop_left' hlow, hnonce, hpoint, hchallenge]

theorem verify_of_digest {octets answer : Bytes} {a : Point}
    (ha : Point.ofBytes? octets = some a) (hpoint : point.length = 32)
    (hchallenge : Digest.sha512 (point ++ octets ++ message) = challenge) :
    verify ⟨octets⟩ message (point ++ answer) = (decide (littleEndian answer < groupOrder) &&
      ((Point.base.times (littleEndian answer)).add
        (a.negate.times (littleEndian challenge % groupOrder))).toBytes == point) := by
  simp only [verify, List.take_left' hpoint, List.drop_left' hpoint, ha, hchallenge]

end

end Ed25519

theorem SignatureScheme.parse_of_toList {name : String} {s : SignatureScheme}
    (h : ofName? (String.ofList ((Text.trim name).toList.map Char.toUpper)) = some s) :
    parse name = .ok s := by
  rw [parse, Text.toUpper_eq, h]

/-- The public half of the key verifies what the key signs, and refuses it for no reason. -/
theorem Primitives.verify_sign {s : SignatureScheme} {provider provider' : Option String}
    {key : PrivateKey} {data signature : Bytes} (hk : ∀ e, key = .ed25519 e → e.Verifies data)
    (h : sign s provider key data = .ok signature) (hp : checkProvider provider' = .ok ()) :
    verify s provider' key.publicKey data signature = .ok true := by
  obtain ⟨⟨⟩, -, h⟩ := bind_eq_ok.mp h
  cases s with
  | ed25519 =>
    cases key with
    | rsa k => cases h
    | ed25519 k =>
      cases h
      have hl : ¬ (Ed25519.sign k data).length ≠ 64 := not_not.mpr (Ed25519.length_sign k data)
      have hv : Ed25519.verify k.publicKey data (Ed25519.sign k data) = true := hk k rfl
      show verify .ed25519 provider' (.ed25519 k.publicKey) data _ = _
      rw [verify, bind_of_ok hp, if_neg hl, hv]
      rfl
  | rsa digest =>
    cases key with
    | ed25519 k => cases h
    | rsa k =>
      obtain ⟨hl, hv⟩ := Rsa.Pkcs1.verify_sign (ofRsa_eq_ok.mp h)
      show verify (.rsa digest) provider' (.rsa k.publicKey) data _ = _
      rw [verify, bind_of_ok hp, if_neg (not_not.mpr hl), hv]
      rfl

theorem Operations.verify_sign {data signature : Bytes} {key : PrivateKey} {s s' : AlgorithmSpec}
    (hk : ∀ e, key = .ed25519 e → e.Verifies data) (h : sign data key s = .ok signature)
    (hs : s'.signatureScheme = s.signatureScheme)
    (hp : Primitives.checkProvider s'.provider = .ok ()) :
    verify data signature key.publicKey s' = .ok true := by
  obtain ⟨t, ht, hsigned⟩ := bind_eq_ok.mp (finish_eq_ok.mp h)
  exact finish_eq_ok.mpr (bind_eq_ok.mpr ⟨t, hs.trans ht, Primitives.verify_sign hk hsigned hp⟩)

namespace Service

theorem certificate_eq_ok {s : Service} {c : CryptoContext} {cert : Certificate} :
    s.certificate c = .ok cert ↔
      s.resolver.store.certificate (s.resolver.aliasFor c) = .ok (some cert) := by
  rw [certificate, bind_eq_ok, ← Resolver.certificate_eq_found]
  simp only [Resolution.require_eq_ok, exists_eq_right]

theorem privateKey_eq_ok {s : Service} {c : CryptoContext} {key : PrivateKey} :
    s.privateKey c = .ok key ↔ s.resolver.store.privateKey (s.resolver.aliasFor c)
      (s.resolver.passwordFor (s.resolver.aliasFor c)) = .ok (some key) := by
  rw [privateKey, bind_eq_ok, ← Resolver.privateKey_eq_found]
  simp only [Resolution.require_eq_ok, exists_eq_right]

/-- What a service signs for a context it verifies for the context, when the certificate under the
context's alias is one of the private key's public half: under any name of the scheme that was
signed with, at any provider that is available. -/
theorem verify_own_signature {s : Service} {c : CryptoContext} {d : Certificate} {k : PrivateKey}
    (hd : s.resolver.store.certificate (s.resolver.aliasFor c) = .ok (some d))
    (hk : s.resolver.store.privateKey (s.resolver.aliasFor c)
      (s.resolver.passwordFor (s.resolver.aliasFor c)) = .ok (some k))
    (hpublic : d.publicKey = k.publicKey) {data signature : Bytes}
    (hverifies : ∀ e, k = .ed25519 e → e.Verifies data) {spec spec' : AlgorithmSpec}
    (hspec : spec'.signatureScheme = spec.signatureScheme)
    (hprovider : Primitives.checkProvider spec'.provider = .ok ())
    (h : s.sign data spec c = .ok signature) :
    s.verify data signature spec' c = .ok true := by
  obtain ⟨k', hk', hsigned⟩ := bind_eq_ok.mp h
  rw [privateKey_eq_ok, hk] at hk'
  cases hk'
  refine bind_eq_ok.mpr ⟨d, certificate_eq_ok.mpr hd, ?_⟩
  rw [hpublic]
  exact Operations.verify_sign hverifies hsigned hspec hprovider

def signer (d : Certificate) (k : PrivateKey) : Service where
  resolver :=
    { store := ((MemoryStore.empty.putCertificate "signer" d).putPrivateKey "signer" k []).view
      defaultAlias := "signer"
      defaultPassword := "" }
  providers := .empty
  defaultProvider := ""
  hybrid := false

def sampleKey : Ed25519.PrivateKey := ⟨List.replicate 32 7⟩

def sampleSecret : Bytes :=
  Bytes.ofNat 32 0x2fad39fefd7fa3e200a9c626eef599e61a2d055c48a8288a4e7e4c4bca3928f8

def samplePrefix : Bytes :=
  Bytes.ofNat 32 0x9c7d6db3506d65dbac7c052aaee4857425210c9bc54030c826e54055983452a5

def sampleNonce : Bytes :=
  Bytes.ofNat 32 0xa39d10f24d6224b1cc7376d2bf07c51f453a13066a044fe588c91de38572fa7a ++
    Bytes.ofNat 32 0x5b6fdbf357ec29c94b6884c73d6c85dbad0e2c87f362baacb02c451c9c6d091e

def sampleChallenge : Bytes :=
  Bytes.ofNat 32 0x27efd050d0b9f57cdd795e29106d68b58218fd69a6f4569205a09234b7c4a545 ++
    Bytes.ofNat 32 0x71211e33e58e9a4919fe0aad6824149ae47df9d045297174ee1a0ac6b0801c9f

def samplePublic : Bytes :=
  Bytes.ofNat 32 0xea4a6c63e29c520abef5507b132ec5f9954776aebebe7b92421eea691446d22c

def samplePoint : Bytes :=
  Bytes.ofNat 32 0x6d4c7f936bb1536c2b2a2162708198910e2eaa6a6d6abc613f56164087c509ac

def sampleAnswer : Bytes :=
  Bytes.ofNat 32 0x610fc80e4296d0fc3821dac490cfb795103c325c5a0c1196785c4488aa36a80b

set_option maxRecDepth 100000 in
/-- The signature is computed from its digests, each of which is taken once. -/
theorem sampleKey_verifies : sampleKey.Verifies [1] := by
  have hseed : Digest.sha512 sampleKey.seed = sampleSecret ++ samplePrefix := by decide +kernel
  have hnonce : Digest.sha512 (samplePrefix ++ [1]) = sampleNonce := by decide +kernel
  have hchallenge : Digest.sha512 (samplePoint ++ samplePublic ++ [1]) = sampleChallenge := by
    decide +kernel
  have hnumber : sampleKey.number =
      (1 <<< 254) + Ed25519.littleEndian sampleSecret % (1 <<< 254) / 8 * 8 :=
    Ed25519.number_of_digest hseed (Bytes.length_ofNat ..)
  have hpublic : sampleKey.publicKey = ⟨samplePublic⟩ := by
    rw [Ed25519.PrivateKey.publicKey, hnumber]
    exact congrArg _ (by decide +kernel)
  have hpoint : (Ed25519.Point.base.times
      (Ed25519.littleEndian sampleNonce % Ed25519.groupOrder)).toBytes = samplePoint := by
    decide +kernel
  have hsign : Ed25519.sign sampleKey [1] = samplePoint ++ sampleAnswer := by
    rw [Ed25519.sign_of_digests hseed (Bytes.length_ofNat ..) hnonce hpoint
      (by rw [hpublic, hchallenge]), hnumber]
    exact congrArg (samplePoint ++ ·) (by decide)
  rw [Ed25519.PrivateKey.Verifies, hpublic, hsign,
    Ed25519.verify_of_digest (Option.some_get (by decide +kernel)).symm
      (show samplePoint.length = 32 from Bytes.length_ofNat ..) hchallenge]
  decide +kernel

/-- Both kinds of keys, each under two names of a scheme. -/
theorem verify_own_signature_signer :
    (∃ signature,
      (signer Primitives.sampleCertificate (.rsa .ofMersenne)).sign [1]
          { algorithm := " sha256withRSA" } (.ofOwner ⟨"me"⟩) = .ok signature ∧
        (signer Primitives.sampleCertificate (.rsa .ofMersenne)).verify [1] signature
          { algorithm := "SHA-256WITHRSA", provider := some "RustCrypto" } (.ofOwner ⟨"me"⟩) =
            .ok true) ∧
      ∃ signature,
        (signer { Primitives.sampleCertificate with publicKey := .ed25519 sampleKey.publicKey }
            (.ed25519 sampleKey)).sign [1] { algorithm := "EdDSA" } (.ofOwner ⟨"me"⟩) =
              .ok signature ∧
          (signer { Primitives.sampleCertificate with publicKey := .ed25519 sampleKey.publicKey }
            (.ed25519 sampleKey)).verify [1] signature { algorithm := "ed25519 " }
              (.ofOwner ⟨"me"⟩) = .ok true := by
  have hprovider : Primitives.checkProvider (some "RustCrypto") = .ok () :=
    if_pos (Or.inr (Text.sameLetters_of_toList (by decide)))
  constructor
  · have hscheme : SignatureScheme.parse " sha256withRSA" = .ok (.rsa .sha256) :=
      SignatureScheme.parse_of_toList (by decide)
    have hscheme' : SignatureScheme.parse "SHA-256WITHRSA" = .ok (.rsa .sha256) :=
      SignatureScheme.parse_of_toList (by decide)
    obtain ⟨signature, hsigned⟩ :=
      Rsa.Pkcs1.exists_sign Rsa.PrivateKey.ofMersenne_inverts (a := .sha256) (by decide +kernel) [1]
    have h : (signer Primitives.sampleCertificate (.rsa .ofMersenne)).sign [1]
        { algorithm := " sha256withRSA" } (.ofOwner ⟨"me"⟩) = .ok signature :=
      bind_eq_ok.mpr ⟨_, privateKey_eq_ok.mpr rfl, Operations.finish_eq_ok.mpr
        (bind_eq_ok.mpr ⟨_, hscheme, Primitives.ofRsa_eq_ok.mpr hsigned⟩)⟩
    refine ⟨signature, h, verify_own_signature (d := Primitives.sampleCertificate)
      (k := .rsa .ofMersenne) rfl rfl rfl nofun ?_ hprovider h⟩
    exact Eq.trans hscheme' hscheme.symm
  · have hscheme : SignatureScheme.parse "EdDSA" = .ok .ed25519 :=
      SignatureScheme.parse_of_toList (by decide)
    have hscheme' : SignatureScheme.parse "ed25519 " = .ok .ed25519 :=
      SignatureScheme.parse_of_toList (by decide)
    have h : (signer { Primitives.sampleCertificate with publicKey := .ed25519 sampleKey.publicKey }
        (.ed25519 sampleKey)).sign [1] { algorithm := "EdDSA" } (.ofOwner ⟨"me"⟩) =
          .ok (Ed25519.sign sampleKey [1]) :=
      bind_eq_ok.mpr ⟨_, privateKey_eq_ok.mpr rfl, Operations.finish_eq_ok.mpr
        (bind_eq_ok.mpr ⟨_, hscheme, rfl⟩)⟩
    refine ⟨_, h, verify_own_signature
      (d := { Primitives.sampleCertificate with publicKey := .ed25519 sampleKey.publicKey })
      (k := .ed25519 sampleKey) rfl rfl rfl ?_ ?_ rfl h⟩
    · rintro e ⟨⟩
      exact sampleKey_verifies
    · exact Eq.trans hscheme' hscheme.symm

end Service

end Strongbox
