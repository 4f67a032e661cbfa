/-
  Strongbox.Proofs.Service.Parties — what one service encrypts for a party the party's own service
  decrypts.

  The two services share a key pair and nothing else: the sender has the certificate under an alias
  of its store, the receiver the private key under an alias of another. Each side chooses padding
  and key by the transformation alone, so names of one transformation agree, and a blank name is
  RSA on both sides.
  - `Operations.decrypt_encrypt_certificate`: the private key decrypts what its certificate
    encrypts.
  - `Service.decryptFrom_encryptFor`: the same from one service to another.
-/

import Strongbox.Proofs.Hybrid.RoundTrip
import Strongbox.Proofs.Service.Signatures

namespace Strongbox

open Outcome

namespace Operations

variable {random : Random} {text sealed : Bytes} {d : Certificate} {s s' : AlgorithmSpec}

theorem isSymmetric_of_encrypt_certificate
    (h : encrypt random text (.certificate d) s = .ok sealed) :
    ∃ t, (s.orDefault AlgorithmSpec.defaultAsymmetric).transformation = .ok t ∧
      t.isSymmetric = false := by
  obtain ⟨t, ht, hprim⟩ := encrypt_eq_ok.mp h
  exact ⟨t, ht, Primitives.isSymmetric_of_encrypt_certificate hprim⟩

theorem decrypt_encrypt_certificate {k : PrivateKey}
    (h : encrypt random text (.certificate d) s = .ok sealed) (hk : d.IsPairedWith k)
    (hs : (s'.orDefault AlgorithmSpec.defaultAsymmetric).transformation =
      (s.orDefault AlgorithmSpec.defaultAsymmetric).transformation)
    (hp : Primitives.checkProvider s'.provider = .ok ()) :
    decrypt sealed (.privateKey k) s' = .ok text := by
  obtain ⟨t, ht, hasymmetric⟩ := isSymmetric_of_encrypt_certificate h
  exact decrypt_encrypt h ht (hs.trans ht) (.asymmetric hasymmetric hk) hp

end Operations

namespace Service

/-- A service encrypts for a party only under a transformation with two keys. What it made is
decrypted by any service whose context has the private key to the certificate that the sender has
for the party, under any name of the transformation and any provider that is available. -/
theorem decryptFrom_encryptFor {s₁ : Service} {random : Random} {text sealed : Bytes}
    {spec : AlgorithmSpec} {c₁ : CryptoContext}
    (h : s₁.encryptFor random text spec c₁ = .ok sealed) :
    (∃ t, (spec.orDefault AlgorithmSpec.defaultAsymmetric).transformation = .ok t ∧
      t.isSymmetric = false) ∧
    ∃ d, s₁.resolver.certificate c₁ = .ok (.found d) ∧
      ∀ (s₂ : Service) (c₂ : CryptoContext) (k : PrivateKey) (spec' : AlgorithmSpec),
        s₂.resolver.privateKey c₂ = .ok (.found k) → d.IsPairedWith k →
        (spec'.orDefault AlgorithmSpec.defaultAsymmetric).transformation =
          (spec.orDefault AlgorithmSpec.defaultAsymmetric).transformation →
        Primitives.checkProvider spec'.provider = .ok () →
        s₂.decryptFrom sealed spec' c₂ = .ok text := by
  obtain ⟨d, hd, henc⟩ := bind_eq_ok.mp h
  refine ⟨Operations.isSymmetric_of_encrypt_certificate henc, d, ?_, ?_⟩
  · exact Resolver.certificate_eq_found.mpr (certificate_eq_ok.mp hd)
  · intro s₂ c₂ k spec' hk hpaired hspec hprovider
    have hkey : s₂.privateKey c₂ = .ok k :=
      privateKey_eq_ok.mpr (Resolver.privateKey_eq_found.mp hk)
    exact bind_eq_ok.mpr
      ⟨k, hkey, Operations.decrypt_encrypt_certificate henc hpaired hspec hprovider⟩

/-- One octet under a blank name, decrypted under a full one. -/
theorem decryptFrom_encryptFor_receiver :
    sender.encryptFor (fun _ => 1) [7] {} (.ofOwner ⟨"anyone"⟩) =
        .ok Primitives.sampleCiphertext ∧
      receiver.decryptFrom Primitives.sampleCiphertext
        { algorithm := " rsa/ecb/PKCS1Padding", provider := some "RustCrypto" }
        (.ofOwner ⟨"me"⟩) = .ok [7] := by
  have hblank : Transformation.parse AlgorithmSpec.defaultAsymmetric = .ok .rsaPkcs1 :=
    Transformation.parse_of_toList (by decide)
  have hnamed : Transformation.parse " rsa/ecb/PKCS1Padding" = .ok .rsaPkcs1 :=
    Transformation.parse_of_toList (by decide)
  have hprovider : Primitives.checkProvider (some "RustCrypto") = .ok () :=
    if_pos (Or.inr (Text.sameLetters_of_toList (by decide)))
  have h : sender.encryptFor (fun _ => 1) [7] {} (.ofOwner ⟨"anyone"⟩) =
      .ok Primitives.sampleCiphertext :=
    bind_eq_ok.mpr ⟨Primitives.sampleCertificate, certificate_eq_ok.mpr rfl,
      Operations.encrypt_eq_ok.mpr ⟨.rsaPkcs1, hblank, Primitives.encrypt_sampleCertificate _ rfl⟩⟩
  refine ⟨h, ?_⟩
  obtain ⟨-, d, hd, hreceived⟩ := decryptFrom_encryptFor h
  obtain rfl : Primitives.sampleCertificate = d := by
    have hsender : sender.resolver.certificate (.ofOwner ⟨"anyone"⟩) =
        .ok (.found Primitives.sampleCertificate) := rfl
    rw [hsender] at hd
    injection hd with hd
    injection hd
  exact hreceived receiver (.ofOwner ⟨"me"⟩) (.rsa .ofMersenne) _ rfl
    Primitives.sampleCertificate_isPairedWith (Eq.trans hnamed hblank.symm) hprovider

end Service

end Strongbox
