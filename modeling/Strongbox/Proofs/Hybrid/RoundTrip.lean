/-
  Strongbox.Proofs.Hybrid.RoundTrip — records of one service are opened by another.

  A record holds the text under a fresh data key and the data key under the receiver's
  certificate, together with the names of both algorithms. Opening compares the names, so both
  sides parse them to the same transformations; then the private key gives the data key back,
  whose size is right, and the data key the text.
  - `hybridDecrypt_hybridEncrypt`: the record survives its JSON text, and any service with the
    paired private key opens it under names that agree.
-/

import Strongbox.KeyStore.Memory
import Strongbox.Proofs.Hybrid.Record
import Strongbox.Proofs.Operations
import Strongbox.Proofs.Resolver
import Strongbox.Service

namespace Strongbox

open Outcome

theorem Text.sameLetters_comm (s t : String) : sameLetters s t = sameLetters t s :=
  Bool.eq_iff_iff.mpr (by rw [sameLetters_iff, sameLetters_iff, eq_comm])

namespace Hybrid

theorem checkRecorded_eq_ok {role : String} {requested : AlgorithmSpec} {name : String} :
    checkRecorded role requested name = .ok () ↔
      Text.sameLetters (Text.trim requested.algorithm) (Text.trim name) = true := by
  rw [checkRecorded, ite_ok_eq_ok]
  exact and_iff_left rfl

theorem exists_of_build {r : Resolver} {random : Random} {input : Input} {s a : AlgorithmSpec}
    {c : CryptoContext} {o : Output} (h : build r random input s a c = .ok o) :
    ∃ d, r.certificate c = .ok (.found d) ∧ ∃ key : SecretKey, key.octets.length = dataKeySize ∧
      Operations.sealText input.cleartext key o.nonce (input.associatedData.getD [])
          (s.orDefault AlgorithmSpec.defaultSymmetric) = .ok o.ciphertext ∧
        (∃ random', Operations.encrypt random' key.octets (.certificate d)
          (a.orDefault AlgorithmSpec.defaultAsymmetric) = .ok o.wrappedKey) ∧
        o.associatedData = input.associatedData ∧
        o.symmetricAlgorithm = (s.orDefault AlgorithmSpec.defaultSymmetric).algorithm ∧
        o.asymmetricAlgorithm = (a.orDefault AlgorithmSpec.defaultAsymmetric).algorithm := by
  rw [build] at h
  obtain ⟨d, hd, h⟩ := Resolution.require_bind_eq_ok.mp h
  obtain ⟨ciphertext, hc, h⟩ := bind_eq_ok.mp h
  obtain ⟨wrapped, hw, h⟩ := bind_eq_ok.mp h
  cases h
  exact ⟨d, hd, .generate random, Random.length_octets _ _, hc, ⟨_, hw⟩, rfl, rfl, rfl⟩

/-- A record is opened under names that agree with the recorded ones, when the key and the text
can be decrypted under them. -/
theorem openRecord_eq_ok {r : Resolver} {o : Output} {s a : AlgorithmSpec} {c : CryptoContext}
    {k : PrivateKey} {key : SecretKey} {text : Bytes}
    (hs : Text.sameLetters (Text.trim (s.orDefault AlgorithmSpec.defaultSymmetric).algorithm)
      (Text.trim o.symmetricAlgorithm) = true)
    (ha : Text.sameLetters (Text.trim (a.orDefault AlgorithmSpec.defaultAsymmetric).algorithm)
      (Text.trim o.asymmetricAlgorithm) = true)
    (hk : r.privateKey c = .ok (.found k))
    (hw : Operations.decrypt o.wrappedKey (.privateKey k)
      (a.orDefault AlgorithmSpec.defaultAsymmetric) = .ok key.octets)
    (hl : key.octets.length = dataKeySize)
    (ho : Operations.openText o.ciphertext key o.nonce (o.associatedData.getD [])
      (s.orDefault AlgorithmSpec.defaultSymmetric) = .ok text) :
    openRecord r o s a c = .ok text := by
  have hmake : (SecretKey.make key.octets).mapError (fun e =>
      ServiceError.cryptoOperation "unwrapped data key is not a valid AES key"
        (some (.keyDecode e))) = .ok key :=
    mapError_eq_ok.mpr (SecretKey.make_eq_ok.mpr ⟨.inr hl, rfl⟩)
  rw [openRecord, bind_of_ok (checkRecorded_eq_ok.mpr hs), bind_of_ok (checkRecorded_eq_ok.mpr ha)]
  refine Resolution.require_bind_eq_ok.mpr ⟨k, hk, ?_⟩
  rw [bind_of_ok hw, bind_of_ok hmake, ho]

/-- A record is made whenever the certificate's key has room for a data key. -/
theorem exists_build {r : Resolver} {random : Random} {input : Input} {s a : AlgorithmSpec}
    {c : CryptoContext} {d : Certificate} {k : Rsa.PublicKey}
    (hs : (s.orDefault AlgorithmSpec.defaultSymmetric).transformation = .ok .aesGcm)
    (ha : (a.orDefault AlgorithmSpec.defaultAsymmetric).transformation = .ok .rsaPkcs1)
    (hps : Primitives.checkProvider s.provider = .ok ())
    (hpa : Primitives.checkProvider a.provider = .ok ())
    (hd : r.certificate c = .ok (.found d)) (hk : d.publicKey = .rsa k)
    (hu : k.isUsable = true) (hl : dataKeySize + 11 ≤ k.size)
    (hroom : Aes.Gcm.HasRoom (input.associatedData.getD []) input.cleartext := by decide) :
    ∃ o, build r random input s a c = .ok o := by
  have hseal : ∃ sealed, Operations.sealText input.cleartext (.generate random)
      ((random.after dataKeySize).octets Aes.Gcm.nonceSize) (input.associatedData.getD [])
      (s.orDefault AlgorithmSpec.defaultSymmetric) = .ok sealed := by
    refine ⟨_, Operations.sealText_eq_ok.mpr ⟨hs, Primitives.sealText_eq_ok.mpr ⟨?_, ?_, rfl⟩⟩⟩
    · rw [AlgorithmSpec.provider_orDefault, hps]
    · exact ⟨.inr (Random.length_octets _ _), Random.length_octets _ _, hroom⟩
  have hwrap : ∃ wrapped, Operations.encrypt ((random.after dataKeySize).after Aes.Gcm.nonceSize)
      (SecretKey.generate random).octets (.certificate d)
      (a.orDefault AlgorithmSpec.defaultAsymmetric) = .ok wrapped := by
    refine ⟨_, Operations.encrypt_eq_ok.mpr ⟨.rsaPkcs1, ?_, Primitives.encrypt_rsaPkcs1 ?_ hk hu ?_⟩⟩
    · rw [AlgorithmSpec.orDefault_orDefault (by decide), ha]
    · rw [AlgorithmSpec.provider_orDefault, hpa]
    · rw [SecretKey.generate, Random.length_octets]
      exact hl
  obtain ⟨sealed, hseal⟩ := hseal
  obtain ⟨wrapped, hwrap⟩ := hwrap
  rw [build, hd]
  simp only [ok_bind, Resolution.require, hseal, hwrap]
  exact ⟨_, rfl⟩

end Hybrid

namespace Service

/-- What one service encrypts is the same after its JSON text, and is decrypted by any service
whose context has the private key to the certificate, under names that agree with those of the
encryption up to the case of letters and blanks around them. -/
theorem hybridDecrypt_hybridEncrypt {s₁ s₂ : Service} {random : Random} {input : Hybrid.Input}
    {symmetric asymmetric symmetric' asymmetric' : AlgorithmSpec} {c₁ c₂ : CryptoContext}
    {o : Hybrid.Output} (h : s₁.hybridEncrypt random input symmetric asymmetric c₁ = .ok o)
    (h₂ : s₂.hybrid = true)
    (hs : Text.sameLetters
      (Text.trim (symmetric'.orDefault AlgorithmSpec.defaultSymmetric).algorithm)
      (Text.trim (symmetric.orDefault AlgorithmSpec.defaultSymmetric).algorithm) = true)
    (ha : Text.sameLetters
      (Text.trim (asymmetric'.orDefault AlgorithmSpec.defaultAsymmetric).algorithm)
      (Text.trim (asymmetric.orDefault AlgorithmSpec.defaultAsymmetric).algorithm) = true)
    (hps : Primitives.checkProvider symmetric'.provider = .ok ())
    (hpa : Primitives.checkProvider asymmetric'.provider = .ok ())
    {d : Certificate} (hd : s₁.resolver.certificate c₁ = .ok (.found d))
    {k : PrivateKey} (hk : s₂.resolver.privateKey c₂ = .ok (.found k)) (hp : d.IsPairedWith k) :
    Hybrid.Output.ofJson o.toJson = .ok o ∧
      s₂.hybridDecrypt o symmetric' asymmetric' c₂ = .ok input.cleartext := by
  refine ⟨Hybrid.Output.ofJson_toJson o, ?_⟩
  obtain ⟨-, -, hb⟩ := bind_eq_ok.mp h
  obtain ⟨d', hd', key, hl, hc, ⟨random', hw⟩, hdata, hsym, hasym⟩ := Hybrid.exists_of_build hb
  rw [hd] at hd'
  cases hd'
  obtain ⟨t, ht, hprim⟩ := Operations.encrypt_eq_ok.mp hw
  have ht' : (asymmetric'.orDefault AlgorithmSpec.defaultAsymmetric).transformation = .ok t := by
    rw [AlgorithmSpec.orDefault_orDefault (by decide)] at ht
    exact Transformation.parse_of_sameLetters (by rw [Text.sameLetters_comm]; exact ha) ht
  have hu : Operations.decrypt o.wrappedKey (.privateKey k)
      (asymmetric'.orDefault AlgorithmSpec.defaultAsymmetric) = .ok key.octets := by
    refine Operations.decrypt_encrypt hw ht ?_
      (.asymmetric (Primitives.isSymmetric_of_encrypt_certificate hprim) hp) ?_
    · rw [AlgorithmSpec.orDefault_orDefault (by decide), ht']
    · rw [AlgorithmSpec.provider_orDefault, hpa]
  have ho : Operations.openText o.ciphertext key o.nonce (o.associatedData.getD [])
      (symmetric'.orDefault AlgorithmSpec.defaultSymmetric) = .ok input.cleartext := by
    rw [hdata]
    refine Operations.openText_sealText hc ?_ ?_
    · obtain ⟨hg, -⟩ := Operations.sealText_eq_ok.mp hc
      exact Transformation.parse_of_sameLetters (by rw [Text.sameLetters_comm]; exact hs) hg
    · rw [AlgorithmSpec.provider_orDefault, hps]
  refine bind_eq_ok.mpr ⟨(), if_pos h₂, ?_⟩
  exact Hybrid.openRecord_eq_ok (by rw [hsym]; exact hs) (by rw [hasym]; exact ha) hk hu hl ho

def sender : Service where
  resolver :=
    { store := (MemoryStore.empty.putCertificate "partner" Primitives.sampleCertificate).view
      defaultAlias := "partner"
      defaultPassword := "" }
  providers := .empty
  defaultProvider := ""
  hybrid := true

/-- The partner's service, which has the private key under an alias of its own. -/
def receiver : Service where
  resolver :=
    { store := (MemoryStore.empty.putPrivateKey "own" (.rsa .ofMersenne) []).view
      defaultAlias := "own"
      defaultPassword := "" }
  providers := .empty
  defaultProvider := ""
  hybrid := true

theorem hybridDecrypt_hybridEncrypt_receiver :
    ∃ o, sender.hybridEncrypt (fun _ => 1) ⟨[1, 2, 3], some []⟩ {} { algorithm := " rsa " }
        (.ofOwner ⟨"anyone"⟩) = .ok o ∧ Hybrid.Output.ofJson o.toJson = .ok o ∧
      receiver.hybridDecrypt o { algorithm := "aes/gcm/NOPADDING " } { algorithm := "RSA" }
        (.ofOwner ⟨"me"⟩) = .ok [1, 2, 3] := by
  obtain ⟨o, ho⟩ : ∃ o, Hybrid.build sender.resolver (fun _ => 1) ⟨[1, 2, 3], some []⟩ {}
      { algorithm := " rsa " } (.ofOwner ⟨"anyone"⟩) = .ok o :=
    Hybrid.exists_build (Transformation.parse_of_toList (by decide))
      (Transformation.parse_of_toList (by decide)) rfl rfl
      (d := Primitives.sampleCertificate) rfl rfl (by decide +kernel) (by decide +kernel)
  have ho' : sender.hybridEncrypt (fun _ => 1) ⟨[1, 2, 3], some []⟩ {} { algorithm := " rsa " }
      (.ofOwner ⟨"anyone"⟩) = .ok o := bind_eq_ok.mpr ⟨(), rfl, ho⟩
  refine ⟨o, ho', ?_⟩
  exact hybridDecrypt_hybridEncrypt ho' rfl (Text.sameLetters_of_toList (by decide))
    (Text.sameLetters_of_toList (by decide)) rfl rfl (d := Primitives.sampleCertificate) rfl
    (k := .rsa .ofMersenne) rfl Primitives.sampleCertificate_isPairedWith

end Service

end Strongbox
