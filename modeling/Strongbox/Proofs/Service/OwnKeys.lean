/-
  Strongbox.Proofs.Service.OwnKeys — what a service makes it undoes itself, asked in the same words.

  Both directions of an operation find their key by the same alias and choose what to do by the
  same name, and an operation that succeeded has found its security provider available. So it is
  enough that the alias holds both keys of a pair, and, for a ciphertext that says how it is
  opened, that no other alias holds the certificate. A secret key is the same on both sides.
  - `Resolver.HoldsPair`, `HoldsAlone`: what an alias must hold.
  - `Service.decryptFrom_encryptFor_own`, `verify_sign_own`, `hybridDecrypt_hybridEncrypt_own`: for a
    context.
  - `KeyStoreProvider.decryptSelfContained_own`, `ShippedProvider.decrypt_own`: with a provider's own
    key.
-/

import Strongbox.Proofs.Service.InternalData
import Strongbox.Proofs.Service.Parties

namespace Strongbox

open Outcome

/-! ## Operations that succeeded -/

theorem Primitives.checkProvider_of_encrypt {random : Random} {t : Transformation}
    {provider : Option String} {key : KeyMaterial} {data c : Bytes}
    (h : encrypt random t provider key data = .ok c) : checkProvider provider = .ok () := by
  obtain ⟨⟨⟩, hp, -⟩ := bind_eq_ok.mp h
  exact hp

namespace Operations

theorem checkProvider_of_encrypt {random : Random} {data c : Bytes} {key : KeyMaterial}
    {s : AlgorithmSpec} (h : encrypt random data key s = .ok c) :
    Primitives.checkProvider s.provider = .ok () := by
  obtain ⟨t, -, hprim⟩ := encrypt_eq_ok.mp h
  exact Primitives.checkProvider_of_encrypt hprim

theorem checkProvider_of_sign {data signature : Bytes} {key : PrivateKey} {s : AlgorithmSpec}
    (h : sign data key s = .ok signature) : Primitives.checkProvider s.provider = .ok () := by
  obtain ⟨t, -, hprim⟩ := bind_eq_ok.mp (finish_eq_ok.mp h)
  obtain ⟨⟨⟩, hp, -⟩ := bind_eq_ok.mp hprim
  exact hp

end Operations

namespace Resolver

/-- An alias holds a certificate and the private key to it, which the alias's password opens. -/
def HoldsPair (r : Resolver) (a : String) : Prop :=
  ∃ d k, r.store.certificate a = .ok (some d) ∧
    r.store.privateKey a (r.passwordFor a) = .ok (some k) ∧ d.IsPairedWith k

/-- No other alias holds the certificate of an alias; certificates are told apart by the
thumbprints that stand in envelopes. -/
def HoldsAlone (r : Resolver) (a : String) : Prop :=
  ∀ d b, r.store.certificate a = .ok (some d) → r.HasCertificate (d.thumbprint .sha1) b → b = a

end Resolver

/-! ## For a context -/

namespace Service

variable {s : Service} {c : CryptoContext} {spec : AlgorithmSpec} {random : Random}
  {text sealed : Bytes}

theorem decryptFrom_encryptFor_own (hpair : s.resolver.HoldsPair (s.resolver.aliasFor c))
    (h : s.encryptFor random text spec c = .ok sealed) :
    s.decryptFrom sealed spec c = .ok text := by
  obtain ⟨d, k, hd, hk, hpaired⟩ := hpair
  obtain ⟨d', hd', henc⟩ := bind_eq_ok.mp h
  rw [certificate_eq_ok, hd] at hd'
  cases hd'
  exact bind_eq_ok.mpr ⟨k, privateKey_eq_ok.mpr hk,
    Operations.decrypt_encrypt_certificate henc hpaired rfl
      (Operations.checkProvider_of_encrypt henc)⟩

theorem verify_sign_own (hpair : s.resolver.HoldsPair (s.resolver.aliasFor c))
    (hverifies : ∀ e, s.resolver.store.privateKey (s.resolver.aliasFor c)
      (s.resolver.passwordFor (s.resolver.aliasFor c)) = .ok (some (.ed25519 e)) → e.Verifies text)
    {signature : Bytes} (h : s.sign text spec c = .ok signature) :
    s.verify text signature spec c = .ok true := by
  obtain ⟨d, k, hd, hk, hpaired⟩ := hpair
  obtain ⟨k', hk', hsigned⟩ := bind_eq_ok.mp h
  rw [privateKey_eq_ok, hk] at hk'
  cases hk'
  refine bind_eq_ok.mpr ⟨d, certificate_eq_ok.mpr hd, ?_⟩
  rw [hpaired.publicKey]
  refine Operations.verify_sign ?_ hsigned rfl (Operations.checkProvider_of_sign hsigned)
  rintro e rfl
  exact hverifies e hk

theorem hybridDecrypt_hybridEncrypt_own {input : Hybrid.Input} {symmetric asymmetric : AlgorithmSpec}
    {o : Hybrid.Output} (hpair : s.resolver.HoldsPair (s.resolver.aliasFor c))
    (h : s.hybridEncrypt random input symmetric asymmetric c = .ok o) :
    s.hybridDecrypt o symmetric asymmetric c = .ok input.cleartext := by
  obtain ⟨d, k, hd, hk, hpaired⟩ := hpair
  obtain ⟨⟨⟩, hhybrid, hbuilt⟩ := bind_eq_ok.mp h
  obtain ⟨d', hd', key, hlength, hsealed, ⟨random', hwrapped⟩, hdata, hsymmetric, hasymmetric⟩ :=
    Hybrid.exists_of_build hbuilt
  rw [Resolver.certificate_eq_found, hd] at hd'
  cases hd'
  obtain ⟨hgcm, hprim⟩ := Operations.sealText_eq_ok.mp hsealed
  obtain ⟨hprovider, -, -⟩ := Primitives.sealText_eq_ok.mp hprim
  have hhybrid' : s.requireHybrid "decryption" = .ok () := if_pos (ite_ok_eq_ok.mp hhybrid).1
  refine bind_eq_ok.mpr ⟨(), hhybrid', ?_⟩
  refine Hybrid.openRecord_eq_ok ?_ ?_ (Resolver.privateKey_eq_found.mpr hk) ?_
    hlength ?_
  · rw [hsymmetric]
    exact Text.sameLetters_iff.mpr rfl
  · rw [hasymmetric]
    exact Text.sameLetters_iff.mpr rfl
  · exact Operations.decrypt_encrypt_certificate hwrapped hpaired rfl
      (Operations.checkProvider_of_encrypt hwrapped)
  · rw [hdata]
    exact Operations.openText_sealText hsealed hgcm hprovider

end Service

/-! ## With a provider's own key -/

theorem InternalKey.isPaired_iff {k : InternalKey} :
    k.IsPaired ↔ k.resolver.HoldsPair (k.resolver.aliasFor k.context) := by
  simp only [IsPaired, Resolver.HoldsPair, Resolver.certificate_eq_found,
    Resolver.privateKey_eq_found]

namespace KeyStoreProvider

variable {k : InternalKey} {s : AlgorithmSpec} {random : Random} {text sealed : Bytes}

theorem checkProvider_of_encrypt (h : encrypt k random text s = .ok sealed) :
    Primitives.checkProvider s.provider = .ok () := by
  obtain ⟨m, -, henc⟩ := bind_eq_ok.mp h
  exact Operations.checkProvider_of_encrypt henc

/-- The alias that the thumbprint leads to is the provider's own. -/
theorem firstMatch_own {a : String} {d : Certificate} (halone : k.resolver.HoldsAlone a)
    (hd : k.resolver.store.certificate a = .ok (some d))
    (hlisted : ∃ aliases, k.resolver.store.aliases = .ok aliases ∧ a ∈ aliases) :
    k.resolver.FirstMatch (d.thumbprint .sha1) a := by
  obtain ⟨aliases, hl, ha⟩ := hlisted
  exact Resolver.firstMatch_of_only hl ha ⟨d, hd, isOf_thumbprint d .sha1⟩
    fun b _ hb => halone d b hd hb

/-- A provider opens what it wraps itself, when its alias is listed and holds the certificate
alone. -/
theorem decryptSelfContained_own {a : String} (ha : CryptoContext.forAlias a = .ok k.context)
    (hpair : isSymmetric s = false → k.resolver.HoldsPair (Text.trim a))
    (halone : k.resolver.HoldsAlone (Text.trim a))
    (hlisted : ∀ d, k.resolver.store.certificate (Text.trim a) = .ok (some d) →
      ∃ aliases, k.resolver.store.aliases = .ok aliases ∧ Text.trim a ∈ aliases)
    (h : encryptSelfContained k random text s = .ok sealed) :
    decryptSelfContained k sealed s = .ok text := by
  have hwrapped {ciphertext : Bytes} (hw : wrap k s ciphertext = .ok sealed) :
      ∃ d, k.resolver.store.certificate (Text.trim a) = .ok (some d) ∧
        k.resolver.FirstMatch (d.thumbprint .sha1) (Text.trim a) ∧
        Envelope.decode sealed = .ok ⟨ciphertext,
          (s.orDefault AlgorithmSpec.defaultAsymmetric).algorithm, d.thumbprint .sha1⟩ := by
    obtain ⟨d, hd, rfl⟩ := wrap_eq_ok.mp hw
    rw [Resolver.aliasFor_of_forAlias _ ha] at hd
    exact ⟨d, hd, firstMatch_own halone hd (hlisted d hd),
      Envelope.decode_encode_thumbprint _ _ d .sha1⟩
  rw [encryptSelfContained_eq] at h
  split at h
  · rename_i hempty
    obtain ⟨d, -, hfirst, hdecoded⟩ := hwrapped h
    rw [decryptSelfContained_eq_ok hdecoded]
    exact ⟨Text.trim a, hfirst, .inl ⟨rfl, hempty.2⟩⟩
  · obtain ⟨ciphertext, henc, hw⟩ := bind_eq_ok.mp h
    obtain ⟨d, hd, hfirst, hdecoded⟩ := hwrapped hw
    have hmatch : KeysMatch k.resolver k.resolver (Text.trim a) d s := by
      rw [KeysMatch]
      split
      · exact fun _ hk => hk
      · rename_i hasymmetric
        obtain ⟨d', key, hd', hk, hpaired⟩ := hpair (Bool.eq_false_iff.mpr hasymmetric)
        rw [hd] at hd'
        cases hd'
        exact ⟨key, hk, hpaired⟩
    rw [decryptSelfContained_eq_ok hdecoded]
    exact ⟨Text.trim a, hfirst,
      .inr (opens_of_encrypt ha hd hmatch (checkProvider_of_encrypt henc) henc)⟩

end KeyStoreProvider

theorem SymmetricProvider.checkProvider_of_encrypt {k : InternalKey} {s : AlgorithmSpec}
    {random : Random} {text sealed : Bytes} (h : encrypt k random text s = .ok sealed) :
    Primitives.checkProvider s.provider = .ok () := by
  obtain ⟨m, -, henc⟩ := bind_eq_ok.mp h
  have hp := Operations.checkProvider_of_encrypt henc
  rw [AlgorithmSpec.provider_orDefault] at hp
  exact hp

theorem ShippedProvider.decrypt_own {p : ShippedProvider} {s : AlgorithmSpec} {random : Random}
    {text sealed : Bytes} (hk : p.IsPairedFor s) (h : p.view.encrypt random text s = .ok sealed) :
    p.view.decrypt sealed s = .ok text := by
  cases p with
  | keyStore k =>
    exact KeyStoreProvider.decrypt_encrypt rfl (KeyStoreProvider.checkProvider_of_encrypt h) hk h
  | symmetric k =>
    exact SymmetricProvider.decrypt_encrypt rfl (SymmetricProvider.checkProvider_of_encrypt h) h

end Strongbox
