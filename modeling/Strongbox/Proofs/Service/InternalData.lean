/-
  Strongbox.Proofs.Service.InternalData — internal data of a service, encrypted and decrypted by
  the providers that were registered with it.

  A service uses the provider that was registered last under a type. Both shipped providers take
  the key from the transformation that a name stands for, so only the transformation matters and
  not how its name is spelled; a blank name is the provider's own default on both sides.
  - `ServiceBuilder.get?_registerAll`: the last provider of a type is the one in use.
  - `ShippedProvider.decrypt_encrypt`: what a provider encrypts it decrypts.
  - `Service.decrypt_encrypt_plain`: the same through a service, whatever was registered with it.
-/

import Strongbox.KeyStore.Memory
import Strongbox.Proofs.InternalProvider
import Strongbox.Service

namespace Strongbox

open Outcome

/-! ## One provider -/

def InternalKey.IsPaired (k : InternalKey) : Prop :=
  ∃ c key, k.resolver.certificate k.context = .ok (.found c) ∧
    k.resolver.privateKey k.context = .ok (.found key) ∧ c.IsPairedWith key

namespace KeyStoreProvider

/-- Whatever the transformation is, its decryption key is the other key of the pair. -/
theorem exists_decryptionKey_of_isPaired {k : InternalKey} {s s' : AlgorithmSpec}
    {t : Transformation} (hs : isSymmetric s = t.isSymmetric)
    (hs' : isSymmetric s' = t.isSymmetric) (hk : isSymmetric s = false → k.IsPaired)
    {m : KeyMaterial} (hm : encryptionKey k.resolver k.context s = .ok m) :
    ∃ m', decryptionKey k.resolver k.context s' = .ok m' ∧ KeyMaterial.Pair t m m' := by
  cases ht : t.isSymmetric with
  | true =>
    rw [encryptionKey, hs, ht, if_pos rfl] at hm
    obtain ⟨key, -, rfl⟩ := secretKey_eq_ok.mp hm
    refine ⟨.secretKey key, ?_, .secret key ht⟩
    rw [decryptionKey, hs', ht, if_pos rfl, hm]
  | false =>
    obtain ⟨c, key, hc, hkey, hp⟩ := hk (hs.trans ht)
    obtain ⟨d, hd, rfl⟩ := (encryptionKey_eq_ok_of_asymmetric (hs.trans ht)).mp hm
    rw [Resolver.certificate_eq_found, hd] at hc
    cases hc
    exact ⟨.privateKey key,
      (decryptionKey_eq_ok_of_asymmetric (hs'.trans ht)).mpr ⟨key, hkey, rfl⟩,
      .asymmetric ht hp⟩

theorem decrypt_encrypt {k : InternalKey} {s s' : AlgorithmSpec}
    (hs : (s'.orDefault AlgorithmSpec.defaultAsymmetric).transformation =
      (s.orDefault AlgorithmSpec.defaultAsymmetric).transformation)
    (hp : Primitives.checkProvider s'.provider = .ok ())
    (hk : isSymmetric s = false → k.IsPaired) {random : Random} {text c : Bytes}
    (h : encrypt k random text s = .ok c) : decrypt k c s' = .ok text := by
  obtain ⟨m, hm, henc⟩ := bind_eq_ok.mp h
  obtain ⟨t, ht, -⟩ := Operations.encrypt_eq_ok.mp henc
  have hsym : isSymmetric s = t.isSymmetric := by
    rw [← isSymmetric_orDefault, isSymmetric_of_transformation ht]
  have hsym' : isSymmetric s' = t.isSymmetric := by
    rw [← isSymmetric_orDefault, isSymmetric_of_transformation (hs.trans ht)]
  obtain ⟨m', hm', hpair⟩ := exists_decryptionKey_of_isPaired hsym hsym' hk hm
  exact bind_eq_ok.mpr ⟨m', hm', Operations.decrypt_encrypt henc ht (hs.trans ht) hpair hp⟩

end KeyStoreProvider

theorem Primitives.isSymmetric_of_encrypt_secretKey {random : Random} {t : Transformation}
    {provider : Option String} {key : SecretKey} {data sealed : Bytes}
    (h : encrypt random t provider (.secretKey key) data = .ok sealed) : t.isSymmetric = true := by
  cases t with
  | aesGcm => rfl
  | rsaPkcs1 =>
    obtain ⟨e, he, -⟩ := encrypts_of_encrypt h
    cases he
  | rsaOaep digest =>
    obtain ⟨e, he, -⟩ := encrypts_of_encrypt h
    cases he

theorem SymmetricProvider.decrypt_encrypt {k : InternalKey} {s s' : AlgorithmSpec}
    (hs : (s'.orDefault AlgorithmSpec.defaultSymmetric).transformation =
      (s.orDefault AlgorithmSpec.defaultSymmetric).transformation)
    (hp : Primitives.checkProvider s'.provider = .ok ()) {random : Random} {text c : Bytes}
    (h : encrypt k random text s = .ok c) : decrypt k c s' = .ok text := by
  -- The operations have a default of their own, which a name that is not blank never meets.
  have horDefault (s : AlgorithmSpec) :
      ((s.orDefault AlgorithmSpec.defaultSymmetric).orDefault AlgorithmSpec.defaultAsymmetric) =
        s.orDefault AlgorithmSpec.defaultSymmetric :=
    AlgorithmSpec.orDefault_of_not_blank (AlgorithmSpec.isBlank_orDefault (by decide) s) _
  obtain ⟨m, hm, henc⟩ := bind_eq_ok.mp h
  obtain ⟨t, ht, hprim⟩ := Operations.encrypt_eq_ok.mp henc
  obtain ⟨key, -, rfl⟩ := KeyStoreProvider.secretKey_eq_ok.mp hm
  refine bind_eq_ok.mpr ⟨_, hm, Operations.decrypt_encrypt henc ht ?_
    (.secret key (Primitives.isSymmetric_of_encrypt_secretKey hprim)) ?_⟩
  · rw [horDefault] at ht ⊢
    exact hs.trans ht
  · rw [AlgorithmSpec.provider_orDefault, hp]

/-! ## The shipped providers -/

inductive ShippedProvider where
  | keyStore (key : InternalKey)
  | symmetric (key : InternalKey)

namespace ShippedProvider

def view : ShippedProvider → InternalProvider
  | keyStore k => KeyStoreProvider.view k
  | symmetric k => SymmetricProvider.view k

def defaultAlgorithm : ShippedProvider → String
  | keyStore _ => AlgorithmSpec.defaultAsymmetric
  | symmetric _ => AlgorithmSpec.defaultSymmetric

/-- A transformation of the key store provider with two keys has a pair of them. -/
def IsPairedFor (s : AlgorithmSpec) : ShippedProvider → Prop
  | keyStore k => KeyStoreProvider.isSymmetric s = false → k.IsPaired
  | symmetric _ => True

theorem decrypt_encrypt {p : ShippedProvider} {s s' : AlgorithmSpec}
    (hs : (s'.orDefault p.defaultAlgorithm).transformation =
      (s.orDefault p.defaultAlgorithm).transformation)
    (hp : Primitives.checkProvider s'.provider = .ok ()) (hk : p.IsPairedFor s) {random : Random}
    {text c : Bytes} (h : p.view.encrypt random text s = .ok c) :
    p.view.decrypt c s' = .ok text := by
  cases p with
  | keyStore k => exact KeyStoreProvider.decrypt_encrypt hs hp hk h
  | symmetric k => exact SymmetricProvider.decrypt_encrypt hs hp h

def lastOf? (ps : List ShippedProvider) (type : String) : Option ShippedProvider :=
  ps.reverse.find? (·.view.type == type)

theorem lastOf?_cons (p : ShippedProvider) (ps : List ShippedProvider) (type : String) :
    lastOf? (p :: ps) type =
      (lastOf? ps type).or (if p.view.type = type then some p else none) := by
  rw [lastOf?, lastOf?, List.reverse_cons, List.find?_append]
  by_cases h : p.view.type = type <;> simp [h]

end ShippedProvider

/-! ## Registration -/

namespace ServiceBuilder

def registerAll (b : ServiceBuilder) (ps : List ShippedProvider) : ServiceBuilder :=
  ps.foldl (fun b p => b.withProvider p.view) b

/-- The last provider of a type is in use, and otherwise the one that was there before. -/
theorem get?_registerAll (b : ServiceBuilder) (ps : List ShippedProvider) (type : String) :
    (b.registerAll ps).providers.get? type =
      ((ShippedProvider.lastOf? ps type).map (·.view)).or (b.providers.get? type) := by
  induction ps generalizing b with
  | nil => rfl
  | cons p ps ih =>
    show ((b.withProvider p.view).registerAll ps).providers.get? type = _
    rw [ih, ShippedProvider.lastOf?_cons, withProvider, Table.get?_insert]
    cases ShippedProvider.lastOf? ps type with
    | some q => rfl
    | none =>
      by_cases h : p.view.type = type
      · simp [h]
      · simp [h, Ne.symm h]

theorem build_eq_ok {b : ServiceBuilder} {s : Service} :
    b.build = .ok s ↔ b.providers.contains b.defaultProvider = true ∧
      s = ⟨b.resolver, b.providers, b.defaultProvider, b.hybrid⟩ := ite_ok_eq_ok

theorem isSome_default_of_build {b : ServiceBuilder} {s : Service} (hs : b.build = .ok s) :
    (s.providers.get? s.defaultProvider).isSome = true := by
  obtain ⟨hcontains, rfl⟩ := build_eq_ok.mp hs
  exact hcontains

end ServiceBuilder

/-! ## Through the service -/

namespace Service

/-- A provider is selected exactly when it is in use under the type, whatever it is wanted for. -/
theorem provider_eq_ok {s : Service} {activity : String} {d : OperationDescriptor}
    {p : InternalProvider} :
    s.provider activity d = .ok p ↔
      s.providers.get? (d.internalProvider.getD s.defaultProvider) = some p := by
  rw [provider]
  cases s.providers.get? (d.internalProvider.getD s.defaultProvider) with
  | some q => simp
  | none => simp

/-- What a service encrypts for internal use it decrypts, when the same type is selected and the
names stand for the same transformation under the default of the provider in use. -/
theorem decrypt_encrypt_plain {b : ServiceBuilder} {ps : List ShippedProvider} {s : Service}
    (hs : (b.registerAll ps).build = .ok s)
    {d d' : OperationDescriptor} (hd : d.selfContained = false) (hd' : d'.selfContained = false)
    (htype : d'.internalProvider.getD s.defaultProvider =
      d.internalProvider.getD s.defaultProvider)
    {p : ShippedProvider}
    (hp : ShippedProvider.lastOf? ps (d.internalProvider.getD s.defaultProvider) = some p)
    (hname : (d'.spec.orDefault p.defaultAlgorithm).transformation =
      (d.spec.orDefault p.defaultAlgorithm).transformation)
    (hprov : Primitives.checkProvider d'.spec.provider = .ok ()) (hk : p.IsPairedFor d.spec)
    {random : Random} {text c : Bytes} (h : s.encrypt random text d = .ok c) :
    s.decrypt c d' = .ok text := by
  obtain ⟨-, hbuilt⟩ := ServiceBuilder.build_eq_ok.mp hs
  have hget : s.providers.get? (d.internalProvider.getD s.defaultProvider) = some p.view := by
    have hproviders : s.providers = (b.registerAll ps).providers := by rw [hbuilt]
    rw [hproviders, ServiceBuilder.get?_registerAll, hp]
    rfl
  obtain ⟨q, hq, henc⟩ := bind_eq_ok.mp h
  rw [provider_eq_ok, hget] at hq
  cases hq
  rw [hd, if_neg Bool.false_ne_true] at henc
  refine bind_eq_ok.mpr ⟨p.view, provider_eq_ok.mpr (by rw [htype, hget]), ?_⟩
  rw [hd', if_neg Bool.false_ne_true]
  exact ShippedProvider.decrypt_encrypt hname hprov hk henc

def keyRing : Resolver where
  store := (((MemoryStore.empty.putCertificate "tenant" Primitives.sampleCertificate).putPrivateKey
    "tenant" (.rsa .ofMersenne) []).putSecretKey "internal" ⟨List.replicate 16 0⟩).view
  defaultAlias := "tenant"
  defaultPassword := ""

def keyOf (a : String) : InternalKey := ⟨keyRing, { owner := ⟨a⟩, keyAlias := some a }⟩

/-- Both shipped providers; the first one is replaced by the last. -/
def keyRingProviders : List ShippedProvider :=
  [.keyStore (keyOf "internal"), .symmetric (keyOf "internal"), .keyStore (keyOf "tenant")]

/-- An empty text is encrypted under a padded name and decrypted under the default. -/
theorem decrypt_encrypt_plain_keyRing :
    ∃ s c, (ServiceBuilder.registerAll { resolver := keyRing } keyRingProviders).build = .ok s ∧
      s.encrypt (fun _ => 1) [] { spec := { algorithm := " rsa/ecb/PKCS1Padding" } } = .ok c ∧
      s.decrypt c { spec := { provider := some "RustCrypto" }
                    internalProvider := some "keystore" } = .ok [] := by
  obtain ⟨named, hnamed⟩ : ∃ a : AlgorithmSpec, a = { algorithm := " rsa/ecb/PKCS1Padding" } :=
    ⟨_, rfl⟩
  have ht : named.transformation = .ok .rsaPkcs1 := by
    rw [hnamed]
    exact Transformation.parse_of_toList (by decide)
  have hdefault : named.orDefault AlgorithmSpec.defaultAsymmetric = named :=
    AlgorithmSpec.orDefault_of_not_blank (by rw [hnamed]; decide) _
  have hprov : Primitives.checkProvider (some "RustCrypto") = .ok () :=
    if_pos (Or.inr (Text.sameLetters_of_toList (by decide)))
  obtain ⟨c, hprim⟩ : ∃ c, Primitives.encrypt (fun _ => 1) .rsaPkcs1 named.provider
      (.certificate Primitives.sampleCertificate) [] = .ok c :=
    ⟨_, Primitives.encrypt_rsaPkcs1 (by rw [hnamed]; rfl) rfl (by decide +kernel)
      (by decide +kernel)⟩
  have hkey : KeyStoreProvider.encryptionKey keyRing (keyOf "tenant").context named =
      .ok (.certificate Primitives.sampleCertificate) :=
    (KeyStoreProvider.encryptionKey_eq_ok_of_asymmetric
      (KeyStoreProvider.isSymmetric_of_transformation ht)).mpr ⟨_, rfl, rfl⟩
  have henc : KeyStoreProvider.encrypt (keyOf "tenant") (fun _ => 1) [] named = .ok c :=
    bind_eq_ok.mpr ⟨_, hkey, Operations.encrypt_eq_ok.mpr ⟨.rsaPkcs1, by rw [hdefault, ht], hprim⟩⟩
  rw [← hnamed]
  have hlast : ShippedProvider.lastOf? keyRingProviders "keystore" =
      some (.keyStore (keyOf "tenant")) := rfl
  obtain ⟨s, hs, htype⟩ : ∃ s : Service,
      (ServiceBuilder.registerAll { resolver := keyRing } keyRingProviders).build = .ok s ∧
        s.defaultProvider = "keystore" := ⟨_, rfl, rfl⟩
  have hget : s.providers.get? s.defaultProvider =
      some (KeyStoreProvider.view (keyOf "tenant")) := by
    obtain ⟨-, rfl⟩ := ServiceBuilder.build_eq_ok.mp hs
    exact (ServiceBuilder.get?_registerAll _ _ _).trans (by rw [htype, hlast]; rfl)
  have hservice : s.encrypt (fun _ => 1) [] { spec := named } = .ok c :=
    bind_eq_ok.mpr ⟨_, provider_eq_ok.mpr hget, henc⟩
  refine ⟨s, c, hs, hservice, ?_⟩
  have hplain : OperationDescriptor.selfContained { spec := { provider := some "RustCrypto" }
                                                    internalProvider := some "keystore" } = false :=
    rfl
  refine decrypt_encrypt_plain hs (d := { spec := named }) rfl hplain htype.symm
    (p := .keyStore (keyOf "tenant")) ?_ ?_ hprov ?_ hservice
  · show ShippedProvider.lastOf? _ s.defaultProvider = _
    rw [htype, hlast]
  · show _ = (named.orDefault AlgorithmSpec.defaultAsymmetric).transformation
    rw [hdefault, ht]
    exact Transformation.parse_of_toList rfl
  · intro _
    exact ⟨Primitives.sampleCertificate, .rsa .ofMersenne, rfl, rfl,
      Primitives.sampleCertificate_isPairedWith⟩

end Service

end Strongbox
