/-
  Strongbox.Proofs.InternalProvider — ciphertexts that say how they are opened, from one provider
  to another.

  An envelope is opened by the alias that its thumbprint leads to, under the transformation that
  it records: neither the alias of the opening provider nor the name that its caller gives play
  a role. The thumbprint leads to the first alias that holds the certificate, and the search goes
  no further when that alias has no key to decrypt with.
  - `decryptSelfContained_eq_ok`: exactly when an envelope is opened.
  - `decrypt_encryptSelfContained`: what one provider wraps another one opens, when the store has
    the certificate under the alias, there only, and the key that goes with it.
  - `decryptSelfContained_iff_firstMatch`: a private key opens an envelope exactly when it is that
    of the first alias with the certificate.
-/

import Strongbox.InternalProvider
import Strongbox.KeyStore.Memory
import Strongbox.Proofs.Envelope
import Strongbox.Proofs.Operations
import Strongbox.Proofs.Resolver

namespace Strongbox.KeyStoreProvider

open Outcome Primitives

theorem exists_of_ofAlias {r : Resolver} {a : String} {k : InternalKey}
    (h : InternalKey.ofAlias r a = .ok k) :
    ∃ c, CryptoContext.forAlias a = .ok c ∧ k = ⟨r, c⟩ := by
  rw [InternalKey.ofAlias] at h
  cases hc : CryptoContext.forAlias a with
  | error e => rw [hc] at h; cases h
  | ok c =>
    rw [hc] at h
    exact ⟨c, rfl, (Except.ok.inj h).symm⟩

/-! ## The recorded transformation -/

/-- The specification under which the ciphertext of an envelope is decrypted. -/
def recorded (e : Envelope) (s : AlgorithmSpec) : AlgorithmSpec :=
  ({ algorithm := e.transformation } : AlgorithmSpec).withProvider s.providerLabel

theorem checkProvider_recorded (e : Envelope) (s : AlgorithmSpec) :
    Primitives.checkProvider (recorded e s).provider = Primitives.checkProvider s.provider := by
  rw [← Primitives.checkProvider_label s.provider]
  exact Primitives.checkProvider_unlessBlank s.providerLabel

theorem isSymmetric_of_transformation {s : AlgorithmSpec} {t : Transformation}
    (h : s.transformation = .ok t) : isSymmetric s = t.isSymmetric := by
  rw [isSymmetric, h]

/-- A blank name is that of no transformation, as the default is that of no symmetric one. -/
theorem isSymmetric_orDefault (s : AlgorithmSpec) :
    isSymmetric (s.orDefault AlgorithmSpec.defaultAsymmetric) = isSymmetric s := by
  cases h : s.isBlank with
  | false => rw [AlgorithmSpec.orDefault_of_not_blank h]
  | true =>
    have ht : Text.trim s.algorithm = "" := (Text.trim_eq_empty_iff _).mpr h
    have hd : Transformation.parse AlgorithmSpec.defaultAsymmetric = .ok .rsaPkcs1 :=
      Transformation.parse_of_toList rfl
    have hb : Transformation.ofName? "".toUpper = none := by
      rw [Text.toUpper_eq]
      rfl
    rw [isSymmetric, AlgorithmSpec.transformation, AlgorithmSpec.orDefault_of_blank h, hd,
      isSymmetric, AlgorithmSpec.transformation, Transformation.parse, ht, hb]
    rfl

/-! ## The keys of both sides -/

/-- What one store encrypts with under an alias the other one decrypts with: the same secret
key, or the private key that is paired with the certificate. -/
def KeysMatch (r r' : Resolver) (a : String) (c : Certificate) (s : AlgorithmSpec) : Prop :=
  if isSymmetric s then
    ∀ k, r.store.secretKey a = .ok (some k) → r'.store.secretKey a = .ok (some k)
  else
    ∃ k, r'.store.privateKey a (r'.passwordFor a) = .ok (some k) ∧ c.IsPairedWith k

theorem secretKey_eq_ok {r : Resolver} {c : CryptoContext} {m : KeyMaterial} :
    secretKey r c = .ok m ↔
      ∃ k, r.store.secretKey (r.aliasFor c) = .ok (some k) ∧ m = .secretKey k := by
  constructor
  · intro h
    obtain ⟨k, hk, hm⟩ := Resolution.require_bind_eq_ok.mp h
    exact ⟨k, Resolver.secretKey_eq_found.mp hk, (Except.ok.inj hm).symm⟩
  · intro h
    obtain ⟨k, hk, rfl⟩ := h
    exact Resolution.require_bind_eq_ok.mpr ⟨k, Resolver.secretKey_eq_found.mpr hk, rfl⟩

theorem encryptionKey_eq_ok_of_asymmetric {r : Resolver} {c : CryptoContext} {s : AlgorithmSpec}
    (hs : isSymmetric s = false) {m : KeyMaterial} :
    encryptionKey r c s = .ok m ↔
      ∃ d, r.store.certificate (r.aliasFor c) = .ok (some d) ∧ m = .certificate d := by
  rw [encryptionKey, hs, if_neg Bool.false_ne_true]
  constructor
  · intro h
    obtain ⟨d, hd, hm⟩ := Resolution.require_bind_eq_ok.mp h
    exact ⟨d, Resolver.certificate_eq_found.mp hd, (Except.ok.inj hm).symm⟩
  · intro h
    obtain ⟨d, hd, rfl⟩ := h
    exact Resolution.require_bind_eq_ok.mpr ⟨d, Resolver.certificate_eq_found.mpr hd, rfl⟩

theorem decryptionKey_eq_ok_of_asymmetric {r : Resolver} {c : CryptoContext} {s : AlgorithmSpec}
    (hs : isSymmetric s = false) {m : KeyMaterial} :
    decryptionKey r c s = .ok m ↔
      ∃ k, r.privateKey c = .ok (.found k) ∧ m = .privateKey k := by
  rw [decryptionKey, hs, if_neg Bool.false_ne_true]
  constructor
  · intro h
    obtain ⟨k, hk, hm⟩ := Resolution.require_bind_eq_ok.mp h
    exact ⟨k, hk, (Except.ok.inj hm).symm⟩
  · intro h
    obtain ⟨k, hk, rfl⟩ := h
    exact Resolution.require_bind_eq_ok.mpr ⟨k, hk, rfl⟩

/-- The decryption key for a transformation is the other key of the pair. -/
theorem exists_decryptionKey {r r' : Resolver} {c : CryptoContext} {a : String}
    (ha : r.aliasFor c = a) (ha' : r'.aliasFor c = a) {d : Certificate}
    (hd : r.store.certificate a = .ok (some d)) {s s' : AlgorithmSpec} {t : Transformation}
    (hs : isSymmetric s = t.isSymmetric) (hs' : isSymmetric s' = t.isSymmetric)
    (hk : KeysMatch r r' a d s) {m : KeyMaterial} (hm : encryptionKey r c s = .ok m) :
    ∃ m', decryptionKey r' c s' = .ok m' ∧ KeyMaterial.Pair t m m' := by
  rw [KeysMatch] at hk
  cases ht : t.isSymmetric with
  | true =>
    rw [hs, ht, if_pos rfl] at hk
    rw [encryptionKey, hs, ht, if_pos rfl] at hm
    obtain ⟨k, hf, rfl⟩ := secretKey_eq_ok.mp hm
    rw [ha] at hf
    refine ⟨.secretKey k, ?_, .secret k ht⟩
    rw [decryptionKey, hs', ht, if_pos rfl]
    exact secretKey_eq_ok.mpr ⟨k, ha' ▸ hk k hf, rfl⟩
  | false =>
    rw [hs, ht, if_neg Bool.false_ne_true] at hk
    obtain ⟨k, hf, hp⟩ := hk
    obtain ⟨e, he, rfl⟩ := (encryptionKey_eq_ok_of_asymmetric (hs.trans ht)).mp hm
    rw [ha, hd] at he
    cases he
    refine ⟨.privateKey k, ?_, .asymmetric ht hp⟩
    refine (decryptionKey_eq_ok_of_asymmetric (hs'.trans ht)).mpr ⟨k, ?_, rfl⟩
    rw [Resolver.privateKey_eq_found, ha']
    exact hf

/-! ## Opening an envelope -/

/-- The key under an alias decrypts the ciphertext of an envelope to a text. -/
def Opens (r : Resolver) (e : Envelope) (s : AlgorithmSpec) (a : String) (text : Bytes) : Prop :=
  ∃ c m, CryptoContext.forAlias a = .ok c ∧ decryptionKey r c (recorded e s) = .ok m ∧
    Operations.decrypt e.ciphertext m (recorded e s) = .ok text

/-- An envelope is opened exactly when the first alias with its certificate opens it; an empty
ciphertext needs no key. -/
theorem decryptSelfContained_eq_ok {k : InternalKey} {data : Bytes} {s : AlgorithmSpec}
    {e : Envelope} (hd : Envelope.decode data = .ok e) {text : Bytes} :
    decryptSelfContained k data s = .ok text ↔ ∃ a, k.resolver.FirstMatch e.thumbprint a ∧
      (e.ciphertext = [] ∧ text = [] ∨ e.ciphertext ≠ [] ∧ Opens k.resolver e s a text) := by
  rw [decryptSelfContained, bind_of_ok hd]
  constructor
  · intro h
    obtain ⟨entry, he, h⟩ := Resolution.require_bind_eq_ok.mp h
    obtain ⟨hf, -⟩ := Resolver.byThumbprint_eq_found.mp he
    refine ⟨entry.keyAlias, hf, ?_⟩
    split at h
    · rename_i h0
      exact .inl ⟨List.isEmpty_iff.mp h0, (Except.ok.inj h).symm⟩
    · rename_i h0
      obtain ⟨c, hc, h⟩ := bind_eq_ok.mp h
      obtain ⟨m, hm, h⟩ := bind_eq_ok.mp h
      exact .inr ⟨fun h1 => h0 (List.isEmpty_iff.mpr h1), c, m, hc, hm, h⟩
  · intro h
    obtain ⟨a, hf, h⟩ := h
    obtain ⟨_, _, _, ⟨d, hc, _⟩, _⟩ := id hf
    have hr : k.resolver.byThumbprint e.thumbprint = .ok (.found ⟨a, d⟩) :=
      Resolver.byThumbprint_eq_found.mpr ⟨hf, hc⟩
    refine Resolution.require_bind_eq_ok.mpr ⟨⟨a, d⟩, hr, ?_⟩
    rcases h with ⟨h0, rfl⟩ | ⟨h0, c, m, hc, hm, h⟩
    · rw [if_pos (List.isEmpty_iff.mpr h0)]
      rfl
    · rw [if_neg fun h1 => h0 (List.isEmpty_iff.mp h1)]
      exact bind_eq_ok.mpr ⟨c, hc, bind_eq_ok.mpr ⟨m, hm, h⟩⟩

def wrap (k : InternalKey) (s : AlgorithmSpec) (ciphertext : Bytes) : Except ServiceError Bytes := do
  let certificate ← (← k.resolver.certificate k.context).require "certificate"
  return Envelope.encode ⟨ciphertext, (s.orDefault AlgorithmSpec.defaultAsymmetric).algorithm,
    certificate.thumbprint .sha1⟩

/-- An empty text under a named algorithm is wrapped as it is, any other text encrypted. -/
theorem encryptSelfContained_eq (k : InternalKey) (random : Random) (text : Bytes)
    (s : AlgorithmSpec) :
    encryptSelfContained k random text s =
      if s.isBlank = false ∧ text = [] then wrap k s []
      else encrypt k random text s >>= wrap k s := by
  have hb : (!s.isBlank && text.isEmpty) = true ↔ s.isBlank = false ∧ text = [] := by
    rw [Bool.and_eq_true, Bool.not_eq_true', List.isEmpty_iff]
  rw [encryptSelfContained]
  by_cases h : s.isBlank = false ∧ text = []
  · rw [if_pos h, if_pos (hb.mpr h)]
    rfl
  · rw [if_neg h, if_neg (mt hb.mp h)]
    rfl

theorem wrap_eq_ok {k : InternalKey} {s : AlgorithmSpec} {ciphertext data : Bytes} :
    wrap k s ciphertext = .ok data ↔
      ∃ c, k.resolver.store.certificate (k.resolver.aliasFor k.context) = .ok (some c) ∧
        data = Envelope.encode ⟨ciphertext,
          (s.orDefault AlgorithmSpec.defaultAsymmetric).algorithm, c.thumbprint .sha1⟩ := by
  constructor
  · intro h
    obtain ⟨c, hc, h⟩ := Resolution.require_bind_eq_ok.mp h
    exact ⟨c, Resolver.certificate_eq_found.mp hc, (Except.ok.inj h).symm⟩
  · intro h
    obtain ⟨c, hc, rfl⟩ := h
    exact Resolution.require_bind_eq_ok.mpr ⟨c, Resolver.certificate_eq_found.mpr hc, rfl⟩

theorem encryptSelfContained_of_encrypt {k : InternalKey} {random : Random}
    {text ciphertext : Bytes} {s : AlgorithmSpec} {t : Transformation} {c : Certificate}
    (ht : (s.orDefault AlgorithmSpec.defaultAsymmetric).transformation = .ok t)
    (hs : t.isSymmetric = false) (h0 : text ≠ [])
    (hc : k.resolver.store.certificate (k.resolver.aliasFor k.context) = .ok (some c))
    (h : Primitives.encrypt random t s.provider (.certificate c) text = .ok ciphertext) :
    encryptSelfContained k random text s = .ok (Envelope.encode ⟨ciphertext,
      (s.orDefault AlgorithmSpec.defaultAsymmetric).algorithm, c.thumbprint .sha1⟩) := by
  have hs' : isSymmetric s = false := by
    rw [← isSymmetric_orDefault, isSymmetric_of_transformation ht, hs]
  have hk := (encryptionKey_eq_ok_of_asymmetric hs').mpr ⟨c, hc, rfl⟩
  have henc : encrypt k random text s = .ok ciphertext :=
    bind_eq_ok.mpr ⟨_, hk, Operations.encrypt_eq_ok.mpr ⟨t, ht, h⟩⟩
  rw [encryptSelfContained_eq, if_neg fun he => h0 he.2, bind_of_ok henc]
  exact wrap_eq_ok.mpr ⟨c, hc, rfl⟩

/-! ## From one provider to another -/

structure HoldsOnly (r : Resolver) (a : String) (c : Certificate) : Prop where
  certificate : r.store.certificate a = .ok (some c)
  listed : ∃ aliases, r.store.aliases = .ok aliases ∧ a ∈ aliases ∧
    ∀ b ∈ aliases, r.HasCertificate (c.thumbprint .sha1) b → b = a

theorem isOf_thumbprint (c : Certificate) (a : Digest.Algorithm) :
    (c.thumbprint a).isOf c.encoding = true :=
  beq_self_eq_true _

theorem HoldsOnly.firstMatch {r : Resolver} {a : String} {c : Certificate} (h : HoldsOnly r a c) :
    r.FirstMatch (c.thumbprint .sha1) a := by
  obtain ⟨aliases, hl, ha, ho⟩ := h.listed
  exact Resolver.firstMatch_of_only hl ha ⟨c, h.certificate, isOf_thumbprint c .sha1⟩ ho

/-- A ciphertext of one store is opened through its envelope in another store. -/
theorem opens_of_encrypt {k : InternalKey} {r' : Resolver} {a : String}
    (ha : CryptoContext.forAlias a = .ok k.context) {c : Certificate}
    (hc : k.resolver.store.certificate (Text.trim a) = .ok (some c)) {s s' : AlgorithmSpec}
    (hk : KeysMatch k.resolver r' (Text.trim a) c s)
    (hp : Primitives.checkProvider s'.provider = .ok ()) {random : Random}
    {text ciphertext : Bytes} (h : encrypt k random text s = .ok ciphertext) :
    ciphertext ≠ [] ∧ Opens r' ⟨ciphertext,
      (s.orDefault AlgorithmSpec.defaultAsymmetric).algorithm, c.thumbprint .sha1⟩ s'
        (Text.trim a) text := by
  obtain ⟨m, hm, henc⟩ := bind_eq_ok.mp h
  obtain ⟨t, ht, hprim⟩ := Operations.encrypt_eq_ok.mp henc
  refine ⟨Primitives.ne_nil_of_encrypt hprim, ?_⟩
  obtain ⟨e, he⟩ : ∃ e : Envelope, e = ⟨ciphertext,
    (s.orDefault AlgorithmSpec.defaultAsymmetric).algorithm, c.thumbprint .sha1⟩ := ⟨_, rfl⟩
  have hrec : (recorded e s').transformation = .ok t := by rw [he]; exact ht
  have hblank : (recorded e s').isBlank = false := by
    rw [he]
    exact AlgorithmSpec.isBlank_orDefault (by decide) s
  have hs : isSymmetric s = t.isSymmetric := by
    rw [← isSymmetric_orDefault, isSymmetric_of_transformation ht]
  have hs' : isSymmetric (recorded e s') = t.isSymmetric := isSymmetric_of_transformation hrec
  obtain ⟨m', hm', hpair⟩ := exists_decryptionKey (Resolver.aliasFor_of_forAlias _ ha)
    (Resolver.aliasFor_of_forAlias r' ha) hc hs hs' hk hm
  rw [← he]
  refine ⟨k.context, m', (CryptoContext.forAlias_trim a).trans ha, hm', ?_⟩
  rw [he] at hrec hblank ⊢
  refine Operations.decrypt_encrypt henc ht ?_ hpair ?_
  · rw [AlgorithmSpec.orDefault_of_not_blank hblank, hrec]
  · rw [checkProvider_recorded, hp]

/-- What a provider wraps, any provider opens whose store has the certificate under the same
alias and nowhere else, and the key that goes with it; its own alias and the algorithm that its
caller names do not matter. -/
theorem decrypt_encryptSelfContained {r r' : Resolver} {a a' : String} {p q : InternalKey}
    (hp : InternalKey.ofAlias r a = .ok p) (hq : InternalKey.ofAlias r' a' = .ok q)
    {c : Certificate} (hc : r.store.certificate (Text.trim a) = .ok (some c))
    {s s' : AlgorithmSpec} (hk : KeysMatch r r' (Text.trim a) c s)
    (ho : HoldsOnly r' (Text.trim a) c) (hs' : Primitives.checkProvider s'.provider = .ok ())
    {random : Random} {text data : Bytes} (h : encryptSelfContained p random text s = .ok data) :
    decryptSelfContained q data s' = .ok text := by
  obtain ⟨context, ha, rfl⟩ := exists_of_ofAlias hp
  obtain ⟨context', -, rfl⟩ := exists_of_ofAlias hq
  have hw {ciphertext : Bytes} (hw : wrap ⟨r, context⟩ s ciphertext = .ok data) :
      Envelope.decode data = .ok ⟨ciphertext,
        (s.orDefault AlgorithmSpec.defaultAsymmetric).algorithm, c.thumbprint .sha1⟩ := by
    obtain ⟨d, hd, rfl⟩ := wrap_eq_ok.mp hw
    rw [Resolver.aliasFor_of_forAlias _ ha, hc] at hd
    cases hd
    exact Envelope.decode_encode_thumbprint _ _ c .sha1
  rw [encryptSelfContained_eq] at h
  split at h
  · rename_i h0
    rw [decryptSelfContained_eq_ok (hw h)]
    exact ⟨Text.trim a, ho.firstMatch, .inl ⟨rfl, h0.2⟩⟩
  · obtain ⟨ciphertext, henc, h⟩ := bind_eq_ok.mp h
    rw [decryptSelfContained_eq_ok (hw h)]
    exact ⟨Text.trim a, ho.firstMatch, .inr (opens_of_encrypt (k := ⟨r, context⟩) ha hc hk hs' henc)⟩

/-- A store with the certificate only, from which is encrypted. -/
def writer : Resolver where
  store := (MemoryStore.empty.putCertificate "tenant" sampleCertificate).view
  defaultAlias := "tenant"
  defaultPassword := ""

/-- A store with the private key under a password of its own, and a key that came later. -/
def reader : Resolver where
  store := (((MemoryStore.empty.putCertificate "tenant" sampleCertificate).putPrivateKey
    "tenant" (.rsa .ofMersenne) (Bytes.ofString "old")).putSecretKey "successor"
    ⟨List.replicate 16 0⟩).view
  defaultAlias := "successor"
  defaultPassword := ""
  keyPasswords := Table.empty.insert "tenant" "old"

theorem decrypt_encryptSelfContained_reader :
    ∃ p q data, InternalKey.ofAlias writer " tenant" = .ok p ∧
      InternalKey.ofAlias reader "successor" = .ok q ∧
      encryptSelfContained p (fun _ => 1) [7] { algorithm := " rsa " } = .ok data ∧
      decryptSelfContained q data { algorithm := "?", provider := some "RustCrypto" } =
        .ok [7] := by
  have ht : (AlgorithmSpec.mk " rsa " none).transformation = .ok .rsaPkcs1 :=
    Transformation.parse_of_toList (by decide)
  have hs : isSymmetric { algorithm := " rsa " } = false := isSymmetric_of_transformation ht
  obtain ⟨p, hp⟩ : ∃ p, InternalKey.ofAlias writer " tenant" = .ok p := ⟨_, rfl⟩
  obtain ⟨q, hq⟩ : ∃ q, InternalKey.ofAlias reader "successor" = .ok q := ⟨_, rfl⟩
  have hc : p.resolver.store.certificate (p.resolver.aliasFor p.context) =
      .ok (some sampleCertificate) := by
    cases hp
    rfl
  have henc := encryptSelfContained_of_encrypt (s := { algorithm := " rsa " }) ht rfl
    (List.cons_ne_nil _ _) hc (encrypt_sampleCertificate none rfl)
  have hprov : checkProvider (AlgorithmSpec.mk "?" (some "RustCrypto")).provider = .ok () :=
    if_pos (Or.inr (Text.sameLetters_of_toList (by decide)))
  refine ⟨p, q, _, hp, hq, henc, ?_⟩
  refine decrypt_encryptSelfContained hp hq (c := sampleCertificate) rfl ?_ ⟨rfl, ?_⟩ hprov henc
  · rw [KeysMatch, hs, if_neg Bool.false_ne_true]
    exact ⟨.rsa .ofMersenne, rfl, sampleCertificate_isPairedWith⟩
  · refine ⟨["successor", "tenant"], rfl, by decide, fun b hb h => ?_⟩
    rw [List.mem_cons, List.mem_singleton] at hb
    rcases hb with rfl | rfl
    · obtain ⟨c, hc, -⟩ := h
      cases hc
    · rfl

/-! ## The first alias with the certificate -/

/-- The private key under an alias decrypts the ciphertext of an envelope to a text. -/
def OpensWithPrivateKey (r : Resolver) (e : Envelope) (s : AlgorithmSpec) (a : String)
    (text : Bytes) : Prop :=
  ∃ c key, CryptoContext.forAlias a = .ok c ∧ r.privateKey c = .ok (.found key) ∧
    Operations.decrypt e.ciphertext (.privateKey key) (recorded e s) = .ok text

theorem opens_iff_opensWithPrivateKey {r : Resolver} {e : Envelope} {s : AlgorithmSpec}
    (hs : isSymmetric (recorded e s) = false) {a : String} {text : Bytes} :
    Opens r e s a text ↔ OpensWithPrivateKey r e s a text := by
  constructor
  · intro h
    obtain ⟨c, m, hc, hm, h⟩ := h
    obtain ⟨key, hk, rfl⟩ := (decryptionKey_eq_ok_of_asymmetric hs).mp hm
    exact ⟨c, key, hc, hk, h⟩
  · intro h
    obtain ⟨c, key, hc, hk, h⟩ := h
    exact ⟨c, _, hc, (decryptionKey_eq_ok_of_asymmetric hs).mpr ⟨key, hk, rfl⟩, h⟩

/-- An envelope of an asymmetric transformation is opened to a text exactly when the first alias
with its certificate has a private key that decrypts it to the text. Whatever other aliases have
plays no role, not even a private key that would decrypt it. -/
theorem decryptSelfContained_iff_firstMatch {k : InternalKey} {data : Bytes} {s : AlgorithmSpec}
    {e : Envelope} (hd : Envelope.decode data = .ok e) (hs : isSymmetric (recorded e s) = false)
    {text : Bytes} :
    decryptSelfContained k data s = .ok text ↔
      ∃ a, k.resolver.FirstMatch e.thumbprint a ∧ (e.ciphertext = [] ∧ text = [] ∨
        e.ciphertext ≠ [] ∧ OpensWithPrivateKey k.resolver e s a text) := by
  rw [decryptSelfContained_eq_ok hd]
  constructor
  · intro h
    obtain ⟨a, hf, h⟩ := h
    exact ⟨a, hf, h.imp_right fun h => ⟨h.1, (opens_iff_opensWithPrivateKey hs).mp h.2⟩⟩
  · intro h
    obtain ⟨a, hf, h⟩ := h
    exact ⟨a, hf, h.imp_right fun h => ⟨h.1, (opens_iff_opensWithPrivateKey hs).mpr h.2⟩⟩

def sampleEnvelope : Envelope := ⟨sampleCiphertext, "RSA", sampleCertificate.thumbprint .sha1⟩

theorem decode_sampleEnvelope : Envelope.decode sampleEnvelope.encode = .ok sampleEnvelope :=
  Envelope.decode_encode_thumbprint _ _ sampleCertificate .sha1

theorem transformation_sampleEnvelope :
    (recorded sampleEnvelope {}).transformation = .ok .rsaPkcs1 :=
  Transformation.parse_of_toList rfl

/-- A store with the certificate and its private key, and a copy of the certificate alone. -/
def withCopy (copy : String) : Resolver where
  store := (((MemoryStore.empty.putCertificate "tenant" sampleCertificate).putPrivateKey
    "tenant" (.rsa .ofMersenne) []).putCertificate copy sampleCertificate).view
  defaultAlias := "tenant"
  defaultPassword := ""

def tenant : CryptoContext := { owner := ⟨"tenant"⟩, keyAlias := some "tenant" }

theorem sampleEnvelope_opens {r : Resolver}
    (hk : r.privateKey tenant = .ok (.found (.rsa .ofMersenne))) :
    OpensWithPrivateKey r sampleEnvelope {} "tenant" [7] := by
  refine ⟨tenant, _, rfl, hk, Operations.decrypt_eq_ok.mpr ⟨.rsaPkcs1, ?_, ?_⟩⟩
  · rw [AlgorithmSpec.orDefault_of_not_blank (by decide), transformation_sampleEnvelope]
  · exact Primitives.decrypt_encrypt (.asymmetric rfl sampleCertificate_isPairedWith)
      (encrypt_sampleCertificate none rfl) rfl

theorem decryptSelfContained_copyBehind :
    decryptSelfContained ⟨withCopy "z-copy", tenant⟩ sampleEnvelope.encode {} = .ok [7] := by
  refine (decryptSelfContained_iff_firstMatch decode_sampleEnvelope
    (isSymmetric_of_transformation transformation_sampleEnvelope)).mpr ⟨"tenant", ?_, .inr ⟨?_, ?_⟩⟩
  · exact ⟨[], ["z-copy"], rfl, ⟨sampleCertificate, rfl, isOf_thumbprint _ _⟩, nofun⟩
  · exact Primitives.ne_nil_of_encrypt (encrypt_sampleCertificate none rfl)
  · exact sampleEnvelope_opens rfl

/-- A copy of the certificate under an earlier alias hides the private key that would open the
envelope. -/
theorem decryptSelfContained_copyBefore :
    (withCopy "a-copy").store.aliases = .ok ["a-copy", "tenant"] ∧
      (withCopy "a-copy").HasCertificate sampleEnvelope.thumbprint "tenant" ∧
      OpensWithPrivateKey (withCopy "a-copy") sampleEnvelope {} "tenant" [7] ∧
      ∀ text, decryptSelfContained ⟨withCopy "a-copy", tenant⟩ sampleEnvelope.encode {} ≠
        .ok text := by
  refine ⟨rfl, ⟨sampleCertificate, rfl, isOf_thumbprint _ _⟩, sampleEnvelope_opens rfl, ?_⟩
  intro text h
  have hne : sampleEnvelope.ciphertext ≠ [] :=
    Primitives.ne_nil_of_encrypt (encrypt_sampleCertificate none rfl)
  have hfirst : (withCopy "a-copy").FirstMatch sampleEnvelope.thumbprint "a-copy" :=
    ⟨[], ["tenant"], rfl, ⟨sampleCertificate, rfl, isOf_thumbprint _ _⟩, nofun⟩
  obtain ⟨a, hf, ⟨h0, -⟩ | ⟨-, ho⟩⟩ := (decryptSelfContained_eq_ok decode_sampleEnvelope).mp h
  · exact hne h0
  · rw [opens_iff_opensWithPrivateKey
      (isSymmetric_of_transformation transformation_sampleEnvelope)] at ho
    obtain ⟨c, key, hc, hk, -⟩ := ho
    cases hf.unique hfirst
    rw [Resolver.privateKey_eq_found, Resolver.aliasFor_of_forAlias _ hc] at hk
    cases hk

end Strongbox.KeyStoreProvider
