/-
  Strongbox.Proofs.Primitives — what is encrypted with one key of a pair is decrypted with the
  other.

  A pair is one secret key on both sides, or a certificate and a private key that inverts the
  certificate's public permutation. The random octets, the text and the security providers on
  both sides do not matter, as long as the providers are the built-in one.
  - `decrypt_encrypt`: decryption with the other key of a pair gives the text back.
  - `ne_nil_of_encrypt`: a ciphertext is never empty, not even that of an empty text.
-/

import Strongbox.Primitives
import Strongbox.Proofs.Rsa.Padding

namespace Strongbox

/-- The private key belongs to the certificate's public key and undoes it. -/
structure Certificate.IsPairedWith (c : Certificate) (k : PrivateKey) : Prop where
  publicKey : c.publicKey = k.publicKey
  inverts : ∀ r, k = .rsa r → r.Inverts

inductive KeyMaterial.Pair (t : Transformation) : KeyMaterial → KeyMaterial → Prop where
  | secret (k : SecretKey) : t.isSymmetric = true → Pair t (.secretKey k) (.secretKey k)
  | asymmetric {c : Certificate} {k : PrivateKey} : t.isSymmetric = false → c.IsPairedWith k →
      Pair t (.certificate c) (.privateKey k)

theorem SecretKey.make_eq_ok {octets : Bytes} {key : SecretKey} :
    make octets = .ok key ↔
      (octets.length = 16 ∨ octets.length = 32) ∧ key.octets = octets := by
  rw [make, Outcome.ite_ok_eq_ok]
  refine and_congr_right fun _ => ⟨?_, ?_⟩
  · rintro rfl
    rfl
  · rintro rfl
    rfl

namespace Primitives

open Outcome

theorem ofRsa_eq_ok {r : Except Rsa.Error α} {a : α} : ofRsa r = .ok a ↔ r = .ok a :=
  mapError_eq_ok

/-! ## Sealing -/

theorem checkNonce_eq_ok {nonce : Bytes} :
    checkNonce nonce = .ok () ↔ nonce.length = Aes.Gcm.nonceSize := by
  rw [checkNonce, ite_ok_eq_ok]
  exact and_iff_left rfl

theorem checkKey_eq_ok {key : SecretKey} :
    checkKey key = .ok () ↔ key.octets.length = 16 ∨ key.octets.length = 32 := by
  rw [checkKey, ite_ok_eq_ok]
  exact and_iff_left rfl

structure Fits (key : SecretKey) (nonce associated data : Bytes) : Prop where
  key : key.octets.length = 16 ∨ key.octets.length = 32
  nonce : nonce.length = Aes.Gcm.nonceSize
  room : Aes.Gcm.HasRoom associated data

theorem sealText_eq_ok {provider : Option String} {key : SecretKey}
    {nonce data associated c : Bytes} :
    sealText provider key nonce data associated = .ok c ↔
      checkProvider provider = .ok () ∧ Fits key nonce associated data ∧
        c = Aes.Gcm.sealText key.octets nonce associated data := by
  rw [sealText, bind_eq_ok]
  constructor
  · intro h
    obtain ⟨⟨⟩, hp, h⟩ := h
    obtain ⟨⟨⟩, hn, h⟩ := bind_eq_ok.mp h
    obtain ⟨⟨⟩, hk, h⟩ := bind_eq_ok.mp h
    obtain ⟨hroom, rfl⟩ := ite_ok_eq_ok.mp h
    exact ⟨hp, ⟨checkKey_eq_ok.mp hk, checkNonce_eq_ok.mp hn, hroom⟩, rfl⟩
  · intro h
    obtain ⟨hp, hf, rfl⟩ := h
    exact ⟨(), hp, bind_eq_ok.mpr ⟨(), checkNonce_eq_ok.mpr hf.nonce,
      bind_eq_ok.mpr ⟨(), checkKey_eq_ok.mpr hf.key, ite_ok_eq_ok.mpr ⟨hf.room, rfl⟩⟩⟩⟩

theorem openText_eq_ok {provider : Option String} {key : SecretKey}
    {nonce data associated text : Bytes} :
    openText provider key nonce data associated = .ok text ↔
      checkProvider provider = .ok () ∧ nonce.length = Aes.Gcm.nonceSize ∧
        (key.octets.length = 16 ∨ key.octets.length = 32) ∧
          Aes.Gcm.openText? key.octets nonce associated data = some text := by
  rw [openText, bind_eq_ok]
  constructor
  · intro h
    obtain ⟨⟨⟩, hp, h⟩ := h
    obtain ⟨⟨⟩, hn, h⟩ := bind_eq_ok.mp h
    obtain ⟨⟨⟩, hk, h⟩ := bind_eq_ok.mp h
    refine ⟨hp, checkNonce_eq_ok.mp hn, checkKey_eq_ok.mp hk, ?_⟩
    cases ho : Aes.Gcm.openText? key.octets nonce associated data with
    | none =>
      rw [ho] at h
      cases h
    | some t =>
      rw [ho] at h
      cases h
      rfl
  · intro h
    obtain ⟨hp, hn, hk, ho⟩ := h
    refine ⟨(), hp, bind_eq_ok.mpr ⟨(), checkNonce_eq_ok.mpr hn,
      bind_eq_ok.mpr ⟨(), checkKey_eq_ok.mpr hk, ?_⟩⟩⟩
    rw [ho]
    rfl

theorem openText_sealText {provider provider' : Option String} {key : SecretKey}
    {nonce data associated c : Bytes}
    (h : sealText provider key nonce data associated = .ok c)
    (hp : checkProvider provider' = .ok ()) :
    openText provider' key nonce c associated = .ok data := by
  obtain ⟨-, hf, rfl⟩ := sealText_eq_ok.mp h
  exact openText_eq_ok.mpr ⟨hp, hf.nonce, hf.key, Aes.Gcm.open_seal _ _ hf.room⟩

/-! ## Encryption -/

/-- What encryption does with each transformation when it succeeds. -/
def Encrypts (random : Random) (key : KeyMaterial) (data c : Bytes) : Transformation → Prop
  | .aesGcm => ∃ k, secretKey key = .ok k ∧ Fits k (random.octets Aes.Gcm.nonceSize) [] data ∧
      c = random.octets Aes.Gcm.nonceSize ++
        Aes.Gcm.sealText k.octets (random.octets Aes.Gcm.nonceSize) [] data
  | .rsaPkcs1 => ∃ e, rsaPublicKey key = .ok e ∧ Rsa.Pkcs1.encrypt e random data = .ok c
  | .rsaOaep digest =>
    ∃ e, rsaPublicKey key = .ok e ∧ Rsa.Oaep.encrypt e digest.algorithm random data = .ok c

theorem encrypts_of_encrypt {random : Random} {t : Transformation} {provider : Option String}
    {key : KeyMaterial} {data c : Bytes} (h : encrypt random t provider key data = .ok c) :
    Encrypts random key data c t := by
  cases t with
  | aesGcm =>
    rw [encrypt] at h
    obtain ⟨⟨⟩, -, hs⟩ := bind_eq_ok.mp h
    obtain ⟨k, hk, hs⟩ := bind_eq_ok.mp hs
    obtain ⟨sealed, hs, hc⟩ := bind_eq_ok.mp hs
    obtain ⟨-, hf, rfl⟩ := sealText_eq_ok.mp hs
    exact ⟨k, hk, hf, (Except.ok.inj hc).symm⟩
  | rsaPkcs1 =>
    rw [encrypt] at h
    obtain ⟨⟨⟩, -, hs⟩ := bind_eq_ok.mp h
    obtain ⟨e, he, hc⟩ := bind_eq_ok.mp hs
    exact ⟨e, he, ofRsa_eq_ok.mp hc⟩
  | rsaOaep digest =>
    rw [encrypt] at h
    obtain ⟨⟨⟩, -, hs⟩ := bind_eq_ok.mp h
    obtain ⟨e, he, hc⟩ := bind_eq_ok.mp hs
    exact ⟨e, he, ofRsa_eq_ok.mp hc⟩

theorem isSymmetric_of_encrypt_certificate {random : Random} {t : Transformation}
    {provider : Option String} {c : Certificate} {data sealed : Bytes}
    (h : encrypt random t provider (.certificate c) data = .ok sealed) : t.isSymmetric = false := by
  cases t with
  | aesGcm =>
    obtain ⟨k, hk, -⟩ := encrypts_of_encrypt h
    cases hk
  | rsaPkcs1 => rfl
  | rsaOaep digest => rfl

/-- A private key is for transformations with a key pair. -/
theorem isSymmetric_of_decrypt_privateKey {t : Transformation} {provider : Option String}
    {k : PrivateKey} {data text : Bytes}
    (h : decrypt t provider (.privateKey k) data = .ok text) : t.isSymmetric = false := by
  cases t with
  | aesGcm =>
    obtain ⟨⟨⟩, -, h⟩ := bind_eq_ok.mp h
    cases h
  | rsaPkcs1 => rfl
  | rsaOaep digest => rfl

theorem decrypt_sealed {provider : Option String} {key : SecretKey} {nonce data : Bytes}
    (hf : Fits key nonce [] data) (hp : checkProvider provider = .ok ()) :
    decrypt .aesGcm provider (.secretKey key)
      (nonce ++ Aes.Gcm.sealText key.octets nonce [] data) = .ok data := by
  have hl : ¬ (nonce ++ Aes.Gcm.sealText key.octets nonce [] data).length <
      Aes.Gcm.nonceSize + Aes.Gcm.tagSize := by
    rw [List.length_append, hf.nonce, Aes.Gcm.length_sealText]
    omega
  have ho : openText provider key nonce (Aes.Gcm.sealText key.octets nonce [] data) [] = .ok data :=
    openText_sealText (sealText_eq_ok.mpr ⟨hp, hf, rfl⟩) hp
  rw [decrypt, bind_of_ok hp]
  show (if _ < _ then _ else openText provider key _ _ [] : Except PrimitiveError Bytes) = _
  rw [if_neg hl, List.take_left' hf.nonce, List.drop_left' hf.nonce, ho]

theorem rsaPublicKey_paired {c : Certificate} {k : PrivateKey} (hk : c.IsPairedWith k)
    {e : Rsa.PublicKey} (h : rsaPublicKey (.certificate c) = .ok e) :
    ∃ r : Rsa.PrivateKey, k = .rsa r ∧ r.publicKey = e ∧ r.Inverts := by
  cases k with
  | rsa r =>
    refine ⟨r, rfl, ?_, hk.inverts r rfl⟩
    rw [rsaPublicKey, hk.publicKey] at h
    exact Except.ok.inj h
  | ed25519 r =>
    rw [rsaPublicKey, hk.publicKey] at h
    cases h

/-- Decryption with the other key of a pair gives the text back. -/
theorem decrypt_encrypt {random : Random} {t : Transformation} {provider provider' : Option String}
    {key key' : KeyMaterial} {data c : Bytes} (hk : KeyMaterial.Pair t key key')
    (h : encrypt random t provider key data = .ok c) (hp : checkProvider provider' = .ok ()) :
    decrypt t provider' key' c = .ok data := by
  have hc := encrypts_of_encrypt h
  cases hk with
  | secret k ht =>
    cases t with
    | aesGcm =>
      obtain ⟨_, hs, hf, rfl⟩ := hc
      cases hs
      exact decrypt_sealed hf hp
    | rsaPkcs1 => cases ht
    | rsaOaep digest => cases ht
  | asymmetric ht hk =>
    cases t with
    | aesGcm => cases ht
    | rsaPkcs1 =>
      obtain ⟨e, he, hc⟩ := hc
      obtain ⟨r, rfl, rfl, hi⟩ := rsaPublicKey_paired hk he
      rw [decrypt, bind_of_ok hp]
      exact ofRsa_eq_ok.mpr (Rsa.Pkcs1.decrypt_encrypt hi hc)
    | rsaOaep digest =>
      obtain ⟨e, he, hc⟩ := hc
      obtain ⟨r, rfl, rfl, hi⟩ := rsaPublicKey_paired hk he
      rw [decrypt, bind_of_ok hp]
      exact ofRsa_eq_ok.mpr (Rsa.Oaep.decrypt_encrypt hi hc)

/-- A text that leaves room for the padding is encrypted. -/
theorem encrypt_rsaPkcs1 {random : Random} {provider : Option String} {c : Certificate}
    {k : Rsa.PublicKey} {data : Bytes} (hp : checkProvider provider = .ok ())
    (hc : c.publicKey = .rsa k) (hu : k.isUsable = true) (hl : data.length + 11 ≤ k.size) :
    encrypt random .rsaPkcs1 provider (.certificate c) data =
      .ok (k.image (Rsa.Pkcs1.pad k.size random data)) := by
  have hk : rsaPublicKey (.certificate c) = .ok k := by rw [rsaPublicKey, hc]
  rw [encrypt, bind_of_ok hp, bind_of_ok hk]
  exact ofRsa_eq_ok.mpr (Rsa.Pkcs1.encrypt_eq_ok.mpr ⟨hu, hl, rfl⟩)

def sampleCertificate : Certificate where
  encoding := []
  publicKey := .rsa Rsa.PrivateKey.ofMersenne.publicKey
  subject := "CN=tenant"
  issuer := "CN=tenant"
  serialNumber := "01"
  notBefore := ⟨2024, 1, 1, 0, 0, 0⟩
  notAfter := ⟨2034, 1, 1, 0, 0, 0⟩

theorem sampleCertificate_isPairedWith :
    sampleCertificate.IsPairedWith (.rsa Rsa.PrivateKey.ofMersenne) where
  publicKey := rfl
  inverts _ h := by
    cases h
    exact Rsa.PrivateKey.ofMersenne_inverts

def sampleCiphertext : Bytes :=
  Rsa.PrivateKey.ofMersenne.publicKey.image
    (Rsa.Pkcs1.pad Rsa.PrivateKey.ofMersenne.publicKey.size (fun _ => 1) [7])

theorem encrypt_sampleCertificate (provider : Option String)
    (hp : checkProvider provider = .ok ()) :
    encrypt (fun _ => 1) .rsaPkcs1 provider (.certificate sampleCertificate) [7] =
      .ok sampleCiphertext := by
  rw [sampleCiphertext]
  exact encrypt_rsaPkcs1 hp (by rw [sampleCertificate]) (by decide +kernel) (by decide +kernel)

/-- A ciphertext is never empty. -/
theorem ne_nil_of_encrypt {random : Random} {t : Transformation} {provider : Option String}
    {key : KeyMaterial} {data c : Bytes} (h : encrypt random t provider key data = .ok c) :
    c ≠ [] := by
  have hc := encrypts_of_encrypt h
  intro h
  subst h
  cases t with
  | aesGcm =>
    obtain ⟨k, -, -, hs⟩ := hc
    have hl := congrArg List.length hs
    rw [List.length_append, Random.length_octets, List.length_nil, Aes.Gcm.nonceSize] at hl
    omega
  | rsaPkcs1 =>
    obtain ⟨e, -, he⟩ := hc
    obtain ⟨-, hl, hi⟩ := Rsa.Pkcs1.encrypt_eq_ok.mp he
    have := congrArg List.length hi
    rw [Rsa.PublicKey.length_image, List.length_nil] at this
    omega
  | rsaOaep digest =>
    obtain ⟨e, -, he⟩ := hc
    obtain ⟨-, hl, hi⟩ := Rsa.Oaep.encrypt_eq_ok.mp he
    have := congrArg List.length hi
    rw [Rsa.PublicKey.length_image, List.length_nil] at this
    omega

end Primitives

end Strongbox
