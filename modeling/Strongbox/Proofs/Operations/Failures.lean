/-
  Strongbox.Proofs.Operations.Failures — which failure an operation with a key reports.

  Every operation is a chain of checks: the name, the security provider, the kind of the key, and
  then those of the transformation with the key and the text. The failure that is reported is that
  of the first check that does not pass, told with the activity, the name and the provider.
  - `Check.ofEncryption`, `Check.ofDecryption`: the checks of each transformation in their order.
  - `Operations.fails_by_first_check`: the four operations fail by them, and only by them.
  - `Operations.a_long_text_is_not_always_told`: a text that is too long for a key, where another
    check fails first.
-/

import Strongbox.Proofs.Check
import Strongbox.Proofs.Operations

namespace Strongbox

open Outcome Check

/-! ## Names and providers -/

def Transformation.named? (name : String) : Option Transformation :=
  ofName? (Text.trim name).toUpper

def Transformation.unnamed (name : String) : PrimitiveError :=
  .algorithmNotAvailable (if Text.trim name = "" then "empty transformation" else Text.trim name)

theorem Transformation.parse_eq (name : String) :
    parse name = (named? name).elim (.error (unnamed name)) .ok := by
  rw [parse, named?]
  cases ofName? (Text.trim name).toUpper <;> rfl

/-- The provider is neither blank nor the built-in one. -/
def Primitives.IsForeign (provider : Option String) : Prop :=
  Text.trim (provider.getD "") ≠ "" ∧ (Text.trim (provider.getD "")).toLower ≠ name.toLower

def Check.foreignProvider (provider : Option String) : Check PrimitiveError :=
  fault (Primitives.IsForeign provider) (.providerNotAvailable (Text.trim (provider.getD "")))

theorem Primitives.checkProvider_eq_error {provider : Option String} {e : PrimitiveError} :
    checkProvider provider = .error e ↔ foreignProvider provider e := by
  rw [checkProvider, ite_ok_eq_error, not_or, Text.sameLetters_iff]
  rfl

theorem Primitives.not_foreignProvider {provider : Option String}
    (h : checkProvider provider = .ok ()) (e : PrimitiveError) : ¬ foreignProvider provider e := by
  intro he
  rw [checkProvider_eq_error.mpr he] at h
  cases h

/-! ## Keys -/

namespace KeyMaterial

def secret? : KeyMaterial → Option SecretKey
  | secretKey k => some k
  | _ => none

/-- The RSA key to encrypt with, which is public, belongs to a private key or is in a
certificate. -/
def rsaPublic? : KeyMaterial → Option Rsa.PublicKey
  | publicKey (.rsa k) => some k
  | privateKey (.rsa k) => some k.publicKey
  | certificate c =>
    match c.publicKey with
    | .rsa k => some k
    | .ed25519 _ => none
  | _ => none

def rsaPrivate? : KeyMaterial → Option Rsa.PrivateKey
  | privateKey (.rsa k) => some k
  | _ => none

def notSecret (key : KeyMaterial) : PrimitiveError :=
  .keyIncompatible ("AES/GCM/NoPadding requires a secret key, got " ++ key.describe)

def notRsaPublic : KeyMaterial → PrimitiveError
  | certificate _ => .keyIncompatible "RSA encryption requires an RSA key, got Ed25519"
  | key => .keyIncompatible ("RSA encryption requires an RSA public key, got " ++ key.describe)

def notRsaPrivate (key : KeyMaterial) : PrimitiveError :=
  .keyIncompatible ("RSA decryption requires an RSA private key, got " ++ key.describe)

end KeyMaterial

namespace Primitives

variable (key : KeyMaterial)

theorem secretKey_eq : secretKey key = key.secret?.elim (.error key.notSecret) .ok := by
  cases key <;> rfl

theorem rsaPublicKey_eq : rsaPublicKey key = key.rsaPublic?.elim (.error key.notRsaPublic) .ok := by
  cases key with
  | publicKey k => cases k <;> rfl
  | privateKey k => cases k <;> rfl
  | secretKey k => rfl
  | certificate c =>
    rw [rsaPublicKey, KeyMaterial.rsaPublic?]
    cases c.publicKey <;> rfl

theorem rsaPrivateKey_eq :
    rsaPrivateKey key = key.rsaPrivate?.elim (.error key.notRsaPrivate) .ok := by
  cases key with
  | privateKey k => cases k <;> rfl
  | publicKey k => rfl
  | secretKey k => rfl
  | certificate c => rfl

end Primitives

/-! ## Sealing -/

namespace Check

def badNonce (nonce : Bytes) : Check PrimitiveError :=
  fault (nonce.length ≠ Aes.Gcm.nonceSize) (.invalidParameters
    s!"AES-GCM nonce must be {Aes.Gcm.nonceSize} bytes, got {nonce.length}")

def badKeySize (k : SecretKey) : Check PrimitiveError :=
  fault (¬ (k.octets.length = 16 ∨ k.octets.length = 32))
    (.keyIncompatible s!"AES key must be 16 or 32 bytes, got {k.octets.length}")

def tooShort (data : Bytes) : Check PrimitiveError :=
  let least := Aes.Gcm.nonceSize + Aes.Gcm.tagSize
  fault (data.length < least)
    (.invalidParameters s!"AES-GCM ciphertext must be at least {least} bytes, got {data.length}")

def noRoom (associated text : Bytes) : Check PrimitiveError :=
  fault (¬ Aes.Gcm.HasRoom associated text) (.invalidParameters "AES-GCM encryption failed")

def badTag (k : SecretKey) (nonce associated data : Bytes) : Check PrimitiveError :=
  fault (Aes.Gcm.openText? k.octets nonce associated data = none)
    (.badPadding "AES-GCM tag mismatch")

end Check

namespace Primitives

variable {provider : Option String} {k : SecretKey} {nonce associated data : Bytes}

theorem checkNonce_eq_error {e : PrimitiveError} :
    checkNonce nonce = .error e ↔ badNonce nonce e := ite_ok_eq_error

theorem checkKey_eq_error {e : PrimitiveError} : checkKey k = .error e ↔ badKeySize k e :=
  ite_ok_eq_error

theorem checked_sealText : Checked [foreignProvider provider, badNonce nonce, badKeySize k,
    noRoom associated data] (sealText provider k nonce data associated) := by
  refine .step (fun _ => checkProvider_eq_error) fun _ _ => ?_
  refine .step (fun _ => checkNonce_eq_error) fun _ _ => ?_
  refine .step (fun _ => checkKey_eq_error) fun _ _ => ?_
  exact .grant fun _ => .ok _

theorem checked_openText : Checked [foreignProvider provider, badNonce nonce, badKeySize k,
    badTag k nonce associated data] (openText provider k nonce data associated) := by
  refine .step (fun _ => checkProvider_eq_error) fun _ _ => ?_
  refine .step (fun _ => checkNonce_eq_error) fun _ _ => ?_
  refine .step (fun _ => checkKey_eq_error) fun _ _ => ?_
  refine .single fun e => ?_
  rw [badTag]
  cases Aes.Gcm.openText? k.octets nonce associated data with
  | none => exact ⟨fun h => ⟨rfl, (Except.error.inj h).symm⟩, fun ⟨_, h⟩ => h ▸ rfl⟩
  | some text => exact ⟨nofun, nofun⟩

end Primitives

/-! ## RSA -/

namespace Check

def decryptionError : PrimitiveError := .badPadding "decryption error"

def unusable (k : Rsa.PublicKey) : Check PrimitiveError :=
  fun e => ∃ defect, k.defect? = some defect ∧ e = .keyIncompatible defect.message

def tooLong (k : Rsa.PublicKey) (padding : Nat) (data : Bytes) : Check PrimitiveError :=
  fault (k.size < data.length + padding) (.invalidParameters "message too long")

def notSized (k : Rsa.PrivateKey) (digest : Digest.Algorithm) (data : Bytes) :
    Check PrimitiveError :=
  fault (k.size < data.length ∨ k.size < 2 * digest.size + 2) decryptionError

end Check

namespace Rsa.PrivateKey

variable (k : PrivateKey)

def decipher (data : Bytes) : Nat := Number.powMod k.publicKey.modulus data.toNat k.exponent

theorem decipher_of_apply {k : PrivateKey} {data : Bytes} {m : Nat}
    (h : k.apply data.toNat = .ok m) : m = k.decipher data := by
  rw [apply] at h
  split at h
  · cases h
  · exact (ite_ok_eq_ok.mp h).2

/-- The checks of deciphering a text and taking its padding off: the ciphertext is a number of the
key, the public key leads back to it, and what stands behind it is padded. -/
def decipherChecks (data : Bytes) (unpad : Bytes → Except Error Bytes) :
    List (Check PrimitiveError) :=
  [fault (k.publicKey.modulus ≤ data.toNat) decryptionError,
    fault (k.publicKey.apply (k.decipher data) ≠ data.toNat) (.keyIncompatible "internal error"),
    fault (∀ text, unpad (Bytes.ofNat k.size (k.decipher data)) ≠ .ok text) decryptionError]

end Rsa.PrivateKey

namespace Primitives

theorem ofRsa_bind (x : Except Rsa.Error α) (f : α → Except Rsa.Error β) :
    ofRsa (x >>= f) = ofRsa x >>= fun a => ofRsa (f a) := by
  cases x <;> rfl

theorem ofRsa_ite (p : Prop) [Decidable p] (x y : Except Rsa.Error α) :
    ofRsa (if p then x else y) = if p then ofRsa x else ofRsa y := apply_ite ofRsa p x y

theorem ofRsa_check_eq_error {k : Rsa.PublicKey} {e : PrimitiveError} :
    ofRsa k.check = .error e ↔ unusable k e := by
  rw [Rsa.PublicKey.check, unusable]
  cases k.defect? with
  | none =>
    constructor
    · intro h
      cases h
    · rintro ⟨_, ⟨⟩, -⟩
  | some defect =>
    constructor
    · rintro ⟨⟩
      exact ⟨defect, rfl, rfl⟩
    · rintro ⟨_, ⟨⟩, rfl⟩
      rfl

theorem checked_rsaPkcs1 (k : Rsa.PublicKey) (random : Random) (data : Bytes) :
    Checked [unusable k, tooLong k 11 data] (ofRsa (Rsa.Pkcs1.encrypt k random data)) := by
  rw [Rsa.Pkcs1.encrypt, ofRsa_bind]
  refine .step (fun _ => ofRsa_check_eq_error) fun _ _ => ?_
  rw [ofRsa_ite]
  exact .guard fun _ => .ok _

theorem checked_rsaOaep (k : Rsa.PublicKey) (digest : Digest.Algorithm) (random : Random)
    (data : Bytes) : Checked [unusable k, tooLong k (2 * digest.size + 2) data]
      (ofRsa (Rsa.Oaep.encrypt k digest random data)) := by
  rw [Rsa.Oaep.encrypt, ofRsa_bind]
  refine .step (fun _ => ofRsa_check_eq_error) fun _ _ => ?_
  rw [ofRsa_ite]
  exact .guard fun _ => .ok _

theorem ofRsa_unpad_eq_error {x : Except Rsa.Error Bytes} (hx : FailsAs (· = .decryption) x)
    {e : PrimitiveError} :
    ofRsa x = .error e ↔ fault (∀ text, x ≠ .ok text) decryptionError e := by
  cases x with
  | ok text => exact ⟨nofun, fun h => absurd rfl (h.1 text)⟩
  | error e' =>
    rw [failsAs_error.mp hx]
    exact ⟨fun h => ⟨nofun, (Except.error.inj h).symm⟩, fun h => h.2 ▸ rfl⟩

theorem checked_decipher (k : Rsa.PrivateKey) (data : Bytes)
    {unpad : Bytes → Except Rsa.Error Bytes} (hu : ∀ em, FailsAs (· = .decryption) (unpad em)) :
    Checked (k.decipherChecks data unpad)
      (ofRsa (k.apply data.toNat >>= fun m => unpad (Bytes.ofNat k.size m))) := by
  have happly : Checked [fault (k.publicKey.modulus ≤ data.toNat) decryptionError,
      fault (k.publicKey.apply (k.decipher data) ≠ data.toNat) (.keyIncompatible "internal error")]
      (ofRsa (k.apply data.toNat)) := by
    rw [Rsa.PrivateKey.apply, ofRsa_ite]
    refine .guard fun _ => ?_
    rw [ofRsa_ite]
    exact .grant fun _ => .ok _
  have hunpad (m : Nat) (hm : ofRsa (k.apply data.toNat) = .ok m) :
      Checked [fault (∀ text, unpad (Bytes.ofNat k.size (k.decipher data)) ≠ .ok text)
        decryptionError] (ofRsa (unpad (Bytes.ofNat k.size m))) := by
    rw [← Rsa.PrivateKey.decipher_of_apply (ofRsa_eq_ok.mp hm)]
    exact .single fun e => ofRsa_unpad_eq_error (hu _)
  rw [ofRsa_bind]
  exact happly.bind hunpad

end Primitives

/-! ## Checks of a transformation -/

namespace Check

/-- The checks of encryption. The RSA operation looks at its key before it looks at the text. -/
def ofEncryption (provider : Option String) (key : KeyMaterial) (data : Bytes)
    (t : Transformation) : List (Check PrimitiveError) :=
  foreignProvider provider ::
    match t with
    | .aesGcm => needing key.secret? key.notSecret fun k => [badKeySize k, noRoom [] data]
    | .rsaPkcs1 => needing key.rsaPublic? key.notRsaPublic fun k => [unusable k, tooLong k 11 data]
    | .rsaOaep digest => needing key.rsaPublic? key.notRsaPublic fun k =>
        [unusable k, tooLong k (2 * digest.algorithm.size + 2) data]

def ofDecryption (provider : Option String) (key : KeyMaterial) (data : Bytes)
    (t : Transformation) : List (Check PrimitiveError) :=
  foreignProvider provider ::
    match t with
    | .aesGcm => needing key.secret? key.notSecret fun k =>
        [tooShort data, badKeySize k,
          badTag k (data.take Aes.Gcm.nonceSize) [] (data.drop Aes.Gcm.nonceSize)]
    | .rsaPkcs1 => needing key.rsaPrivate? key.notRsaPrivate fun k =>
        unusable k.publicKey :: k.decipherChecks data Rsa.Pkcs1.unpad
    | .rsaOaep digest => needing key.rsaPrivate? key.notRsaPrivate fun k =>
        unusable k.publicKey :: notSized k digest.algorithm data ::
          k.decipherChecks data (Rsa.Oaep.unpad digest.algorithm)

end Check

namespace Primitives

variable (provider : Option String) (key : KeyMaterial) (data : Bytes) (t : Transformation)

theorem checked_encrypt (random : Random) :
    Checked (ofEncryption provider key data t) (encrypt random t provider key data) := by
  refine .step (fun _ => checkProvider_eq_error) fun _ hp => ?_
  cases t with
  | aesGcm =>
    refine .needed (secretKey_eq key) fun k _ => ?_
    have hs : Checked [foreignProvider provider, badNonce (random.octets Aes.Gcm.nonceSize),
        badKeySize k, noRoom [] data]
        (sealText provider k (random.octets Aes.Gcm.nonceSize) data []) := checked_sealText
    have hnonce (e : PrimitiveError) : ¬ badNonce (random.octets Aes.Gcm.nonceSize) e :=
      fun h => h.1 (Random.length_octets _ _)
    exact ((hs.tail (not_foreignProvider hp)).tail hnonce).map _
  | rsaPkcs1 => exact .needed (rsaPublicKey_eq key) fun k _ => checked_rsaPkcs1 k random data
  | rsaOaep digest => exact .needed (rsaPublicKey_eq key) fun k _ => checked_rsaOaep k _ random data

/-- A key with a defect is told for every text, also for one that it has no room for. -/
theorem encrypt_of_defect {k : Rsa.PublicKey} {defect : Rsa.KeyDefect} {key : KeyMaterial}
    (hp : checkProvider provider = .ok ()) (ht : t ≠ .aesGcm) (hk : key.rsaPublic? = some k)
    (hd : k.defect? = some defect) (random : Random) :
    encrypt random t provider key data = .error (.keyIncompatible defect.message) := by
  have hfirst (checks : List (Check PrimitiveError)) : First (foreignProvider provider ::
      needing (some k) key.notRsaPublic fun k => unusable k :: checks)
      (.keyIncompatible defect.message) :=
    .inr ⟨not_foreignProvider hp, .inr ⟨fun e h => (nomatch h.1), .inl ⟨defect, hd, rfl⟩⟩⟩
  refine (checked_encrypt provider key data t random _).mpr ?_
  cases t with
  | aesGcm => exact absurd rfl ht
  | rsaPkcs1 =>
    rw [ofEncryption, hk]
    exact hfirst _
  | rsaOaep digest =>
    rw [ofEncryption, hk]
    exact hfirst _

theorem checked_decrypt :
    Checked (ofDecryption provider key data t) (decrypt t provider key data) := by
  refine .step (fun _ => checkProvider_eq_error) fun _ hp => ?_
  cases t with
  | aesGcm =>
    refine .needed (secretKey_eq key) fun k _ => .guard fun hl => ?_
    have ho : Checked [foreignProvider provider, badNonce (data.take Aes.Gcm.nonceSize),
        badKeySize k, badTag k (data.take Aes.Gcm.nonceSize) [] (data.drop Aes.Gcm.nonceSize)]
        (openText provider k (data.take Aes.Gcm.nonceSize) (data.drop Aes.Gcm.nonceSize) []) :=
      checked_openText
    refine (ho.tail (not_foreignProvider hp)).tail fun e h => h.1 ?_
    rw [List.length_take]
    omega
  | rsaPkcs1 =>
    refine .needed (rsaPrivateKey_eq key) fun k _ => ?_
    rw [Rsa.Pkcs1.decrypt_eq, ofRsa_bind]
    exact .step (fun _ => ofRsa_check_eq_error) fun _ _ =>
      checked_decipher k data Rsa.Pkcs1.failsAs_unpad
  | rsaOaep digest =>
    refine .needed (rsaPrivateKey_eq key) fun k _ => ?_
    rw [Rsa.Oaep.decrypt_eq, ofRsa_bind]
    refine .step (fun _ => ofRsa_check_eq_error) fun _ _ => ?_
    rw [ofRsa_ite]
    exact .guard fun _ => checked_decipher k data (Rsa.Oaep.failsAs_unpad _)

end Primitives

/-! ## Operations by name -/

namespace Operations

def namedChecks (s : AlgorithmSpec) (checks : Transformation → List (Check PrimitiveError)) :
    List (Check PrimitiveError) :=
  needing (Transformation.named? s.algorithm) (Transformation.unnamed s.algorithm) checks

/-- The checks of sealing or opening by AES-GCM, which no other transformation can do. -/
def aeadChecks (s : AlgorithmSpec) (checks : List (Check PrimitiveError)) :
    List (Check PrimitiveError) :=
  namedChecks s fun t => fault (t ≠ .aesGcm)
    (.algorithmNotAvailable (s.algorithm ++ " is not an AEAD transformation")) ::
      foreignProvider s.provider :: checks

/-- The failure of the first check that does not pass, told with the activity, the name and the
label of the provider. -/
def Reported (a : Activity) (s : AlgorithmSpec) (checks : List (Check PrimitiveError)) :
    Check ServiceError :=
  fun e => ∃ cause, First checks cause ∧
    e = .cryptoOperation (summary a s) (some (.primitive cause))

theorem finish_eq_error_of_checked {a : Activity} {s : AlgorithmSpec}
    {checks : List (Check PrimitiveError)} {x : Except PrimitiveError α} (hx : Checked checks x)
    {e : ServiceError} : finish a s x = .error e ↔ Reported a s checks e := by
  rw [finish_eq_error]
  exact exists_congr fun cause => and_congr_left fun _ => hx cause

theorem checked_requireSealing (s : AlgorithmSpec) {checks : List (Check PrimitiveError)}
    {x : Except PrimitiveError α} (hx : Checked (foreignProvider s.provider :: checks) x) :
    Checked (aeadChecks s checks) (requireSealing s >>= fun _ => x) := by
  have h : (requireSealing s >>= fun _ => x) = (s.transformation >>= fun t =>
      if t ≠ .aesGcm then
        .error (.algorithmNotAvailable (s.algorithm ++ " is not an AEAD transformation"))
      else x) := by
    rw [requireSealing]
    cases s.transformation with
    | error e => rfl
    | ok t => cases t <;> rfl
  rw [h]
  exact .needed (Transformation.parse_eq _) fun t _ => .guard fun _ => hx

structure FailsByFirstCheck (random : Random) (s : AlgorithmSpec) (data : Bytes) : Prop where
  /-- For encryption and decryption a blank name is that of the default. -/
  encrypt : ∀ key e, encrypt random data key s = .error e ↔
    let s := s.orDefault AlgorithmSpec.defaultAsymmetric
    Reported .encrypting s (namedChecks s (ofEncryption s.provider key data)) e
  decrypt : ∀ key e, decrypt data key s = .error e ↔
    let s := s.orDefault AlgorithmSpec.defaultAsymmetric
    Reported .decrypting s (namedChecks s (ofDecryption s.provider key data)) e
  sealText : ∀ k nonce associated e, sealText data k nonce associated s = .error e ↔
    Reported .encrypting s (aeadChecks s [badNonce nonce, badKeySize k, noRoom associated data]) e
  openText : ∀ k nonce associated e, openText data k nonce associated s = .error e ↔
    Reported .decrypting s
      (aeadChecks s [badNonce nonce, badKeySize k, badTag k nonce associated data]) e

/-- An operation with a key fails as the first of its checks that does not pass, for any key,
specification and text. -/
theorem fails_by_first_check (random : Random) (s : AlgorithmSpec) (data : Bytes) :
    FailsByFirstCheck random s data := by
  constructor
  case encrypt =>
    exact fun key e => finish_eq_error_of_checked <|
      .needed (Transformation.parse_eq _) fun t _ => Primitives.checked_encrypt _ key data t random
  case decrypt =>
    exact fun key e => finish_eq_error_of_checked <|
      .needed (Transformation.parse_eq _) fun t _ => Primitives.checked_decrypt _ key data t
  case sealText =>
    exact fun k nonce associated e => finish_eq_error_of_checked <|
      checked_requireSealing s Primitives.checked_sealText
  case openText =>
    exact fun k nonce associated e => finish_eq_error_of_checked <|
      checked_requireSealing s Primitives.checked_openText

/-- A key of one bit more than the largest that is used. -/
def oversizedKey : Rsa.PublicKey := ⟨2 ^ 4096 + 1, 65537⟩

def smallKey : Rsa.PrivateKey := ⟨⟨3233, 17⟩, 2753, 61, 53⟩

def rsaByName : AlgorithmSpec := { algorithm := "RSA" }

/-- A text that is too long for a key is not always told as one. Where the key is refused, encryption
fails for the key. Decryption fails as it does for wrong padding. -/
theorem a_long_text_is_not_always_told :
    (tooLong oversizedKey 11 (List.replicate 600 0) (.invalidParameters "message too long") ∧
      ∀ random, encrypt random (List.replicate 600 0) (.publicKey (.rsa oversizedKey)) rsaByName =
        .error (.cryptoOperation (summary .encrypting rsaByName)
          (some (.primitive (.keyIncompatible "modulus too large"))))) ∧
    (smallKey.isUsable = true ∧ smallKey.size < (List.replicate 3 (0xFF : UInt8)).length ∧
      decrypt (List.replicate 3 0xFF) (.privateKey (.rsa smallKey)) rsaByName =
        .error (.cryptoOperation (summary .decrypting rsaByName)
          (some (.primitive (.badPadding "decryption error"))))) := by
  have hname : rsaByName.orDefault AlgorithmSpec.defaultAsymmetric = rsaByName := rfl
  have ht : rsaByName.transformation = .ok .rsaPkcs1 := Transformation.parse_of_toList (by decide)
  refine ⟨⟨⟨by decide +kernel, rfl⟩, fun random => ?_⟩, by decide, by decide, ?_⟩
  · refine finish_eq_error.mpr ⟨_, ?_, by rw [hname]⟩
    have hkey (k : Rsa.PublicKey) : (KeyMaterial.publicKey (.rsa k)).rsaPublic? = some k := rfl
    have hdefect : oversizedKey.defect? = some .modulusTooLarge := by decide +kernel
    have hprovider : Primitives.checkProvider rsaByName.provider = .ok () := rfl
    rw [hname, ht, ok_bind,
      Primitives.encrypt_of_defect _ _ _ hprovider Transformation.noConfusion (hkey _) hdefect]
    rfl
  · refine finish_eq_error.mpr ⟨_, ?_, by rw [hname]⟩
    rw [hname, ht]
    rfl

end Operations

end Strongbox
