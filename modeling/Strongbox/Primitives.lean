/-
  Strongbox.Primitives — the built-in security provider: what each transformation and each
  signature scheme does with a key.

  The provider that a caller names must be the built-in one or blank; this is checked before
  anything else.
-/

import Strongbox.Aes.Gcm
import Strongbox.Key.Material
import Strongbox.Random
import Strongbox.Rsa.Oaep
import Strongbox.Rsa.Pkcs1
import Strongbox.Transformation

namespace Strongbox.Primitives

def name : String := "rustcrypto"

/-- Refuses any provider but the built-in one, whatever the case of its letters. -/
def checkProvider (provider : Option String) : Except PrimitiveError Unit :=
  let p := Text.trim (provider.getD "")
  if p = "" ∨ Text.sameLetters p name then .ok () else .error (.providerNotAvailable p)

/-! ## The right kind of key -/

def secretKey : KeyMaterial → Except PrimitiveError SecretKey
  | .secretKey k => .ok k
  | k => .error (.keyIncompatible ("AES/GCM/NoPadding requires a secret key, got " ++ k.describe))

/-- A private key and a certificate also give a public key. -/
def rsaPublicKey : KeyMaterial → Except PrimitiveError Rsa.PublicKey
  | .publicKey (.rsa k) => .ok k
  | .privateKey (.rsa k) => .ok k.publicKey
  | .certificate c =>
    match c.publicKey with
    | .rsa k => .ok k
    | k => .error (.keyIncompatible ("RSA encryption requires an RSA key, got " ++ k.algorithm))
  | k => .error (.keyIncompatible ("RSA encryption requires an RSA public key, got " ++ k.describe))

def rsaPrivateKey : KeyMaterial → Except PrimitiveError Rsa.PrivateKey
  | .privateKey (.rsa k) => .ok k
  | k => .error (.keyIncompatible ("RSA decryption requires an RSA private key, got " ++ k.describe))

def ofRsa (r : Except Rsa.Error α) : Except PrimitiveError α :=
  r.mapError fun e =>
    match e with
    | .decryption => .badPadding e.message
    | .messageTooLong => .invalidParameters e.message
    | .inconsistentKey | .unusableKey _ => .keyIncompatible e.message

/-! ## Sealing -/

def checkNonce (nonce : Bytes) : Except PrimitiveError Unit :=
  if nonce.length = Aes.Gcm.nonceSize then .ok ()
  else
    .error (.invalidParameters
      s!"AES-GCM nonce must be {Aes.Gcm.nonceSize} bytes, got {nonce.length}")

/-- The cipher is there for keys of 16 and of 32 octets. -/
def checkKey (key : SecretKey) : Except PrimitiveError Unit :=
  if key.octets.length = 16 ∨ key.octets.length = 32 then .ok ()
  else .error (.keyIncompatible s!"AES key must be 16 or 32 bytes, got {key.octets.length}")

def sealText (provider : Option String) (key : SecretKey) (nonce data associated : Bytes) :
    Except PrimitiveError Bytes := do
  checkProvider provider
  checkNonce nonce
  checkKey key
  if Aes.Gcm.HasRoom associated data then
    return Aes.Gcm.sealText key.octets nonce associated data
  else throw (.invalidParameters "AES-GCM encryption failed")

def openText (provider : Option String) (key : SecretKey) (nonce data associated : Bytes) :
    Except PrimitiveError Bytes := do
  checkProvider provider
  checkNonce nonce
  checkKey key
  match Aes.Gcm.openText? key.octets nonce associated data with
  | some text => return text
  | none => throw (.badPadding "AES-GCM tag mismatch")

/-! ## Encryption -/

/-- Encrypts a text. A secret key seals it under a random nonce, which is put in front. -/
def encrypt (random : Random) (t : Transformation) (provider : Option String) (key : KeyMaterial)
    (data : Bytes) : Except PrimitiveError Bytes := do
  checkProvider provider
  match t with
  | .aesGcm =>
    let key ← secretKey key
    let nonce := random.octets Aes.Gcm.nonceSize
    return nonce ++ (← sealText provider key nonce data [])
  | .rsaPkcs1 => ofRsa (Rsa.Pkcs1.encrypt (← rsaPublicKey key) random data)
  | .rsaOaep digest => ofRsa (Rsa.Oaep.encrypt (← rsaPublicKey key) digest.algorithm random data)

def decrypt (t : Transformation) (provider : Option String) (key : KeyMaterial) (data : Bytes) :
    Except PrimitiveError Bytes := do
  checkProvider provider
  match t with
  | .aesGcm =>
    let key ← secretKey key
    let least := Aes.Gcm.nonceSize + Aes.Gcm.tagSize
    if data.length < least then
      throw (.invalidParameters
        s!"AES-GCM ciphertext must be at least {least} bytes, got {data.length}")
    openText provider key (data.take Aes.Gcm.nonceSize) (data.drop Aes.Gcm.nonceSize) []
  | .rsaPkcs1 => ofRsa (Rsa.Pkcs1.decrypt (← rsaPrivateKey key) data)
  | .rsaOaep digest => ofRsa (Rsa.Oaep.decrypt (← rsaPrivateKey key) digest.algorithm data)

/-! ## Signatures -/

def mismatch (s : SignatureScheme) (algorithm : String) : PrimitiveError :=
  .keyIncompatible (s.shown ++ " cannot use a " ++ algorithm ++ " key")

def sign (s : SignatureScheme) (provider : Option String) (key : PrivateKey) (data : Bytes) :
    Except PrimitiveError Bytes := do
  checkProvider provider
  match s, key with
  | .ed25519, .ed25519 k => return Ed25519.sign k data
  | .rsa digest, .rsa k => ofRsa (Rsa.Pkcs1.sign k digest data)
  | s, k => throw (mismatch s k.algorithm)

/-- Whether the signature is one of the data. A signature of the wrong size is refused. -/
def verify (s : SignatureScheme) (provider : Option String) (key : PublicKey)
    (data signature : Bytes) : Except PrimitiveError Bool := do
  checkProvider provider
  match s, key with
  | .ed25519, .ed25519 k =>
    if signature.length ≠ 64 then
      throw (.invalidParameters "malformed Ed25519 signature: not 64 bytes")
    return Ed25519.verify k data signature
  | .rsa digest, .rsa k =>
    if signature.length ≠ k.size then
      throw (.invalidParameters s!"RSA signature must be {k.size} bytes, got {signature.length}")
    return Rsa.Pkcs1.verify k digest data signature
  | s, k => throw (mismatch s k.algorithm)

end Strongbox.Primitives
