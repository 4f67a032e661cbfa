/-
  Strongbox.Transformation — the ways to encrypt and to sign, by name.

  Blanks around a name and the case of its letters do not matter. A blank name is no
  transformation and no scheme.
-/

import Strongbox.Digest.Algorithm
import Strongbox.Error

namespace Strongbox

/-- The digest that marks the data block of an optimally padded message. -/
inductive OaepDigest where
  | sha1
  | sha256
  deriving DecidableEq, Repr

def OaepDigest.algorithm : OaepDigest → Digest.Algorithm
  | sha1 => .sha1
  | sha256 => .sha256

inductive Transformation where
  | rsaPkcs1
  | rsaOaep (digest : OaepDigest)
  | aesGcm
  deriving DecidableEq, Repr

namespace Transformation

/-- The transformation that a name in upper case, without blanks around it, stands for. -/
def ofName? : String → Option Transformation
  | "RSA" | "RSA/ECB/PKCS1PADDING" | "RSA/NONE/PKCS1PADDING" => some rsaPkcs1
  | "RSA/ECB/OAEPWITHSHA1ANDMGF1PADDING" | "RSA/ECB/OAEPWITHSHA-1ANDMGF1PADDING"
  | "RSA/NONE/OAEPWITHSHA1ANDMGF1PADDING" => some (rsaOaep .sha1)
  | "RSA/ECB/OAEPWITHSHA-256ANDMGF1PADDING" | "RSA/ECB/OAEPWITHSHA256ANDMGF1PADDING"
  | "RSA/NONE/OAEPWITHSHA256ANDMGF1PADDING" => some (rsaOaep .sha256)
  | "AES/GCM/NOPADDING" => some aesGcm
  | _ => none

def parse (name : String) : Except PrimitiveError Transformation :=
  let trimmed := Text.trim name
  match ofName? trimmed.toUpper with
  | some t => .ok t
  | none =>
    .error (.algorithmNotAvailable (if trimmed = "" then "empty transformation" else trimmed))

/-- Whether one secret key serves both directions. -/
def isSymmetric : Transformation → Bool
  | aesGcm => true
  | _ => false

def shown : Transformation → String
  | rsaPkcs1 => "RsaPkcs1"
  | rsaOaep .sha1 => "RsaOaep(Sha1)"
  | rsaOaep .sha256 => "RsaOaep(Sha256)"
  | aesGcm => "AesGcm"

end Transformation

inductive SignatureScheme where
  | rsa (digest : Digest.Algorithm)
  | ed25519
  deriving DecidableEq, Repr

namespace SignatureScheme

def ofName? : String → Option SignatureScheme
  | "SHA1WITHRSA" | "SHA-1WITHRSA" => some (rsa .sha1)
  | "SHA256WITHRSA" | "SHA-256WITHRSA" => some (rsa .sha256)
  | "SHA384WITHRSA" | "SHA-384WITHRSA" => some (rsa .sha384)
  | "SHA512WITHRSA" | "SHA-512WITHRSA" => some (rsa .sha512)
  | "ED25519" | "EDDSA" => some ed25519
  | _ => none

def parse (name : String) : Except PrimitiveError SignatureScheme :=
  let trimmed := Text.trim name
  match ofName? trimmed.toUpper with
  | some s => .ok s
  | none => .error (.algorithmNotAvailable trimmed)

def isRsa : SignatureScheme → Bool
  | rsa _ => true
  | ed25519 => false

def shown : SignatureScheme → String
  | rsa .sha1 => "Sha1WithRsa"
  | rsa .sha256 => "Sha256WithRsa"
  | rsa .sha384 => "Sha384WithRsa"
  | rsa .sha512 => "Sha512WithRsa"
  | ed25519 => "Ed25519"

end SignatureScheme

end Strongbox
