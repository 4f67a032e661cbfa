/-
  Strongbox.Key.Private — private keys, plain or under a password, in text armour or not.

  A password that opens the encryption but leaves no key behind it counts as wrong, since the
  padding alone cannot tell.
-/

import Strongbox.Pem
import Strongbox.Pkcs8.Encrypted
import Strongbox.Pkcs8.PrivateKeyInfo
import Strongbox.Text.Utf8

namespace Strongbox

inductive PrivateKey where
  | rsa (key : Rsa.PrivateKey)
  | ed25519 (key : Ed25519.PrivateKey)
  deriving DecidableEq, Repr

namespace PrivateKey

def algorithm : PrivateKey → String
  | rsa _ => "RSA"
  | ed25519 _ => "Ed25519"

def publicKey : PrivateKey → PublicKey
  | rsa k => .rsa k.publicKey
  | ed25519 k => .ed25519 k.publicKey

def shown : PrivateKey → String
  | rsa k => s!"PrivateKey::Rsa({k.size * 8} bits, [REDACTED])"
  | ed25519 _ => "PrivateKey::Ed25519([REDACTED])"

def ofDer (b : Bytes) : Except KeyDecodeError PrivateKey :=
  match Pkcs8.PrivateKeyInfo.parser.whole b with
  | none => .error (.malformed "unsupported PKCS#8 private key: not private key information")
  | some i =>
    match Pkcs8.rsaKey? i, Pkcs8.ed25519Key? i with
    | some k, _ => .ok (rsa k)
    | none, some k => .ok (ed25519 k)
    | none, none => .error (.malformed "unsupported PKCS#8 private key: neither RSA nor Ed25519")

def openInfo (i : Pkcs8.EncryptedPrivateKeyInfo) (password : Bytes) :
    Except KeyDecodeError PrivateKey :=
  match (i.decrypt? password).map ofDer with
  | some (.ok k) => .ok k
  | _ => .error .wrongPassword

def decrypt (b password : Bytes) : Except KeyDecodeError PrivateKey :=
  match Pkcs8.EncryptedPrivateKeyInfo.parser.whole b with
  | some i => openInfo i password
  | none => .error (.malformed "invalid encrypted key: not encrypted private key information")

/-- The label and the content of armoured octets; the content is exactly one sequence. -/
def armoured (b : Bytes) : Except KeyDecodeError (String × Bytes) :=
  match Text.Utf8.defect? b with
  | some d => .error (.malformed ("PEM is not UTF-8: " ++ d.message))
  | none =>
    match (Pem.block? b).bind fun block => block.decode?.map fun content => (block.label, content) with
    | none => .error (.malformed "invalid PEM: no block")
    | some (label, content) =>
      match (Der.contentOf Der.Tag.sequence).whole content with
      | some _ => .ok (label, content)
      | none => .error (.malformed "invalid PEM: no sequence in the block")

/-- The key in some octets; the password matters only when they are encrypted. -/
def ofBytes (b password : Bytes) : Except KeyDecodeError PrivateKey :=
  if Pem.looksLike b then do
    let (label, content) ← armoured b
    if label = "ENCRYPTED PRIVATE KEY" then decrypt content password
    else if label = "PRIVATE KEY" then ofDer content
    else throw (.malformed ("unexpected PEM label " ++ Text.quoted label))
  else
    match Pkcs8.EncryptedPrivateKeyInfo.parser.whole b with
    | some i => openInfo i password
    | none => ofDer b

end PrivateKey

end Strongbox
