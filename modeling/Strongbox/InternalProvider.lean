/-
  Strongbox.InternalProvider — encryption of the service's own data.

  A provider encrypts and decrypts with a key of its own; some can also make ciphertexts that
  say how they are opened.
-/

import Strongbox.Capability
import Strongbox.Envelope
import Strongbox.Operations
import Strongbox.Resolver

namespace Strongbox

structure InternalProvider where
  /-- The name under which a caller selects the provider. -/
  type : String
  capabilities : Capabilities := .none
  encrypt : Random → Bytes → AlgorithmSpec → Except ServiceError Bytes
  decrypt : Bytes → AlgorithmSpec → Except ServiceError Bytes
  encryptSelfContained : Random → Bytes → AlgorithmSpec → Except ServiceError Bytes :=
    fun _ _ _ => .error (.notSupported
      "Encryption with self contained cipher text is not supported by this implementation.")
  decryptSelfContained : Bytes → AlgorithmSpec → Except ServiceError Bytes :=
    fun _ _ => .error (.notSupported
      "Decryption with self contained cipher text is not supported by this implementation.")

/-- A resolver together with the context of the key that internal data are encrypted with. -/
structure InternalKey where
  resolver : Resolver
  context : CryptoContext

namespace InternalKey

def ofAlias (r : Resolver) (a : String) : Except ServiceError InternalKey :=
  (CryptoContext.forAlias a).map fun c => ⟨r, c⟩

def shownAs (k : InternalKey) (name : String) : String :=
  Text.shownStructure name [("alias", Text.shownOption Text.quoted k.context.keyAlias)]

end InternalKey

/-! ## Key pairs and secret keys of a store -/

namespace KeyStoreProvider

def type : String := "keystore"

def isSymmetric (s : AlgorithmSpec) : Bool :=
  match s.transformation with
  | .ok t => t.isSymmetric
  | .error _ => false

def secretKey (r : Resolver) (c : CryptoContext) : Except ServiceError KeyMaterial := do
  return .secretKey (← (← r.secretKey c).require "secret key")

def encryptionKey (r : Resolver) (c : CryptoContext) (s : AlgorithmSpec) :
    Except ServiceError KeyMaterial := do
  if isSymmetric s then secretKey r c
  else return .certificate (← (← r.certificate c).require "certificate")

def decryptionKey (r : Resolver) (c : CryptoContext) (s : AlgorithmSpec) :
    Except ServiceError KeyMaterial := do
  if isSymmetric s then secretKey r c
  else return .privateKey (← (← r.privateKey c).require "private key")

def encrypt (k : InternalKey) (random : Random) (text : Bytes) (s : AlgorithmSpec) :
    Except ServiceError Bytes := do
  Operations.encrypt random text (← encryptionKey k.resolver k.context s) s

def decrypt (k : InternalKey) (data : Bytes) (s : AlgorithmSpec) : Except ServiceError Bytes := do
  Operations.decrypt data (← decryptionKey k.resolver k.context s) s

/-- The ciphertext in an envelope. An empty text under a named algorithm is not encrypted. -/
def encryptSelfContained (k : InternalKey) (random : Random) (text : Bytes) (s : AlgorithmSpec) :
    Except ServiceError Bytes := do
  let ciphertext ← if !s.isBlank && text.isEmpty then pure [] else encrypt k random text s
  let certificate ← (← k.resolver.certificate k.context).require "certificate"
  let envelope : Envelope :=
    { ciphertext,
      transformation := (s.orDefault AlgorithmSpec.defaultAsymmetric).algorithm,
      thumbprint := certificate.thumbprint .sha1 }
  return envelope.encode

/-- The text in an envelope, with the key whose certificate the envelope names. The recorded
transformation is used, whatever the caller names. -/
def decryptSelfContained (k : InternalKey) (data : Bytes) (s : AlgorithmSpec) :
    Except ServiceError Bytes := do
  let envelope ← Envelope.decode data
  let entry ← (← k.resolver.byThumbprint envelope.thumbprint).require "internal key"
  if envelope.ciphertext.isEmpty then return []
  let recorded := ({ algorithm := envelope.transformation } : AlgorithmSpec).withProvider
    s.providerLabel
  let context ← CryptoContext.forAlias entry.keyAlias
  Operations.decrypt envelope.ciphertext (← decryptionKey k.resolver context recorded) recorded

def view (k : InternalKey) : InternalProvider where
  type := type
  capabilities := Capabilities.none.insert .selfContainedCiphertext
  encrypt := encrypt k
  decrypt := decrypt k
  encryptSelfContained := encryptSelfContained k
  decryptSelfContained := decryptSelfContained k

def shown (k : InternalKey) : String := k.shownAs "KeyStoreInternalProvider"

end KeyStoreProvider

/-! ## One secret key -/

namespace SymmetricProvider

def type : String := "symmetric"

def key (k : InternalKey) : Except ServiceError KeyMaterial :=
  KeyStoreProvider.secretKey k.resolver k.context

def encrypt (k : InternalKey) (random : Random) (text : Bytes) (s : AlgorithmSpec) :
    Except ServiceError Bytes := do
  Operations.encrypt random text (← key k) (s.orDefault AlgorithmSpec.defaultSymmetric)

def decrypt (k : InternalKey) (data : Bytes) (s : AlgorithmSpec) : Except ServiceError Bytes := do
  Operations.decrypt data (← key k) (s.orDefault AlgorithmSpec.defaultSymmetric)

def view (k : InternalKey) : InternalProvider where
  type := type
  encrypt := encrypt k
  decrypt := decrypt k

def shown (k : InternalKey) : String := k.shownAs "SymmetricKeyInternalProvider"

end SymmetricProvider

end Strongbox
