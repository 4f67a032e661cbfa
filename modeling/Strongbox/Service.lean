/-
  Strongbox.Service — the operations on offer, over one resolver and some internal providers.
-/

import Strongbox.Hybrid.Builder
import Strongbox.InternalProvider

namespace Strongbox

structure Service where
  resolver : Resolver
  providers : Table InternalProvider
  /-- The type of the provider that is used when none is selected. -/
  defaultProvider : String
  hybrid : Bool

structure ServiceBuilder where
  resolver : Resolver
  providers : Table InternalProvider := .empty
  defaultProvider : String := KeyStoreProvider.type
  hybrid : Bool := false

namespace ServiceBuilder

/-- A provider replaces one of the same type. -/
def withProvider (b : ServiceBuilder) (p : InternalProvider) : ServiceBuilder :=
  { b with providers := b.providers.insert p.type p }

/-- The service, whose default provider must be among the providers. -/
def build (b : ServiceBuilder) : Except ServiceError Service :=
  if b.providers.contains b.defaultProvider then
    .ok { resolver := b.resolver, providers := b.providers, defaultProvider := b.defaultProvider,
          hybrid := b.hybrid }
  else
    .error (.validation ("default internal crypto provider '" ++ b.defaultProvider
      ++ "' is not registered"))

end ServiceBuilder

namespace Service

def providerTypes (s : Service) : List String := s.providers.keys

def capabilities (s : Service) : Capabilities where
  hybridEncryption := s.hybrid
  selfContainedCiphertext :=
    s.providers.values.any (·.capabilities.supports .selfContainedCiphertext)
  providerSelection := decide (s.providers.entries.length > 1)

def provider (s : Service) (activity : String) (d : OperationDescriptor) :
    Except ServiceError InternalProvider :=
  match s.providers.get? (d.internalProvider.getD s.defaultProvider) with
  | some p => .ok p
  | none =>
    .error (.notSupported (activity
      ++ " with providing internal crypto provider type is not supported by this implementation."))

/-! ## Internal data -/

def encrypt (s : Service) (random : Random) (text : Bytes) (d : OperationDescriptor) :
    Except ServiceError Bytes := do
  let p ← s.provider "Encryption" d
  if d.selfContained then p.encryptSelfContained random text d.spec
  else p.encrypt random text d.spec

def decrypt (s : Service) (data : Bytes) (d : OperationDescriptor) : Except ServiceError Bytes := do
  let p ← s.provider "Decryption" d
  if d.selfContained then p.decryptSelfContained data d.spec else p.decrypt data d.spec

/-! ## Data of a context -/

def certificate (s : Service) (c : CryptoContext) : Except ServiceError Certificate := do
  (← s.resolver.certificate c).require "certificate"

def privateKey (s : Service) (c : CryptoContext) : Except ServiceError PrivateKey := do
  (← s.resolver.privateKey c).require "private key"

def sign (s : Service) (data : Bytes) (spec : AlgorithmSpec) (c : CryptoContext) :
    Except ServiceError Bytes := do
  Operations.sign data (← s.privateKey c) spec

def verify (s : Service) (data signature : Bytes) (spec : AlgorithmSpec) (c : CryptoContext) :
    Except ServiceError Bool := do
  Operations.verify data signature (← s.certificate c).publicKey spec

def encryptFor (s : Service) (random : Random) (text : Bytes) (spec : AlgorithmSpec)
    (c : CryptoContext) : Except ServiceError Bytes := do
  Operations.encrypt random text (.certificate (← s.certificate c)) spec

def decryptFrom (s : Service) (data : Bytes) (spec : AlgorithmSpec) (c : CryptoContext) :
    Except ServiceError Bytes := do
  Operations.decrypt data (.privateKey (← s.privateKey c)) spec

/-! ## Hybrid encryption -/

def requireHybrid (s : Service) (activity : String) : Except ServiceError Unit :=
  if s.hybrid then .ok ()
  else
    .error (.notSupported ("Hybrid " ++ activity ++ " is not supported by this implementation."))

def hybridEncrypt (s : Service) (random : Random) (input : Hybrid.Input)
    (symmetric asymmetric : AlgorithmSpec) (c : CryptoContext) :
    Except ServiceError Hybrid.Output := do
  s.requireHybrid "encryption"
  Hybrid.build s.resolver random input symmetric asymmetric c

def hybridDecrypt (s : Service) (output : Hybrid.Output) (symmetric asymmetric : AlgorithmSpec)
    (c : CryptoContext) : Except ServiceError Bytes := do
  s.requireHybrid "decryption"
  Hybrid.openRecord s.resolver output symmetric asymmetric c

def shown (s : Service) : String :=
  Text.shownStructure "DefaultCryptoService"
    [("providers", Text.shownList Text.quoted s.providerTypes),
      ("default_provider", Text.quoted s.defaultProvider), ("hybrid", toString s.hybrid)]

end Service

end Strongbox
