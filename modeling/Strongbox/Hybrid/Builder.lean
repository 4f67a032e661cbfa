/-
  Strongbox.Hybrid.Builder — sealing a text under a fresh data key, which is encrypted for the
  receiver, and opening it again.

  The record names both algorithms, and whoever opens it must ask for the same ones.
-/

import Strongbox.Hybrid.Record
import Strongbox.Operations
import Strongbox.Resolver

namespace Strongbox.Hybrid

def dataKeySize : Nat := 32

def build (r : Resolver) (random : Random) (input : Input) (symmetric asymmetric : AlgorithmSpec)
    (c : CryptoContext) : Except ServiceError Output := do
  let symmetric := symmetric.orDefault AlgorithmSpec.defaultSymmetric
  let asymmetric := asymmetric.orDefault AlgorithmSpec.defaultAsymmetric
  let certificate ← (← r.certificate c).require "certificate"
  let key := SecretKey.generate random
  let random := random.after dataKeySize
  let nonce := random.octets Aes.Gcm.nonceSize
  let random := random.after Aes.Gcm.nonceSize
  let associated := input.associatedData.getD []
  let ciphertext ← Operations.sealText input.cleartext key nonce associated symmetric
  let wrappedKey ← Operations.encrypt random key.octets (.certificate certificate) asymmetric
  return { wrappedKey, ciphertext, nonce, associatedData := input.associatedData,
           symmetricAlgorithm := symmetric.algorithm, asymmetricAlgorithm := asymmetric.algorithm }

/-- The names agree, blanks around them and the case of letters apart. -/
def checkRecorded (role : String) (requested : AlgorithmSpec) (recorded : String) :
    Except ServiceError Unit :=
  if Text.sameLetters (Text.trim requested.algorithm) (Text.trim recorded) then .ok ()
  else
    .error (.validation (role ++ " algorithm '" ++ requested.algorithm
      ++ "' does not match the envelope's '" ++ recorded ++ "'"))

def openRecord (r : Resolver) (output : Output) (symmetric asymmetric : AlgorithmSpec)
    (c : CryptoContext) : Except ServiceError Bytes := do
  let symmetric := symmetric.orDefault AlgorithmSpec.defaultSymmetric
  let asymmetric := asymmetric.orDefault AlgorithmSpec.defaultAsymmetric
  checkRecorded "symmetric" symmetric output.symmetricAlgorithm
  checkRecorded "asymmetric" asymmetric output.asymmetricAlgorithm
  let privateKey ← (← r.privateKey c).require "private key"
  let octets ← Operations.decrypt output.wrappedKey (.privateKey privateKey) asymmetric
  let key ← (SecretKey.make octets).mapError fun e =>
    ServiceError.cryptoOperation "unwrapped data key is not a valid AES key" (some (.keyDecode e))
  Operations.openText output.ciphertext key output.nonce (output.associatedData.getD []) symmetric

def shownBuilder : String :=
  Text.shownStructure "HybridEnvelopeBuilder" [("operations", Operations.shown)]

end Strongbox.Hybrid
