/-
  Strongbox.Operations — encryption and signatures with a key at hand and an algorithm by name.

  A failure of a primitive becomes a service error that names the activity, the algorithm and
  the security provider, with the primitive's failure as its cause. A blank name means RSA for
  encryption; for everything else the name must be given.
-/

import Strongbox.Algorithm
import Strongbox.Primitives

namespace Strongbox.Operations

inductive Activity where
  | encrypting
  | decrypting
  | signing
  | verifying
  deriving DecidableEq, Repr

def Activity.shown : Activity → String
  | encrypting => "encrypting"
  | decrypting => "decrypting"
  | signing => "signing"
  | verifying => "verifying"

def summary (a : Activity) (spec : AlgorithmSpec) : String :=
  "An error occurred while " ++ a.shown ++ " using the algorithm '" ++ spec.algorithm
    ++ "' and the security provider '" ++ spec.providerLabel ++ "'"

def finish (a : Activity) (spec : AlgorithmSpec) (r : Except PrimitiveError α) :
    Except ServiceError α :=
  r.mapError fun e => .cryptoOperation (summary a spec) (some (.primitive e))

def encrypt (random : Random) (data : Bytes) (key : KeyMaterial) (spec : AlgorithmSpec) :
    Except ServiceError Bytes :=
  let spec := spec.orDefault AlgorithmSpec.defaultAsymmetric
  finish .encrypting spec do
    Primitives.encrypt random (← spec.transformation) spec.provider key data

def decrypt (data : Bytes) (key : KeyMaterial) (spec : AlgorithmSpec) : Except ServiceError Bytes :=
  let spec := spec.orDefault AlgorithmSpec.defaultAsymmetric
  finish .decrypting spec do
    Primitives.decrypt (← spec.transformation) spec.provider key data

def requireSealing (spec : AlgorithmSpec) : Except PrimitiveError Unit := do
  match (← spec.transformation) with
  | .aesGcm => return
  | _ => throw (.algorithmNotAvailable (spec.algorithm ++ " is not an AEAD transformation"))

def sealText (data : Bytes) (key : SecretKey) (nonce associated : Bytes) (spec : AlgorithmSpec) :
    Except ServiceError Bytes :=
  finish .encrypting spec do
    requireSealing spec
    Primitives.sealText spec.provider key nonce data associated

def openText (data : Bytes) (key : SecretKey) (nonce associated : Bytes) (spec : AlgorithmSpec) :
    Except ServiceError Bytes :=
  finish .decrypting spec do
    requireSealing spec
    Primitives.openText spec.provider key nonce data associated

def sign (data : Bytes) (key : PrivateKey) (spec : AlgorithmSpec) : Except ServiceError Bytes :=
  finish .signing spec do
    Primitives.sign (← spec.signatureScheme) spec.provider key data

/-- A signature of another text is no failure: the answer is false. -/
def verify (data signature : Bytes) (key : PublicKey) (spec : AlgorithmSpec) :
    Except ServiceError Bool :=
  finish .verifying spec do
    Primitives.verify (← spec.signatureScheme) spec.provider key data signature

def shown : String :=
  Text.shownStructure "KeyOperations" [("primitives", Text.quoted Primitives.name)]

end Strongbox.Operations
