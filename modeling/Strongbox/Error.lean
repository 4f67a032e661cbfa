/-
  Strongbox.Error — what can go wrong, from the primitives up to the service.

  A service error may carry the failure that caused it; its message does not repeat the cause.
-/

import Strongbox.Text.Quoted

namespace Strongbox

inductive PrimitiveError where
  | algorithmNotAvailable (name : String)
  | providerNotAvailable (name : String)
  | keyIncompatible (reason : String)
  | invalidParameters (reason : String)
  | badPadding (reason : String)
  deriving DecidableEq, Repr

def PrimitiveError.message : PrimitiveError → String
  | algorithmNotAvailable name => "algorithm not available: " ++ name
  | providerNotAvailable name => "security provider not available: " ++ name
  | keyIncompatible reason => "key incompatible with algorithm: " ++ reason
  | invalidParameters reason => "invalid parameters: " ++ reason
  | badPadding reason => "bad padding or authentication failure: " ++ reason

inductive StoreError where
  | unavailable (reason : String)
  | wrongPassword (keyAlias : String)
  | corrupt (keyAlias reason : String)
  | invalidAlias (keyAlias : String)
  | inputOutput (reason : String)
  deriving DecidableEq, Repr

def StoreError.message : StoreError → String
  | unavailable reason => "key store unavailable: " ++ reason
  | wrongPassword keyAlias => "wrong password for key entry '" ++ keyAlias ++ "'"
  | corrupt keyAlias reason => "key entry '" ++ keyAlias ++ "' is corrupt: " ++ reason
  | invalidAlias keyAlias => "invalid key alias: " ++ Text.quoted keyAlias
  | inputOutput reason => "I/O error: " ++ reason

def StoreError.trace (e : StoreError) : List String :=
  match e with
  | inputOutput reason => [e.message, reason]
  | e => [e.message]

inductive KeyDecodeError where
  | wrongPassword
  | malformed (reason : String)
  deriving DecidableEq, Repr

def KeyDecodeError.message : KeyDecodeError → String
  | wrongPassword => "wrong password"
  | malformed reason => reason

inductive Cause where
  | primitive (error : PrimitiveError)
  | store (error : StoreError)
  | keyDecode (error : KeyDecodeError)
  deriving DecidableEq, Repr

def Cause.message : Cause → String
  | primitive e => e.message
  | store e => e.message
  | keyDecode e => e.message

def Cause.trace : Cause → List String
  | store e => e.trace
  | c => [c.message]

inductive ServiceError where
  /-- No key or certificate for the context. -/
  | keyResolution (reason : String)
  /-- The key store could not be read, or the key not opened. -/
  | keyStoreAccess (summary : String) (cause : Option Cause)
  /-- A primitive refused the input, the algorithm or the key. -/
  | cryptoOperation (summary : String) (cause : Option Cause)
  /-- The octets are no self-contained ciphertext or hybrid record. -/
  | malformedEnvelope (reason : String)
  /-- The capability is missing. -/
  | notSupported (reason : String)
  /-- The caller's input was refused before anything was computed. -/
  | validation (reason : String)
  deriving DecidableEq, Repr

namespace ServiceError

def message : ServiceError → String
  | keyResolution reason => "key resolution failed: " ++ reason
  | keyStoreAccess summary _ => "key store access failed: " ++ summary
  | cryptoOperation summary _ => summary
  | malformedEnvelope reason => "malformed self-contained ciphertext: " ++ reason
  | notSupported reason => reason
  | validation reason => "validation error: " ++ reason

def cause? : ServiceError → Option Cause
  | keyStoreAccess _ cause => cause
  | cryptoOperation _ cause => cause
  | _ => none

def isNotSupported : ServiceError → Bool
  | notSupported _ => true
  | _ => false

/-- The message and those of the causes, the outermost first. -/
def trace (e : ServiceError) : List String :=
  e.message :: (e.cause?.map Cause.trace).getD []

end ServiceError

end Strongbox
