/-
  Strongbox.Resolution — the outcome of looking for a key.
-/

import Strongbox.Error

namespace Strongbox

inductive NotFoundReason where
  | missingAlias
  | noPrivateKey
  | noCertificate
  | noSecretKey
  deriving DecidableEq, Repr

namespace NotFoundReason

def message : NotFoundReason → String
  | missingAlias => "no entry"
  | noPrivateKey => "no usable private key"
  | noCertificate => "no certificate"
  | noSecretKey => "no secret key"

end NotFoundReason

/-- A value, or why there is none under an alias: nothing is there, or it cannot be opened. -/
inductive Resolution (α : Type) where
  | found (value : α)
  | notFound (keyAlias : String) (reason : NotFoundReason)
  | accessDenied (keyAlias : String) (reason : String)
  deriving DecidableEq, Repr

namespace Resolution

def isFound : Resolution α → Bool
  | found _ => true
  | _ => false

def map (f : α → β) : Resolution α → Resolution β
  | found a => found (f a)
  | notFound a r => notFound a r
  | accessDenied a r => accessDenied a r

def require (what : String) : Resolution α → Except ServiceError α
  | found a => .ok a
  | notFound a r =>
    .error (.keyResolution ("cannot resolve " ++ what ++ " for '" ++ a ++ "': " ++ r.message))
  | accessDenied a r =>
    .error (.keyStoreAccess ("access to " ++ what ++ " for '" ++ a ++ "' denied: " ++ r) none)

end Resolution

end Strongbox
