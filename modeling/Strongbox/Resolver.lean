/-
  Strongbox.Resolver — which key of a store belongs to a context.

  The alias is the one the context names, else the one its owner is mapped to, else the default.
  An alias that a store cannot hold is one without an entry, and a private key that its
  password does not open is denied; any other failure of the store is an error.
-/

import Strongbox.Context
import Strongbox.KeyStore.Basic
import Strongbox.Resolution
import Strongbox.Table

namespace Strongbox

structure Resolver where
  store : KeyStore
  defaultAlias : String
  ownerAliases : Table String := .empty
  defaultPassword : String
  keyPasswords : Table String := .empty

structure CertificateEntry where
  keyAlias : String
  certificate : Certificate
  deriving DecidableEq, Repr

namespace Resolver

def withOwnerAlias (r : Resolver) (owner keyAlias : String) : Resolver :=
  { r with ownerAliases := r.ownerAliases.insert owner keyAlias }

def aliasFor (r : Resolver) (c : CryptoContext) : String :=
  c.keyAlias.getD ((r.ownerAliases.get? c.owner.value).getD r.defaultAlias)

def passwordFor (r : Resolver) (a : String) : Bytes :=
  Bytes.ofString ((r.keyPasswords.get? a).getD r.defaultPassword)

def storeError (r : Resolver) (a what : String) (e : StoreError) : ServiceError :=
  .keyStoreAccess ("failed to read " ++ what ++ " '" ++ a ++ "' from " ++ r.store.name)
    (some (.store e))

def lookupFailed (r : Resolver) (a what : String) (e : StoreError) :
    Except ServiceError (Resolution α) :=
  match e with
  | .invalidAlias _ => .ok (.notFound a .missingAlias)
  | e => .error (r.storeError a what e)

/-- Nothing of a kind under an alias, which may hold something else. -/
def missing (r : Resolver) (a : String) (reason : NotFoundReason) :
    Except ServiceError (Resolution α) :=
  match r.store.contains a with
  | .ok true => .ok (.notFound a reason)
  | .ok false => .ok (.notFound a .missingAlias)
  | .error e => r.lookupFailed a "entry" e

def ofLookup (r : Resolver) (a what : String) (reason : NotFoundReason) :
    Except StoreError (Option α) → Except ServiceError (Resolution α)
  | .ok (some v) => .ok (.found v)
  | .ok none => r.missing a reason
  | .error e => r.lookupFailed a what e

def certificate (r : Resolver) (c : CryptoContext) :
    Except ServiceError (Resolution Certificate) :=
  let a := r.aliasFor c
  r.ofLookup a "certificate" .noCertificate (r.store.certificate a)

def privateKey (r : Resolver) (c : CryptoContext) : Except ServiceError (Resolution PrivateKey) :=
  let a := r.aliasFor c
  match r.store.privateKey a (r.passwordFor a) with
  | .error (.wrongPassword w) => .ok (.accessDenied a (StoreError.wrongPassword w).message)
  | answer => r.ofLookup a "private key" .noPrivateKey answer

def secretKey (r : Resolver) (c : CryptoContext) : Except ServiceError (Resolution SecretKey) :=
  let a := r.aliasFor c
  r.ofLookup a "secret key" .noSecretKey (r.store.secretKey a)

/-- The entry under an alias, if its certificate can be read and has the thumbprint. -/
def matchAt? (r : Resolver) (t : Thumbprint) (a : String) : Option CertificateEntry :=
  match r.store.certificate a with
  | .ok (some c) => if t.isOf c.encoding then some ⟨a, c⟩ else none
  | _ => none

/-- The first entry whose certificate has the thumbprint. -/
def byThumbprint (r : Resolver) (t : Thumbprint) :
    Except ServiceError (Resolution CertificateEntry) :=
  match r.store.aliases with
  | .error e => .error (r.storeError "*" "aliases" e)
  | .ok aliases =>
    match aliases.findSome? (r.matchAt? t) with
    | some entry => .ok (.found entry)
    | none => .ok (.notFound t.shown .noCertificate)

def shown (r : Resolver) : String :=
  Text.shownStructure "KeyStoreResolver"
    [("store", Text.quoted r.store.name), ("default_alias", Text.quoted r.defaultAlias),
      ("owner_aliases", Text.shownMap r.ownerAliases.entries),
      ("default_password", Text.quoted "[REDACTED]"),
      ("key_passwords", Text.shownList Text.quoted r.keyPasswords.keys)]

end Resolver

end Strongbox
