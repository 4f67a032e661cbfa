/-
  Strongbox.Config.Basic — the settings of a service, and the service they describe.

  The directory, the alias and its password must be given; the rest has defaults. Diagnostics
  show neither the password nor the passwords of single aliases.
-/

import Strongbox.KeyStore.Directory
import Strongbox.Service

namespace Strongbox

structure Config where
  keyStoreDirectory : String
  /-- The default alias, whose key also encrypts internal data. -/
  keyAlias : String
  keyPassword : String
  /-- The security provider of requests that name none. -/
  securityProvider : Option String := none
  internalProvider : String := KeyStoreProvider.type
  symmetricKeyAlias : Option String := none
  ownerAliases : Table String := .empty
  keyPasswords : Table String := .empty
  hybridEnabled : Bool := true

inductive ConfigError where
  | missing (name : String)
  | invalid (field reason : String)
  | unreadable (path : String) (error : FileError)
  | malformed (path reason : String)
  | keyStore (error : StoreError)
  | service (error : ServiceError)

namespace ConfigError

def message : ConfigError → String
  | missing name => name ++ " environment variable is required"
  | invalid field reason => "invalid value for " ++ field ++ ": " ++ reason
  | unreadable path e => "cannot read " ++ path ++ ": " ++ e.message
  | malformed path reason => "invalid YAML configuration: " ++ path ++ ": " ++ reason
  | keyStore e => "key store: " ++ e.message
  | service e => "crypto service: " ++ e.message

def trace (e : ConfigError) : List String :=
  match e with
  | unreadable _ cause => [e.message, cause.message]
  | keyStore cause => e.message :: cause.trace
  | service cause => e.message :: cause.trace
  | e => [e.message]

end ConfigError

namespace Config

def validate (c : Config) : Except ConfigError Config :=
  if Text.isBlank c.keyAlias then .error (.invalid "key_alias" "must not be blank")
  else if Text.isBlank c.internalProvider then
    .error (.invalid "internal_provider" "must not be blank")
  else .ok c

/-- The algorithm of a request. The configured provider stands in for one that is not named. -/
def algorithm (c : Config) (name : String) (provider : Option String) : AlgorithmSpec :=
  let spec : AlgorithmSpec := { algorithm := name }
  match provider.or c.securityProvider with
  | some p => spec.withProvider p
  | none => spec

def resolverOver (c : Config) (store : KeyStore) : Resolver where
  store := store
  defaultAlias := c.keyAlias
  ownerAliases := c.ownerAliases
  defaultPassword := c.keyPassword
  keyPasswords := c.keyPasswords

/-- The provider of the secret key, if its alias is set. -/
def symmetricProvider (c : Config) (r : Resolver) :
    Except ServiceError (Option InternalProvider) :=
  match c.symmetricKeyAlias with
  | none => .ok none
  | some a => (InternalKey.ofAlias r a).map fun k => some (SymmetricProvider.view k)

def serviceOver (c : Config) (store : KeyStore) : Except ServiceError Service := do
  let resolver := c.resolverOver store
  let key ← InternalKey.ofAlias resolver c.keyAlias
  let symmetric ← c.symmetricProvider resolver
  let builder : ServiceBuilder :=
    { resolver, defaultProvider := c.internalProvider, hybrid := c.hybridEnabled }
  let providers := KeyStoreProvider.view key :: symmetric.toList
  (providers.foldl ServiceBuilder.withProvider builder).build

def store (c : Config) (files : FileTree) : Except ConfigError KeyStore :=
  match DirectoryStore.ofRoot files c.keyStoreDirectory with
  | .ok s => .ok (s.view files)
  | .error e => .error (.keyStore e)

def resolver (c : Config) (files : FileTree) : Except ConfigError Resolver :=
  (c.store files).map c.resolverOver

def service (c : Config) (files : FileTree) : Except ConfigError Service := do
  match c.serviceOver (← c.store files) with
  | .ok s => return s
  | .error e => throw (.service e)

/-- The settings without the passwords. -/
def shown (c : Config) : String :=
  Text.shownStructure "CryptoServiceConfig"
    [("keystore_dir", Text.quotedPath c.keyStoreDirectory), ("key_alias", Text.quoted c.keyAlias),
      ("key_password", Text.quoted "[REDACTED]"),
      ("security_provider", Text.shownOption Text.quoted c.securityProvider),
      ("internal_provider", Text.quoted c.internalProvider),
      ("symmetric_key_alias", Text.shownOption Text.quoted c.symmetricKeyAlias),
      ("owner_aliases", Text.shownMap c.ownerAliases.entries),
      ("key_passwords", Text.shownList Text.quoted c.keyPasswords.keys),
      ("hybrid_enabled", toString c.hybridEnabled)]

end Config

end Strongbox
