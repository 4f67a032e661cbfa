/-
  Strongbox.Config.Environment — settings from variables.

  A variable with a blank value counts as absent. A variable that holds several pairs
  separates them by commas and each key from its value by the first equals sign; blanks around
  all of them do not count, empty items are skipped, and of equal keys the last one counts.
-/

import Strongbox.Config.Basic

namespace Strongbox.Config

def variableNames : List String :=
  ["CSP_KEYSTORE_DIR", "CSP_KEY_ALIAS", "CSP_KEY_PASSWORD", "CSP_SECURITY_PROVIDER",
    "CSP_INTERNAL_PROVIDER", "CSP_SYMMETRIC_KEY_ALIAS", "CSP_OWNER_ALIASES", "CSP_KEY_PASSWORDS",
    "CSP_HYBRID_ENABLED"]

def pair (name item : String) : Except ConfigError (String × String) :=
  match Text.splitAtChar? '=' item with
  | none => .error (.invalid name ("expected key=value, got " ++ Text.quoted item))
  | some (k, v) =>
    let (k, v) := (Text.trim k, Text.trim v)
    if k = "" ∨ v = "" then .error (.invalid name "empty key or value") else .ok (k, v)

def pairs (name value : String) : Except ConfigError (Table String) := do
  let items := ((Text.splitOnChar ',' value).map Text.trim).filter (· != "")
  return .ofList (← items.mapM (pair name))

/-- The words for yes and no; the case of letters and blanks around do not count. -/
def boolean (name value : String) : Except ConfigError Bool :=
  let word := (Text.trim value).toLower
  if ["1", "true", "yes", "on"].contains word then .ok true
  else if ["0", "false", "no", "off"].contains word then .ok false
  else .error (.invalid name ("expected a boolean, got " ++ Text.quoted word))

/-- The value of a variable, if it is not blank. -/
def value? (lookup : String → Option String) (name : String) : Option String :=
  (lookup name).filter fun v => !Text.isBlank v

def required (lookup : String → Option String) (name : String) : Except ConfigError String :=
  match value? lookup name with
  | some v => .ok v
  | none => .error (.missing name)

def optional (lookup : String → Option String) (name : String) (default : α)
    (read : String → String → Except ConfigError α) : Except ConfigError α :=
  match value? lookup name with
  | some v => read name v
  | none => .ok default

def ofLookup (lookup : String → Option String) : Except ConfigError Config := do
  let keyStoreDirectory ← required lookup "CSP_KEYSTORE_DIR"
  let keyAlias ← required lookup "CSP_KEY_ALIAS"
  let keyPassword ← required lookup "CSP_KEY_PASSWORD"
  let ownerAliases ← optional lookup "CSP_OWNER_ALIASES" .empty pairs
  let keyPasswords ← optional lookup "CSP_KEY_PASSWORDS" .empty pairs
  let hybridEnabled ← optional lookup "CSP_HYBRID_ENABLED" true boolean
  validate
    { keyStoreDirectory, keyAlias, keyPassword,
      securityProvider := value? lookup "CSP_SECURITY_PROVIDER",
      internalProvider := (value? lookup "CSP_INTERNAL_PROVIDER").getD KeyStoreProvider.type,
      symmetricKeyAlias := value? lookup "CSP_SYMMETRIC_KEY_ALIAS",
      ownerAliases, keyPasswords, hybridEnabled }

end Strongbox.Config
