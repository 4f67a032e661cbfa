/-
  Strongbox.Config.File — settings from a YAML file.

  The settings are the entries of a mapping, or the items of a sequence in the order of their
  declaration. An unknown or repeated setting is refused. A scalar is a text whatever it looks
  like, except that an optional setting may be written as null.
-/

import Strongbox.Config.Basic
import Strongbox.Yaml.Node

namespace Strongbox.Config

open Yaml

def settings : List String :=
  ["keystore_dir", "key_alias", "key_password", "security_provider", "internal_provider",
    "symmetric_key_alias", "owner_aliases", "key_passwords", "hybrid_enabled"]

def nullTag : String := "tag:yaml.org,2002:null"

def booleanTag : String := "tag:yaml.org,2002:bool"

def isNullWord (s : String) : Bool := ["~", "null", "Null", "NULL"].contains s

def text? (d : Document) (n : Node) : Option String :=
  match d.target? n with
  | some (.scalar _ _ s) => some s
  | _ => none

/-- A text or null. Only a plain scalar can be null; one with a tag is null when the tag says so,
and then it must be written as null. -/
def optionalText? (d : Document) (n : Node) : Option (Option String) :=
  match d.target? n with
  | some (.scalar tag .plain s) =>
    match tag with
    | none => some (if s = "" ∨ isNullWord s then none else some s)
    | some t => if t = nullTag then (if isNullWord s then some none else none) else some (some s)
  | some (.scalar _ _ s) => some (some s)
  | _ => none

/-- A plain scalar, or a literal one with the tag of truth values. -/
def flag? (d : Document) (n : Node) : Option Bool :=
  match d.target? n with
  | some (.scalar tag style s) =>
    if style = .plain ∨ (style = .literal ∧ tag = some booleanTag) then
      if ["true", "True", "TRUE"].contains s then some true
      else if ["false", "False", "FALSE"].contains s then some false
      else none
    else none
  | _ => none

/-- A mapping of texts; of equal keys the last one counts. An empty scalar is an empty mapping. -/
def table? (d : Document) (n : Node) : Option (Table String) :=
  match d.target? n with
  | some (.mapping entries) => do
    return .ofList (← entries.mapM fun (k, v) => return (← text? d k, ← text? d v))
  | some (.scalar _ .plain "") => some .empty
  | _ => none

/-- The settings by their names. An empty scalar has none. -/
def entries? (d : Document) (n : Node) : Option (List (String × Node)) :=
  match n with
  | .mapping entries => entries.mapM fun (k, v) => return (← text? d k, v)
  | .sequence items => if items.length ≤ settings.length then some (settings.zip items) else none
  | .scalar _ .plain "" => some []
  | _ => none

def setting (entries : List (String × Node)) (name : String) (default : Option α)
    (read : Node → Option α) : Option α :=
  match entries.lookup name with
  | some n => read n
  | none => default

def ofDocument? (d : Document) : Option Config := do
  let entries ← entries? d d.root
  let names := entries.map (·.1)
  guard (names.all settings.contains && decide names.Nodup)
  return {
    keyStoreDirectory := ← setting entries "keystore_dir" none (text? d)
    keyAlias := ← setting entries "key_alias" none (text? d)
    keyPassword := ← setting entries "key_password" none (text? d)
    securityProvider := ← setting entries "security_provider" (some none) (optionalText? d)
    internalProvider :=
      ← setting entries "internal_provider" (some KeyStoreProvider.type) (text? d)
    symmetricKeyAlias := ← setting entries "symmetric_key_alias" (some none) (optionalText? d)
    ownerAliases := ← setting entries "owner_aliases" (some .empty) (table? d)
    keyPasswords := ← setting entries "key_passwords" (some .empty) (table? d)
    hybridEnabled := ← setting entries "hybrid_enabled" (some true) (flag? d) }

def ofFile (files : FileTree) (path : String) : Except ConfigError Config :=
  match files.readText path with
  | .error e => .error (.unreadable path e)
  | .ok text =>
    match (Document.ofText? text).bind ofDocument? with
    | some c => c.validate
    | none => .error (.malformed path "not a configuration")

end Strongbox.Config
