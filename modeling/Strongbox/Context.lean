/-
  Strongbox.Context — on whose behalf a key is used, and for what.
-/

import Strongbox.Text.Blank
import Strongbox.Error
import Strongbox.Json.Read
import Strongbox.Json.Write

namespace Strongbox

structure OwnerId where
  value : String
  deriving DecidableEq, Repr

namespace OwnerId

/-- A name without the blanks around it; a blank name is refused. -/
def make (name : String) : Except ServiceError OwnerId :=
  let trimmed := Text.trim name
  if trimmed = "" then .error (.validation "owner identifier must not be blank") else .ok ⟨trimmed⟩

def shown (o : OwnerId) : String := o.value

def toJson (o : OwnerId) : Json.Value := .string o.value

def reader : Json.Scanner OwnerId := do return ⟨← Json.Read.string⟩

end OwnerId

inductive KeyUsage where
  | signing
  | encryption
  deriving DecidableEq, Repr

namespace KeyUsage

def name : KeyUsage → String
  | signing => "signing"
  | encryption => "encryption"

def all : List KeyUsage := [signing, encryption]

def toJson (u : KeyUsage) : Json.Value := .string u.name

def reader : Json.Scanner KeyUsage := Json.Read.variant (all.map fun u => (u.name, u))

end KeyUsage

structure CryptoContext where
  owner : OwnerId
  usage : Option KeyUsage := none
  keyAlias : Option String := none
  deriving DecidableEq, Repr

namespace CryptoContext

def ofOwner (owner : OwnerId) : CryptoContext := { owner }

/-- The context of a known alias, which is its own owner. -/
def forAlias (keyAlias : String) : Except ServiceError CryptoContext := do
  let owner ← OwnerId.make keyAlias
  return { owner, keyAlias := some owner.value }

def withUsage (c : CryptoContext) (usage : KeyUsage) : CryptoContext :=
  { c with usage := some usage }

/-- The context with another alias, without the blanks around it; a blank one is no alias. -/
def withAlias (c : CryptoContext) (keyAlias : String) : CryptoContext :=
  let trimmed := Text.trim keyAlias
  { c with keyAlias := if trimmed = "" then none else some trimmed }

def shown (c : CryptoContext) : String :=
  let usage := match c.usage with
    | some u => " usage:" ++ u.name
    | none => ""
  let keyAlias := match c.keyAlias with
    | some a => " alias:" ++ a
    | none => ""
  "owner:" ++ c.owner.value ++ usage ++ keyAlias

def toJson (c : CryptoContext) : Json.Value :=
  .object [("owner", c.owner.toJson), ("usage", .orNull KeyUsage.toJson c.usage),
    ("alias", .orNull .string c.keyAlias)]

structure Draft where
  owner : Option OwnerId
  usage : Option (Option KeyUsage)
  keyAlias : Option (Option String)

open Json.Read in
def reader : Json.Scanner CryptoContext :=
  record "struct CryptoContext"
    [.of "owner" OwnerId.reader Draft.owner (fun d v => { d with owner := some v }) false,
      .of "usage" (optional KeyUsage.reader) Draft.usage
        (fun d v => { d with usage := some v }) false,
      .of "alias" (optional string) Draft.keyAlias (fun d v => { d with keyAlias := some v }) false]
    ⟨none, none, none⟩
    fun d => do
      let owner ← required "owner" d.owner
      return ⟨owner, d.usage.join, d.keyAlias.join⟩

end CryptoContext

end Strongbox
