/-
  Strongbox.Capability — the optional abilities of a service.
-/

import Strongbox.Json.Read
import Strongbox.Json.Write

namespace Strongbox

inductive Capability where
  | hybridEncryption
  | selfContainedCiphertext
  | providerSelection
  deriving DecidableEq, Repr

namespace Capability

def all : List Capability := [hybridEncryption, selfContainedCiphertext, providerSelection]

def name : Capability → String
  | hybridEncryption => "hybrid_encryption"
  | selfContainedCiphertext => "self_contained_ciphertext"
  | providerSelection => "provider_selection"

def shown : Capability → String
  | hybridEncryption => "HybridEncryption"
  | selfContainedCiphertext => "SelfContainedCiphertext"
  | providerSelection => "ProviderSelection"

def reader : Json.Scanner Capability := Json.Read.variant (all.map fun c => (c.name, c))

end Capability

structure Capabilities where
  hybridEncryption : Bool := false
  selfContainedCiphertext : Bool := false
  providerSelection : Bool := false
  deriving DecidableEq, Repr

namespace Capabilities

def none : Capabilities := {}

def insert (s : Capabilities) : Capability → Capabilities
  | .hybridEncryption => { s with hybridEncryption := true }
  | .selfContainedCiphertext => { s with selfContainedCiphertext := true }
  | .providerSelection => { s with providerSelection := true }

def supports (s : Capabilities) : Capability → Bool
  | .hybridEncryption => s.hybridEncryption
  | .selfContainedCiphertext => s.selfContainedCiphertext
  | .providerSelection => s.providerSelection

def toList (s : Capabilities) : List Capability := Capability.all.filter s.supports

def toJson (s : Capabilities) : Json.Value :=
  .object (Capability.all.map fun c => (c.name, .boolean (s.supports c)))

structure Draft where
  hybridEncryption : Option Bool
  selfContainedCiphertext : Option Bool
  providerSelection : Option Bool

open Json.Read in
def reader : Json.Scanner Capabilities :=
  record "struct Capabilities"
    [.of "hybrid_encryption" boolean Draft.hybridEncryption
        (fun d v => { d with hybridEncryption := some v }) false,
      .of "self_contained_ciphertext" boolean Draft.selfContainedCiphertext
        (fun d v => { d with selfContainedCiphertext := some v }) false,
      .of "provider_selection" boolean Draft.providerSelection
        (fun d v => { d with providerSelection := some v }) false]
    ⟨.none, .none, .none⟩
    fun d => do
      let h ← required "hybrid_encryption" d.hybridEncryption
      let s ← required "self_contained_ciphertext" d.selfContainedCiphertext
      let p ← required "provider_selection" d.providerSelection
      return ⟨h, s, p⟩

end Capabilities

end Strongbox
