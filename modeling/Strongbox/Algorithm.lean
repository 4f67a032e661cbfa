/-
  Strongbox.Algorithm — the algorithm a caller asks for, and how an operation is described.

  A specification is a name and the name of a security provider, which may be absent. A blank
  name means the default of the operation, a blank provider means no provider.
-/

import Strongbox.Transformation
import Strongbox.Json.Read
import Strongbox.Json.Write

namespace Strongbox

def Text.unlessBlank (s : String) : Option String := if Text.isBlank s then none else some s

structure AlgorithmSpec where
  algorithm : String := ""
  provider : Option String := none
  deriving DecidableEq, Repr

namespace AlgorithmSpec

def defaultAsymmetric : String := "RSA"
def defaultSymmetric : String := "AES/GCM/NoPadding"

def withProvider (s : AlgorithmSpec) (provider : String) : AlgorithmSpec :=
  { s with provider := Text.unlessBlank provider }

def isBlank (s : AlgorithmSpec) : Bool := Text.isBlank s.algorithm

def orDefault (s : AlgorithmSpec) (name : String) : AlgorithmSpec :=
  if s.isBlank then { s with algorithm := name } else s

def transformation (s : AlgorithmSpec) : Except PrimitiveError Transformation :=
  Transformation.parse s.algorithm

def signatureScheme (s : AlgorithmSpec) : Except PrimitiveError SignatureScheme :=
  SignatureScheme.parse s.algorithm

def providerLabel (s : AlgorithmSpec) : String := s.provider.getD ""

def shown (s : AlgorithmSpec) : String :=
  match s.provider with
  | some p => s.algorithm ++ " (" ++ p ++ ")"
  | none => s.algorithm

def toJson (s : AlgorithmSpec) : Json.Value :=
  .object (("algorithm", .string s.algorithm) :: Json.Value.whenSome "provider" .string s.provider)

structure Draft where
  algorithm : Option String
  provider : Option (Option String)

open Json.Read in
def reader : Json.Scanner AlgorithmSpec :=
  record "struct AlgorithmSpec"
    [.of "algorithm" string Draft.algorithm (fun d v => { d with algorithm := some v }) false,
      .of "provider" (optional string) Draft.provider
        (fun d v => { d with provider := some v }) true]
    ⟨none, none⟩
    fun d => do
      let algorithm ← required "algorithm" d.algorithm
      return ⟨algorithm, d.provider.join⟩

end AlgorithmSpec

/-- How an internal operation is to be done: with which algorithm, whether the ciphertext says
how to open it, and by which internal provider. -/
structure OperationDescriptor where
  spec : AlgorithmSpec := {}
  selfContained : Bool := false
  internalProvider : Option String := none
  deriving DecidableEq, Repr

namespace OperationDescriptor

def withSelfContained (d : OperationDescriptor) (on : Bool) : OperationDescriptor :=
  { d with selfContained := on }

def withInternalProvider (d : OperationDescriptor) (provider : String) : OperationDescriptor :=
  { d with internalProvider := Text.unlessBlank provider }

def toJson (d : OperationDescriptor) : Json.Value :=
  .object ([("spec", d.spec.toJson), ("self_contained", .boolean d.selfContained)]
    ++ Json.Value.whenSome "internal_provider" .string d.internalProvider)

structure Draft where
  spec : Option AlgorithmSpec
  selfContained : Option Bool
  internalProvider : Option (Option String)

open Json.Read in
def reader : Json.Scanner OperationDescriptor :=
  record "struct OperationDescriptor"
    [.of "spec" AlgorithmSpec.reader Draft.spec (fun d v => { d with spec := some v }) false,
      .of "self_contained" boolean Draft.selfContained
        (fun d v => { d with selfContained := some v }) true,
      .of "internal_provider" (optional string) Draft.internalProvider
        (fun d v => { d with internalProvider := some v }) true]
    ⟨none, none, none⟩
    fun d => do
      let spec ← required "spec" d.spec
      return ⟨spec, d.selfContained.getD false, d.internalProvider.join⟩

end OperationDescriptor

end Strongbox
