/-
  Strongbox.Hybrid.Record — what goes into and comes out of hybrid encryption, and their JSON.

  Octets are written as base64. An absent associated text is left out, an empty one is written.
-/

import Strongbox.Text.Base64
import Strongbox.Error
import Strongbox.Json.Read
import Strongbox.Json.Write

namespace Strongbox.Hybrid

def octetsReader : Json.Scanner Bytes := do
  match Base64.decode (← Json.Read.string) with
  | .ok b => return b
  | .error e => throw (.custom e.message)

def octetsValue (b : Bytes) : Json.Value := .string (Base64.encode b)

structure Input where
  cleartext : Bytes
  associatedData : Option Bytes := none
  deriving DecidableEq, Repr

namespace Input

structure Draft where
  cleartext : Option (Option Bytes)
  associatedData : Option (Option Bytes)

open Json.Read in
/-- Both members may be absent or null. -/
def reader : Json.Scanner (Option Bytes × Option Bytes) :=
  record "struct RawHybridInput"
    [.of "cleartext" (optional octetsReader) Draft.cleartext
        (fun d v => { d with cleartext := some v }) true,
      .of "associated_data" (optional octetsReader) Draft.associatedData
        (fun d v => { d with associatedData := some v }) true]
    ⟨none, none⟩
    fun d => return (d.cleartext.join, d.associatedData.join)

/-- The input that a JSON text writes; the cleartext must be there. -/
def ofJson (text : String) : Except ServiceError Input :=
  match Json.Read.whole reader (Bytes.ofString text) with
  | .error e => .error (.validation ("hybrid input: " ++ e.message))
  | .ok (none, _) => .error (.validation "Plaintext can't be null.")
  | .ok (some cleartext, associatedData) => .ok { cleartext, associatedData }

def toJson (i : Input) : Json.Value :=
  .object (("cleartext", octetsValue i.cleartext)
    :: Json.Value.whenSome "associated_data" octetsValue i.associatedData)

/-- The sizes only, since the text is secret. -/
def shown (i : Input) : String :=
  Text.shownStructure "HybridEncryptionInput"
    [("cleartext", s!"[{i.cleartext.length} bytes]"),
      ("associated_data", Text.shownOption (fun b => toString b.length) i.associatedData)]

end Input

/-- An encrypted text with its data key, which is encrypted for the receiver, and the names of
both algorithms. -/
structure Output where
  wrappedKey : Bytes
  ciphertext : Bytes
  nonce : Bytes
  associatedData : Option Bytes := none
  symmetricAlgorithm : String
  asymmetricAlgorithm : String
  deriving DecidableEq, Repr

namespace Output

def toValue (o : Output) : Json.Value :=
  .object ([("wrapped_key", octetsValue o.wrappedKey), ("ciphertext", octetsValue o.ciphertext),
      ("nonce", octetsValue o.nonce)]
    ++ Json.Value.whenSome "associated_data" octetsValue o.associatedData
    ++ [("symmetric_algorithm", .string o.symmetricAlgorithm),
      ("asymmetric_algorithm", .string o.asymmetricAlgorithm)])

def toJson (o : Output) : String := o.toValue.compact

structure Draft where
  wrappedKey : Option Bytes
  ciphertext : Option Bytes
  nonce : Option Bytes
  associatedData : Option (Option Bytes)
  symmetricAlgorithm : Option String
  asymmetricAlgorithm : Option String

open Json.Read in
def reader : Json.Scanner Output :=
  record "struct HybridEncryptionOutput"
    [.of "wrapped_key" octetsReader Draft.wrappedKey
        (fun d v => { d with wrappedKey := some v }) false,
      .of "ciphertext" octetsReader Draft.ciphertext
        (fun d v => { d with ciphertext := some v }) false,
      .of "nonce" octetsReader Draft.nonce (fun d v => { d with nonce := some v }) false,
      .of "associated_data" (optional octetsReader) Draft.associatedData
        (fun d v => { d with associatedData := some v }) true,
      .of "symmetric_algorithm" string Draft.symmetricAlgorithm
        (fun d v => { d with symmetricAlgorithm := some v }) false,
      .of "asymmetric_algorithm" string Draft.asymmetricAlgorithm
        (fun d v => { d with asymmetricAlgorithm := some v }) false]
    ⟨none, none, none, none, none, none⟩
    fun d => do
      let wrappedKey ← required "wrapped_key" d.wrappedKey
      let ciphertext ← required "ciphertext" d.ciphertext
      let nonce ← required "nonce" d.nonce
      let symmetricAlgorithm ← required "symmetric_algorithm" d.symmetricAlgorithm
      let asymmetricAlgorithm ← required "asymmetric_algorithm" d.asymmetricAlgorithm
      return { wrappedKey, ciphertext, nonce, associatedData := d.associatedData.join,
               symmetricAlgorithm, asymmetricAlgorithm }

def ofJson (text : String) : Except ServiceError Output :=
  match Json.Read.whole reader (Bytes.ofString text) with
  | .ok o => .ok o
  | .error e => .error (.malformedEnvelope ("hybrid output: " ++ e.message))

end Output

end Strongbox.Hybrid
