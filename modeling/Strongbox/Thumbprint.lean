/-
  Strongbox.Thumbprint — digests that name certificates.

  A thumbprint is the upper-case hexadecimal digest of a certificate's encoding, together with
  the algorithm that made it.
-/

import Strongbox.Digest.Algorithm
import Strongbox.Text.Hex
import Strongbox.Error
import Strongbox.Json.Read
import Strongbox.Json.Write

namespace Strongbox

def Digest.Algorithm.parse (name : String) : Except ServiceError Digest.Algorithm :=
  match Digest.Algorithm.ofName? name with
  | some a => .ok a
  | none => .error (.validation ("unknown digest algorithm: " ++ Text.quoted name))

def Digest.Algorithm.reader : Json.Scanner Digest.Algorithm :=
  Json.Read.variant (Digest.Algorithm.all.map fun a => (a.name, a))

structure Thumbprint where
  value : String
  digestAlgorithm : Digest.Algorithm
  deriving DecidableEq, Repr

namespace Thumbprint

def compute (encoding : Bytes) (a : Digest.Algorithm) : Thumbprint :=
  ⟨Hex.encodeUpper (a.digest encoding), a⟩

def ofHex (text : String) (a : Digest.Algorithm) : Except ServiceError Thumbprint :=
  let trimmed := Text.trim text
  match Hex.decode trimmed with
  | .error e => .error (.validation e.message)
  | .ok b =>
    if b.length = a.size then .ok ⟨trimmed.toUpper, a⟩
    else .error (.validation s!"{a.name} thumbprint must be {a.size} bytes, got {b.length}")

def isOf (t : Thumbprint) (encoding : Bytes) : Bool := compute encoding t.digestAlgorithm == t

def shown (t : Thumbprint) : String := t.digestAlgorithm.name ++ ":" ++ t.value

def toJson (t : Thumbprint) : Json.Value :=
  .object [("value", .string t.value), ("digest_algorithm", .string t.digestAlgorithm.name)]

structure Draft where
  value : Option String
  digestAlgorithm : Option Digest.Algorithm

open Json.Read in
def reader : Json.Scanner Thumbprint :=
  record "struct Thumbprint"
    [.of "value" string Draft.value (fun d v => { d with value := some v }) false,
      .of "digest_algorithm" Digest.Algorithm.reader Draft.digestAlgorithm
        (fun d a => { d with digestAlgorithm := some a }) false]
    ⟨none, none⟩
    fun d => do
      let value ← required "value" d.value
      let a ← required "digest_algorithm" d.digestAlgorithm
      return ⟨value, a⟩

end Thumbprint

end Strongbox
