/-
  Strongbox.Envelope — ciphertexts that say how they can be opened.

  An envelope is a JSON object with the ciphertext, the name of the transformation, and the
  thumbprint of the certificate it was made for together with its digest algorithm.
-/

import Strongbox.Hybrid.Record
import Strongbox.Thumbprint

namespace Strongbox

structure Envelope where
  ciphertext : Bytes
  transformation : String
  thumbprint : Thumbprint
  deriving DecidableEq, Repr

namespace Envelope

def toJson (e : Envelope) : Json.Value :=
  .object [("c", .string (Base64.encode e.ciphertext)), ("t", .string e.transformation),
    ("tp", .string e.thumbprint.value), ("tpd", .string e.thumbprint.digestAlgorithm.name)]

def encode (e : Envelope) : Bytes := Bytes.ofString e.toJson.compact

/-- The texts of an envelope before their meaning is checked. -/
structure Texts where
  ciphertext : String
  transformation : String
  thumbprint : String
  digestAlgorithm : String

structure Draft where
  ciphertext : Option String
  transformation : Option String
  thumbprint : Option String
  digestAlgorithm : Option String

open Json.Read in
def reader : Json.Scanner Texts :=
  record "struct EnvelopeRecord"
    [.of "c" string Draft.ciphertext (fun d v => { d with ciphertext := some v }) false,
      .of "t" string Draft.transformation (fun d v => { d with transformation := some v }) false,
      .of "tp" string Draft.thumbprint (fun d v => { d with thumbprint := some v }) false,
      .of "tpd" string Draft.digestAlgorithm
        (fun d v => { d with digestAlgorithm := some v }) false]
    ⟨none, none, none, none⟩
    fun d => do
      let c ← required "c" d.ciphertext
      let t ← required "t" d.transformation
      let tp ← required "tp" d.thumbprint
      let tpd ← required "tpd" d.digestAlgorithm
      return ⟨c, t, tp, tpd⟩

def malformed (r : Except ServiceError α) : Except ServiceError α :=
  r.mapError fun e => .malformedEnvelope e.message

/-- The envelope that some octets write: the text must be right first, then the ciphertext, the
digest algorithm and the thumbprint. -/
def decode (b : Bytes) : Except ServiceError Envelope := do
  let texts ← match Json.Read.whole reader b with
    | .ok t => .ok t
    | .error e => .error (.malformedEnvelope e.message)
  let ciphertext ← match Base64.decode texts.ciphertext with
    | .ok c => .ok c
    | .error e => .error (.malformedEnvelope e.message)
  let a ← malformed (Digest.Algorithm.parse texts.digestAlgorithm)
  let thumbprint ← malformed (Thumbprint.ofHex texts.thumbprint a)
  return { ciphertext, transformation := texts.transformation, thumbprint }

/-- Whether some octets are an envelope: they begin with a brace and can be decoded. -/
def isSelfContained (b : Bytes) : Bool := b.head? == some 0x7B && (decode b).isOk

end Envelope

end Strongbox
