/-
  Strongbox.Key.Public — public keys and their encoding as subject public key information.

  An RSA key is the sequence of modulus and exponent, and its algorithm has null parameters. An
  Ed25519 key is the octets of a point, and its algorithm has no parameters.
-/

import Strongbox.Der.Value
import Strongbox.Ed25519.Signature
import Strongbox.Rsa.Key
import Strongbox.Error

namespace Strongbox

open Der

structure PublicKeyInfo where
  algorithm : AlgorithmIdentifier
  key : BitString
  deriving DecidableEq, Repr

namespace PublicKeyInfo

def parser : Parser PublicKeyInfo := sequence do
  return ⟨← algorithmIdentifier, ← bitString⟩

def encode (i : PublicKeyInfo) : Bytes := wrap Tag.sequence (i.algorithm.encode ++ i.key.encode)

end PublicKeyInfo

def rsaAlgorithm : Oid := Oid.ofArcs [1, 2, 840, 113549, 1, 1, 1]
def ed25519Algorithm : Oid := Oid.ofArcs [1, 3, 101, 112]

inductive PublicKey where
  | rsa (key : Rsa.PublicKey)
  | ed25519 (key : Ed25519.PublicKey)
  deriving DecidableEq, Repr

namespace PublicKey

def algorithm : PublicKey → String
  | rsa _ => "RSA"
  | ed25519 _ => "Ed25519"

def rsaParser : Parser Rsa.PublicKey := sequence do
  return ⟨← natural, ← natural⟩

def rsaOfInfo? (i : PublicKeyInfo) : Option Rsa.PublicKey := do
  guard (i.algorithm = ⟨rsaAlgorithm, some nullElement⟩)
  let k ← rsaParser.whole (← i.key.octets?)
  if k.isUsable then k else none

def ed25519OfInfo? (i : PublicKeyInfo) : Option Ed25519.PublicKey := do
  guard (i.algorithm = ⟨ed25519Algorithm, none⟩)
  Ed25519.PublicKey.ofBytes? (← i.key.octets?)

def ofInfo (i : PublicKeyInfo) : Except KeyDecodeError PublicKey :=
  match rsaOfInfo? i, ed25519OfInfo? i with
  | some k, _ => .ok (rsa k)
  | none, some k => .ok (ed25519 k)
  | none, none => .error (.malformed "unsupported public key: neither RSA nor Ed25519")

def ofDer (b : Bytes) : Except KeyDecodeError PublicKey :=
  match PublicKeyInfo.parser.whole b with
  | some i => ofInfo i
  | none => .error (.malformed "unsupported public key: not subject public key information")

end PublicKey

end Strongbox
