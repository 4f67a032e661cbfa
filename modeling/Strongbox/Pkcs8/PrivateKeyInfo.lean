/-
  Strongbox.Pkcs8.PrivateKeyInfo — private keys as encoded structures (RFC 5958), and the RSA
  and Ed25519 keys inside them.

  The second version may carry the public key. Optional parts behind the key are passed over
  when their content is one element.
-/

import Strongbox.Der.Value
import Strongbox.Key.Public

namespace Strongbox.Pkcs8

open Der

structure PrivateKeyInfo where
  algorithm : AlgorithmIdentifier
  key : Bytes
  publicKey : Option BitString
  deriving DecidableEq, Repr

/-- Passes over context-specific elements that hold one element each; `fuel` bounds their
number. -/
def passAttributes : (fuel : Nat) → Parser Unit
  | 0 => failure
  | fuel + 1 => do
    if (← get).isEmpty then return
    let e ← element
    if (Tag.contextNumber? e.tag).isNone || !Tag.isConstructed e.tag then failure
    if (element.whole e.content).isNone then failure
    passAttributes fuel

def PrivateKeyInfo.parser : Parser PrivateKeyInfo := sequence do
  let version ← word 8
  if version > 1 then failure
  let algorithm ← algorithmIdentifier
  let key ← octetString
  let publicKey ← contextBitString? 1
  if publicKey.isSome != (version == 1) then failure
  passAttributes ((← get).length + 1)
  return ⟨algorithm, key, publicKey⟩

/-- The sequence of the numbers of an RSA key, from the version to the coefficient. -/
def rsaKeyParser : Parser Rsa.PrivateKey := sequence do
  let version ← natural
  if version ≠ 0 then failure
  let modulus ← natural
  let publicExponent ← natural
  let privateExponent ← natural
  let firstPrime ← natural
  let secondPrime ← natural
  discard natural
  discard natural
  discard natural
  return { publicKey := ⟨modulus, publicExponent⟩, exponent := privateExponent, firstPrime,
           secondPrime }

def rsaKey? (i : PrivateKeyInfo) : Option Rsa.PrivateKey := do
  guard (i.algorithm = ⟨rsaAlgorithm, some nullElement⟩)
  let k ← rsaKeyParser.whole i.key
  if k.isUsable then k else none

/-- The Ed25519 key of a structure; a public key beside it must be its own. -/
def ed25519Key? (i : PrivateKeyInfo) : Option Ed25519.PrivateKey := do
  guard (i.algorithm = ⟨ed25519Algorithm, none⟩)
  let k : Ed25519.PrivateKey := ⟨← octetString.whole i.key⟩
  guard (k.seed.length = 32)
  match i.publicKey with
  | none => k
  | some s => if s.octets? = some k.publicKey.octets then k else none

end Strongbox.Pkcs8
