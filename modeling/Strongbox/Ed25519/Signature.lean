/-
  Strongbox.Ed25519.Signature — signatures on the curve (RFC 8032, section 5.1).

  A signature is a point and a number, both on 32 octets. The number must be below the order
  of the base point, and the point is compared as it is written.
-/

import Strongbox.Ed25519.Curve
import Strongbox.Digest.Sha2

namespace Strongbox.Ed25519

/-- A public key: the octets of a point of the curve. -/
structure PublicKey where
  octets : Bytes
  deriving DecidableEq, Repr

/-- A private key: the 32 octets that everything is derived from. -/
structure PrivateKey where
  seed : Bytes
  deriving DecidableEq, Repr

def PublicKey.ofBytes? (b : Bytes) : Option PublicKey := (Point.ofBytes? b).map fun _ => ⟨b⟩

def littleEndian (b : Bytes) : Nat := Bytes.toNat b.reverse

/-- The secret number of a key: three low bits and the top bit cleared, the next one set. -/
def PrivateKey.number (k : PrivateKey) : Nat :=
  let n := littleEndian ((Digest.sha512 k.seed).take 32)
  (1 <<< 254) + n % (1 <<< 254) / 8 * 8

def PrivateKey.publicKey (k : PrivateKey) : PublicKey := ⟨(Point.base.times k.number).toBytes⟩

def sign (k : PrivateKey) (message : Bytes) : Bytes :=
  let r := littleEndian (Digest.sha512 ((Digest.sha512 k.seed).drop 32 ++ message)) % groupOrder
  let point := (Point.base.times r).toBytes
  let c := littleEndian (Digest.sha512 (point ++ k.publicKey.octets ++ message)) % groupOrder
  point ++ (Bytes.ofNat 32 ((r + c * k.number) % groupOrder)).reverse

def verify (k : PublicKey) (message signature : Bytes) : Bool :=
  let point := signature.take 32
  let s := littleEndian (signature.drop 32)
  match Point.ofBytes? k.octets with
  | none => false
  | some a =>
    let c := littleEndian (Digest.sha512 (point ++ k.octets ++ message)) % groupOrder
    decide (s < groupOrder)
      && ((Point.base.times s).add (a.negate.times c)).toBytes == point

end Strongbox.Ed25519
