/-
  Strongbox.Rsa.Oaep — encryption with optimal padding (RFC 8017, section 7.1), without a
  label.

  The mask is always generated with SHA-1, whatever digest marks the data block.
-/

import Strongbox.Rsa.Key
import Strongbox.Digest.Algorithm

namespace Strongbox.Rsa.Oaep

def maskOctets (seed : Bytes) (size : Nat) : Bytes :=
  let pieces := (List.range ((size + 19) / 20)).map fun i => Digest.sha1 (seed ++ Bytes.ofNat 4 i)
  pieces.flatten.take size

/-- The data block: the digest of the empty label, zeros, 1, the message. -/
def dataBlock (size : Nat) (digest : Digest.Algorithm) (message : Bytes) : Bytes :=
  digest.digest [] ++ List.replicate (size - message.length - 2 * digest.size - 2) 0 ++ 1 :: message

def pad (size : Nat) (digest : Digest.Algorithm) (seed message : Bytes) : Bytes :=
  let masked := Bytes.xor (dataBlock size digest message) (maskOctets seed (size - digest.size - 1))
  0 :: Bytes.xor seed (maskOctets masked digest.size) ++ masked

def unpad (digest : Digest.Algorithm) (em : Bytes) : Except Error Bytes :=
  match em with
  | 0 :: rest =>
    let masked := rest.drop digest.size
    let seed := Bytes.xor (rest.take digest.size) (maskOctets masked digest.size)
    let block := Bytes.xor masked (maskOctets seed masked.length)
    if block.take digest.size ≠ digest.digest [] then .error .decryption
    else
      match (block.drop digest.size).dropWhile (· == 0) with
      | 1 :: message => .ok message
      | _ => .error .decryption
  | _ => .error .decryption

def encrypt (key : PublicKey) (digest : Digest.Algorithm) (random : Nat → UInt8)
    (message : Bytes) : Except Error Bytes := do
  key.check
  if message.length + 2 * digest.size + 2 > key.size then .error .messageTooLong
  else
    let seed := (List.range digest.size).map random
    .ok (Bytes.ofNat key.size (key.apply (pad key.size digest seed message).toNat))

/-- A ciphertext longer than the modulus is refused, leading zeros or not. -/
def decrypt (key : PrivateKey) (digest : Digest.Algorithm) (sealed : Bytes) :
    Except Error Bytes := do
  key.publicKey.check
  if sealed.length > key.size ∨ key.size < 2 * digest.size + 2 then throw .decryption
  unpad digest (Bytes.ofNat key.size (← key.apply sealed.toNat))

end Strongbox.Rsa.Oaep
