/-
  Strongbox.Rsa.Pkcs1 — encryption and signatures with the older padding (RFC 8017, sections
  7.2 and 8.2).

  An encrypted message is preceded by 0, 2, at least eight nonzero octets and 0; a signed
  digest by 0, 1, octets of value 255, 0 and the encoded name of its algorithm.
  - `unpad_pad`: a padded message is read back.
-/

import Strongbox.Rsa.Key
import Strongbox.Digest.Algorithm

namespace Strongbox.Rsa.Pkcs1

/-- A random octet in a place where zero is not allowed. -/
def nonzero (b : UInt8) : UInt8 := if b = 0 then 1 else b

/-- The message on `size` octets; the filler is taken from `random`. -/
def pad (size : Nat) (random : Nat → UInt8) (message : Bytes) : Bytes :=
  let filler := (List.range (size - 3 - message.length)).map fun i => nonzero (random i)
  0 :: 2 :: filler ++ 0 :: message

def unpad (em : Bytes) : Except Error Bytes :=
  match em with
  | 0 :: 2 :: rest =>
    let filler := rest.takeWhile (· != 0)
    match rest.drop filler.length with
    | _ :: message => if filler.length < 8 then .error .decryption else .ok message
    | [] => .error .decryption
  | _ => .error .decryption

def encrypt (key : PublicKey) (random : Nat → UInt8) (message : Bytes) : Except Error Bytes := do
  key.check
  if message.length + 11 > key.size then .error .messageTooLong
  else .ok (Bytes.ofNat key.size (key.apply (pad key.size random message).toNat))

def decrypt (key : PrivateKey) (sealed : Bytes) : Except Error Bytes := do
  key.publicKey.check
  let m ← key.apply sealed.toNat
  if key.size < 11 then throw .decryption
  unpad (Bytes.ofNat key.size m)

/-- The encoded name of a digest algorithm and the header of its digest. -/
def digestHeader : Digest.Algorithm → Bytes
  | .sha1 => [0x30, 0x21, 0x30, 0x09, 0x06, 0x05, 0x2B, 0x0E, 0x03, 0x02, 0x1A, 0x05, 0x00, 0x04,
      0x14]
  | .sha256 => [0x30, 0x31, 0x30, 0x0D, 0x06, 0x09, 0x60, 0x86, 0x48, 0x01, 0x65, 0x03, 0x04, 0x02,
      0x01, 0x05, 0x00, 0x04, 0x20]
  | .sha384 => [0x30, 0x41, 0x30, 0x0D, 0x06, 0x09, 0x60, 0x86, 0x48, 0x01, 0x65, 0x03, 0x04, 0x02,
      0x02, 0x05, 0x00, 0x04, 0x30]
  | .sha512 => [0x30, 0x51, 0x30, 0x0D, 0x06, 0x09, 0x60, 0x86, 0x48, 0x01, 0x65, 0x03, 0x04, 0x02,
      0x03, 0x05, 0x00, 0x04, 0x40]

/-- What is signed, if the key has room for it. -/
def signedOctets? (size : Nat) (algorithm : Digest.Algorithm) (message : Bytes) : Option Bytes :=
  let named := digestHeader algorithm ++ algorithm.digest message
  if size < named.length + 11 then none
  else some (0 :: 1 :: List.replicate (size - named.length - 3) 0xFF ++ 0 :: named)

def sign (key : PrivateKey) (algorithm : Digest.Algorithm) (message : Bytes) :
    Except Error Bytes :=
  match signedOctets? key.size algorithm message with
  | none => .error .messageTooLong
  | some em => (key.apply em.toNat).map (Bytes.ofNat key.size)

def verify (key : PublicKey) (algorithm : Digest.Algorithm) (message signature : Bytes) : Bool :=
  match signedOctets? key.size algorithm message with
  | none => false
  | some em =>
    signature.length == key.size && decide (signature.toNat < key.modulus)
      && Bytes.ofNat key.size (key.apply signature.toNat) == em

theorem nonzero_ne_zero (b : UInt8) : nonzero b ≠ 0 := by
  unfold nonzero; split <;> simp_all

/-- A padded message is read back, when the key has room for it. -/
theorem unpad_pad {size : Nat} (random : Nat → UInt8) {message : Bytes}
    (h : message.length + 11 ≤ size) : unpad (pad size random message) = .ok message := by
  have hf : ∀ x ∈ (List.range (size - 3 - message.length)).map (fun i => nonzero (random i)),
      (x != 0) = true := by
    intro x hx
    obtain ⟨i, _, rfl⟩ := List.mem_map.mp hx
    simp [nonzero_ne_zero]
  have htake : ∀ f : Bytes, (∀ x ∈ f, (x != 0) = true) →
      (f ++ 0 :: message).takeWhile (· != 0) = f := by
    intro f hf
    rw [List.takeWhile_append_of_pos hf]; simp
  simp only [pad, unpad, List.cons_append]
  rw [htake _ hf, List.drop_left]
  simp; omega

end Strongbox.Rsa.Pkcs1
