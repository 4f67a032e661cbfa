/-
  Strongbox.Digest.Hmac — message authentication from a hash function (RFC 2104).
-/

import Strongbox.Digest.Sha1
import Strongbox.Digest.Sha2

namespace Strongbox.Digest

structure HashFunction where
  block : Nat
  size : Nat
  run : Bytes → Bytes

def HashFunction.sha224 : HashFunction := ⟨64, 28, Digest.sha224⟩
def HashFunction.sha256 : HashFunction := ⟨64, 32, Digest.sha256⟩
def HashFunction.sha384 : HashFunction := ⟨128, 48, Digest.sha384⟩
def HashFunction.sha512 : HashFunction := ⟨128, 64, Digest.sha512⟩

/-- The key on exactly one block: a long key is hashed first, then zeros fill the block. -/
def hmacKey (h : HashFunction) (key : Bytes) : Bytes :=
  let k := if key.length > h.block then h.run key else key
  k ++ List.replicate (h.block - k.length) 0

def hmac (h : HashFunction) (key message : Bytes) : Bytes :=
  let k := hmacKey h key
  h.run (k.map (· ^^^ 0x5C) ++ h.run (k.map (· ^^^ 0x36) ++ message))

end Strongbox.Digest
