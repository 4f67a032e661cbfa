/-
  Strongbox.Key.Secret — secret keys for AES, of 16 or 32 octets.
-/

import Strongbox.Error
import Strongbox.Random
import Strongbox.Text.Blank
import Strongbox.Text.Hex

namespace Strongbox

structure SecretKey where
  octets : Bytes
  deriving DecidableEq, Repr

namespace SecretKey

def bits (k : SecretKey) : Nat := 8 * k.octets.length

def make (b : Bytes) : Except KeyDecodeError SecretKey :=
  if b.length = 16 ∨ b.length = 32 then .ok ⟨b⟩
  else .error (.malformed s!"AES key must be 16 or 32 bytes, got {b.length}")

def ofHex (text : String) : Except KeyDecodeError SecretKey :=
  match Hex.decode (Text.trim text) with
  | .ok b => make b
  | .error e => .error (.malformed e.message)

def generate (random : Random) : SecretKey := ⟨random.octets 32⟩

def shown (k : SecretKey) : String := s!"SymmetricKey({k.bits} bits, [REDACTED])"

end SecretKey

end Strongbox
