/-
  Strongbox.Password.Pbkdf2 — keys from passwords by repeated authentication codes (RFC 8018).
-/

import Strongbox.Digest.Hmac

namespace Strongbox.Password

/-- The exclusive or of `u` with the next `n` codes, each the code of the one before. -/
def pbkdf2Fold (code : Bytes → Bytes) : (n : Nat) → (u acc : Bytes) → Bytes
  | 0, _, acc => acc
  | n + 1, u, acc =>
    let v := code u
    pbkdf2Fold code n v (Bytes.xor acc v)

/-- The block number `i`, counted from one. -/
def pbkdf2Block (code : Bytes → Bytes) (salt : Bytes) (iterations i : Nat) : Bytes :=
  let u := code (salt ++ Bytes.ofNat 4 i)
  pbkdf2Fold code (iterations - 1) u u

def pbkdf2 (h : Digest.HashFunction) (password salt : Bytes) (iterations size : Nat) : Bytes :=
  let blocks := (List.range ((size + h.size - 1) / h.size)).map fun i =>
    pbkdf2Block (Digest.hmac h password) salt iterations (i + 1)
  blocks.flatten.take size

end Strongbox.Password
