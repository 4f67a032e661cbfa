/-
  Strongbox.Aes.Cbc — deciphering chained blocks.

  Each block is combined with the enciphered block before it. The last block ends with its
  padding: `n` octets of value `n`, where `n` is from 1 to 16.
-/

import Strongbox.Aes.Block

namespace Strongbox.Aes.Cbc

/-- The blocks deciphered in order, `before` standing ahead of the first. -/
def blocks (keys : List Block) (before : Block) : List Bytes → Bytes
  | [] => []
  | b :: bs =>
    let c := Block.ofBytes b
    ((decipher keys c).xor before).toBytes ++ blocks keys c bs

def unpad? (b : Bytes) : Option Bytes :=
  match b.getLast? with
  | none => none
  | some z =>
    let n := z.toNat
    if 1 ≤ n ∧ n ≤ 16 ∧ n ≤ b.length ∧ (b.drop (b.length - n)).all (· == z) then
      some (b.take (b.length - n))
    else none

/-- The octets that were enciphered, if whole blocks with a well-formed padding come out. -/
def decrypt? (key vector data : Bytes) : Option Bytes :=
  if data = [] ∨ data.length % 16 ≠ 0 then none
  else unpad? (blocks (roundKeys key) (Block.ofBytes vector) (Bytes.chunks 16 data))

end Strongbox.Aes.Cbc
