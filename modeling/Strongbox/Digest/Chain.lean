/-
  Strongbox.Digest.Chain — hashing a message block by block.

  The padded message is cut into blocks, and a compression function carries a state from one
  block to the next. The padding is one set bit, then zeros, then the length of the message
  in bits, so that the whole is a number of full blocks.
  - `length_pad`: a padded message is a number of full blocks.
-/

import Strongbox.Bytes

namespace Strongbox.Digest.Chain

def gap (block width length : Nat) : Nat := (2 * block - 1 - width - length % block) % block

/-- The message with its padding; the length stands on `width` octets. -/
def pad (block width : Nat) (m : Bytes) : Bytes :=
  m ++ 0x80 :: List.replicate (gap block width m.length) 0 ++ Bytes.ofNat width (8 * m.length)

@[specialize] def run (block width : Nat) (compress : S → Bytes → S) (start : S) (m : Bytes) : S :=
  (Bytes.chunks block (pad block width m)).foldl compress start

/-- A padded message is a number of full blocks. -/
theorem length_pad {block width : Nat} (m : Bytes) (h : width < block) :
    (pad block width m).length % block = 0 := by
  have hr := Nat.mod_lt m.length (Nat.zero_lt_of_lt h)
  have hd := Nat.div_add_mod m.length block
  simp only [pad, gap, List.length_append, List.length_cons, List.length_replicate,
    Bytes.length_ofNat]
  have hg : (2 * block - 1 - width - m.length % block) % block + m.length % block + width + 1
      = block ∨ (2 * block - 1 - width - m.length % block) % block + m.length % block + width + 1
      = 2 * block := by
    by_cases hs : m.length % block + width + 1 ≤ block
    · have := Nat.mod_eq_sub_mod (a := 2 * block - 1 - width - m.length % block) (b := block)
        (by omega)
      rw [this, Nat.mod_eq_of_lt (by omega)]
      omega
    · rw [Nat.mod_eq_of_lt (a := 2 * block - 1 - width - m.length % block) (by omega)]
      omega
  rcases hg with hg | hg
  · exact Nat.mod_eq_zero_of_dvd ⟨m.length / block + 1, by rw [Nat.mul_succ]; omega⟩
  · exact Nat.mod_eq_zero_of_dvd ⟨m.length / block + 2, by rw [Nat.mul_add]; omega⟩

end Strongbox.Digest.Chain
