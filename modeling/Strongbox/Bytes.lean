/-
  Strongbox.Bytes — byte strings and their reading as big-endian numbers.

  A byte string is a list of octets, so that every codec of the library is a recursion on
  lists. Numbers go to and from octets most significant first.
  - `toNat_ofNat`: a number written on enough octets reads back.
  - `length_ofNat`: a written number has the width it was asked for.
  - `xor_xor`: combining twice with the same octets changes nothing.
-/

namespace Strongbox

abbrev Bytes := List UInt8

namespace Bytes

def ofString (s : String) : Bytes := s.toUTF8.data.toList

/-- The text whose UTF-8 octets these are, if they are well formed. -/
def toString? (b : Bytes) : Option String := String.fromUTF8? ⟨b.toArray⟩

/-- The number that the octets write, most significant octet first. -/
def toNat (b : Bytes) : Nat := b.foldl (fun n x => n * 256 + x.toNat) 0

/-- `n` on exactly `width` octets, most significant first; higher octets are dropped. -/
def ofNat : (width : Nat) → (n : Nat) → Bytes
  | 0, _ => []
  | w + 1, n => UInt8.ofNat (n >>> (8 * w)) :: ofNat w n

def capacity : (width : Nat) → Nat
  | 0 => 1
  | w + 1 => 256 * capacity w

/-- How many octets the least writing of `n` takes; zero takes none. -/
def widthOf (n : Nat) : Nat := if n = 0 then 0 else n.log2 / 8 + 1

def ofNatMinimal (n : Nat) : Bytes := ofNat (widthOf n) n

/-- Octet by octet exclusive or, as long as the shorter of the two. -/
def xor (a b : Bytes) : Bytes := List.zipWith (· ^^^ ·) a b

/-- Pieces of `n` octets, the last one possibly shorter. -/
def chunks (n : Nat) : Bytes → List Bytes
  | [] => []
  | x :: b => if n = 0 then [] else (x :: b).take n :: chunks n (b.drop (n - 1))
termination_by b => b.length
decreasing_by simp only [List.length_drop, List.length_cons]; omega

theorem xor_xor (a b : Bytes) (h : a.length ≤ b.length) : xor (xor a b) b = a := by
  induction a generalizing b with
  | nil => rfl
  | cons x a ih =>
    cases b with
    | nil => simp at h
    | cons y b =>
      have hb : a.length ≤ b.length := Nat.le_of_succ_le_succ h
      have hxy : (x ^^^ y) ^^^ y = x := by rw [UInt8.xor_assoc, UInt8.xor_self, UInt8.xor_zero]
      simp only [xor, List.zipWith_cons_cons, hxy, List.cons.injEq, true_and]
      exact ih b hb

@[simp] theorem length_ofNat (w n : Nat) : (ofNat w n).length = w := by
  induction w with
  | zero => rfl
  | succ w ih => simp [ofNat, ih]

theorem shiftRight_eq_div_capacity (n w : Nat) : n >>> (8 * w) = n / capacity w := by
  induction w generalizing n with
  | zero => simp [capacity]
  | succ w ih =>
    have h8 (m : Nat) : m >>> 8 = m / 256 := Nat.shiftRight_eq_div_pow m 8
    rw [Nat.mul_succ, Nat.shiftRight_add, ih, h8, capacity, Nat.mul_comm 256, Nat.div_div_eq_div_mul]

theorem foldl_ofNat (w n acc : Nat) :
    (ofNat w n).foldl (fun n x => n * 256 + x.toNat) acc =
      acc * capacity w + n % capacity w := by
  induction w generalizing acc with
  | zero => simp [ofNat, capacity, Nat.mod_one]
  | succ w ih =>
    have h (m : Nat) : (UInt8.ofNat m).toNat = m % 256 := UInt8.toNat_ofNat'
    have hc : capacity (w + 1) = capacity w * 256 := Nat.mul_comm ..
    rw [ofNat, List.foldl_cons, ih, shiftRight_eq_div_capacity, h, hc, Nat.mod_mul, Nat.add_mul,
      Nat.mul_assoc, Nat.mul_comm 256, Nat.mul_comm (n / capacity w % 256)]
    omega

theorem toNat_ofNat {w n : Nat} (h : n < capacity w) : toNat (ofNat w n) = n := by
  rw [toNat, foldl_ofNat, Nat.zero_mul, Nat.zero_add, Nat.mod_eq_of_lt h]

theorem lt_capacity_widthOf (n : Nat) : n < capacity (widthOf n) := by
  have hc (w : Nat) : capacity w = 2 ^ (8 * w) := by
    induction w with
    | zero => rfl
    | succ w ih => rw [capacity, ih, Nat.mul_succ, Nat.pow_add, Nat.mul_comm]
  unfold widthOf
  split
  · next h => rw [h, hc]; exact Nat.one_pos
  · rw [hc]
    exact Nat.lt_of_lt_of_le Nat.lt_log2_self (Nat.pow_le_pow_right (by omega) (by omega))

end Bytes

end Strongbox
