/-
  Strongbox.Proofs.Ed25519.Field — the numbers of the curve as elements of a field.

  The order of the field is prime, so residues can be divided. It leaves 5 modulo 8, which is why
  a square root is one of two powers.
  - `fieldOrder_prime`: the order is prime.
  - `sq_of_squareRoot?`, `exists_squareRoot?`: a root is found exactly of a square.
-/

import Strongbox.Ed25519.Curve
import Strongbox.Proofs.Number.Prime
import Mathlib.FieldTheory.Finite.Basic
import Mathlib.Tactic.LinearCombination
import Mathlib.Tactic.NormNum.Prime

namespace Strongbox.Ed25519

/-- The order of the field is prime, by a chain of factors. -/
theorem fieldOrder_prime : fieldOrder.Prime := by
  have h₁ : Nat.Prime 2773320623 :=
    Number.prime_of_factors 5 [2, 2437, 569003] (by norm_num) (by decide +kernel)
  have h₂ : Nat.Prime 72106336199 :=
    Number.prime_of_factors 7 [2, 13, 2773320623]
      (by simp only [List.forall_mem_cons, h₁, true_and]; norm_num) (by decide +kernel)
  have h₃ : Nat.Prime 1919519569386763 :=
    Number.prime_of_factors 2 [2, 3, 7, 19, 47, 47, 127, 8574133] (by norm_num)
      (by decide +kernel)
  have h₄ : Nat.Prime 75445702479781427272750846543864801 :=
    Number.prime_of_factors 7 [2, 2, 2, 2, 2, 3, 3, 5, 5, 75707, 72106336199, 1919519569386763]
      (by simp only [List.forall_mem_cons, h₂, h₃, true_and]; norm_num) (by decide +kernel)
  have h₅ : Nat.Prime 31757755568855353 :=
    Number.prime_of_factors 10 [2, 2, 2, 3, 31, 107, 223, 4153, 430751] (by norm_num)
      (by decide +kernel)
  have h₆ : Nat.Prime 74058212732561358302231226437062788676166966415465897661863160754340907 :=
    Number.prime_of_factors 2 [2, 3, 353, 57467, 132049, 1923133, 31757755568855353,
      75445702479781427272750846543864801]
      (by simp only [List.forall_mem_cons, h₄, h₅, true_and]; norm_num) (by decide +kernel)
  exact Number.prime_of_factors 2 [2, 2, 3, 65147,
      74058212732561358302231226437062788676166966415465897661863160754340907]
    (by simp only [List.forall_mem_cons, h₆, true_and]; norm_num) (by decide +kernel)

instance : Fact fieldOrder.Prime := ⟨fieldOrder_prime⟩

abbrev Residue := ZMod fieldOrder

/-! ## Residues as elements -/

section

variable (a b : Nat)

theorem cast_mod : ((a % fieldOrder : Nat) : Residue) = a := ZMod.natCast_mod a fieldOrder

@[simp] theorem cast_mul : ((mul a b : Nat) : Residue) = a * b := by
  rw [mul, cast_mod, Nat.cast_mul]

@[simp] theorem cast_neg : ((neg a : Nat) : Residue) = -a := by
  have h : a % fieldOrder ≤ fieldOrder := (Nat.mod_lt a fieldOrder_prime.pos).le
  rw [neg, cast_mod, Nat.cast_sub h, ZMod.natCast_self, cast_mod, zero_sub]

@[simp] theorem cast_sub : ((sub a b : Nat) : Residue) = a - b := by
  rw [sub, cast_mod, Nat.cast_add, cast_neg, sub_eq_add_neg]

/-- The power by which residues are divided inverts, and gives zero for zero. -/
@[simp] theorem cast_inverse : ((inverse a : Nat) : Residue) = (a : Residue)⁻¹ := by
  rw [inverse, Number.cast_powMod]
  by_cases ha : (a : Residue) = 0
  · rw [ha, inv_zero, zero_pow (by decide)]
  · refine eq_inv_of_mul_eq_one_left ?_
    rw [← pow_succ]
    exact ZMod.pow_card_sub_one_eq_one ha

theorem mul_self_eq_iff : mul a a = b % fieldOrder ↔ (a : Residue) ^ 2 = b := by
  rw [mul, ← ZMod.natCast_eq_natCast_iff', Nat.cast_mul, sq]

end

/-! ## Square roots -/

theorem pow_eq_neg_one {b e : Nat} (h : Number.powMod fieldOrder b e = fieldOrder - 1) :
    (b : Residue) ^ e = -1 := by
  rw [← Number.cast_powMod, h, Nat.cast_pred fieldOrder_prime.pos, ZMod.natCast_self, zero_sub]

theorem rootOfMinusOne_sq : (rootOfMinusOne : Residue) ^ 2 = -1 := by
  rw [rootOfMinusOne, Number.cast_powMod, ← pow_mul]
  exact pow_eq_neg_one (by decide +kernel)

/-- The power of a square that tells which root of 1 it misses by. -/
theorem pow_quarter {b : Residue} (hb : b ≠ 0) :
    (b ^ 2) ^ ((fieldOrder - 1) / 4) = 1 ∨ (b ^ 2) ^ ((fieldOrder - 1) / 4) = -1 := by
  have he : 2 * ((fieldOrder - 1) / 4 * 2) = fieldOrder - 1 := by decide
  refine mul_self_eq_one_iff.mp ?_
  rw [← sq, ← pow_mul, ← pow_mul, he]
  exact ZMod.pow_card_sub_one_eq_one hb

theorem even_sq (r : Nat) :
    (((if r % 2 = 0 then r else neg r : Nat)) : Residue) ^ 2 = (r : Residue) ^ 2 := by
  split
  · rfl
  · rw [cast_neg, neg_sq]

theorem sq_of_squareRoot? {a r : Nat} (h : squareRoot? a = some r) : (r : Residue) ^ 2 = a := by
  rw [squareRoot?] at h
  split at h
  · rename_i hr
    cases h
    rw [even_sq]
    exact (mul_self_eq_iff _ _).mp hr
  · dsimp only at h
    split at h
    · rename_i hr
      cases h
      rw [even_sq]
      exact (mul_self_eq_iff _ _).mp hr
    · cases h

/-- The first power is a root of a square, or of its negative. -/
theorem pow_eighth {a : Nat} {b : Residue} (h : (a : Residue) = b ^ 2) :
    ((a : Residue) ^ ((fieldOrder + 3) / 8)) ^ 2 = a ∨
      ((a : Residue) ^ ((fieldOrder + 3) / 8)) ^ 2 = -a := by
  have he : (fieldOrder + 3) / 8 * 2 = (fieldOrder - 1) / 4 + 1 := by decide
  rw [← pow_mul, he, pow_succ]
  by_cases hb : b = 0
  · left
    rw [h, hb, zero_pow two_ne_zero, mul_zero]
  · rcases pow_quarter hb with hw | hw
    · left
      rw [h, hw, one_mul]
    · right
      rw [h, hw, neg_one_mul]

/-- A square has a root: the negative is made up for by a root of -1. -/
theorem exists_squareRoot? {a : Nat} {b : Residue} (h : (a : Residue) = b ^ 2) :
    ∃ r, squareRoot? a = some r := by
  rw [squareRoot?]
  split
  · exact ⟨_, rfl⟩
  · rename_i hr
    rw [mul_self_eq_iff, Number.cast_powMod] at hr
    refine ⟨_, if_pos ?_⟩
    rw [mul_self_eq_iff, cast_mul, Number.cast_powMod, mul_pow, rootOfMinusOne_sq,
      (pow_eighth h).resolve_left hr, mul_neg_one, neg_neg]

end Strongbox.Ed25519
