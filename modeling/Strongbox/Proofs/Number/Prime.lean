/-
  Strongbox.Proofs.Number.Prime — large primes, by their powers.

  A number is prime when some residue has the order of all residues but zero. The order is told by
  the factors of the number less one, which have to be prime themselves.
  - `prime_of_factors`: the test of a number by such factors.
-/

import Strongbox.Number.Power
import Mathlib.Data.List.Prime
import Mathlib.NumberTheory.LucasPrimality

namespace Strongbox.Number

/-- Lucas's test: the factors are those of `p - 1`, and the power of the witness to `p - 1` is the
first of its powers to be 1. -/
def passesTest (p witness : Nat) (factors : List Nat) : Bool :=
  decide (1 < p) && factors.prod == p - 1 && powMod p witness (p - 1) == 1
    && factors.all fun q => powMod p witness ((p - 1) / q) != 1

theorem cast_powMod (p b e : Nat) : ((powMod p b e : Nat) : ZMod p) = (b : ZMod p) ^ e := by
  rw [powMod_eq, Nat.pow_eq, ZMod.natCast_mod, Nat.cast_pow]

theorem powMod_eq_one_iff {p b e : Nat} (hp : 1 < p) :
    powMod p b e = 1 ↔ (b : ZMod p) ^ e = 1 := by
  rw [powMod_eq, Nat.pow_eq, ← Nat.cast_pow, ← Nat.cast_one (R := ZMod p),
    ZMod.natCast_eq_natCast_iff', Nat.one_mod_eq_one.mpr (Nat.ne_of_gt hp)]

/-- A number that passes the test by prime factors is prime. -/
theorem prime_of_factors {p : Nat} (witness : Nat) (factors : List Nat)
    (hf : ∀ q ∈ factors, q.Prime) (h : passesTest p witness factors = true) : p.Prime := by
  simp only [passesTest, Bool.and_eq_true, decide_eq_true_eq, beq_iff_eq, List.all_eq_true,
    bne_iff_ne] at h
  obtain ⟨⟨⟨hp, hprod⟩, hone⟩, hne⟩ := h
  refine lucas_primality p witness ((powMod_eq_one_iff hp).mp hone) fun q hq hd => ?_
  rw [← hprod] at hd
  obtain ⟨f, hmem, hqf⟩ := (Prime.dvd_prod_iff hq.prime).mp hd
  have hfq : q = f := (Nat.prime_dvd_prime_iff_eq hq (hf f hmem)).mp hqf
  rw [ne_eq, ← powMod_eq_one_iff hp, hfq]
  exact hne f hmem

end Strongbox.Number
