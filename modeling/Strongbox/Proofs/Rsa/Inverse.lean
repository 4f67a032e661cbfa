/-
  Strongbox.Proofs.Rsa.Inverse — the private permutation undoes the public one.

  A key `Inverts` when every number below its modulus is recovered from its public image. This
  is what the paddings rely on, and it holds of every usable key whose two factors are distinct
  primes: the product of the exponents leaves 1 behind multiples of each factor less one, so a
  power with it changes nothing modulo either factor.
  - `inverts_of_primes`: such a key inverts.
-/

import Mathlib.FieldTheory.Finite.Basic
import Mathlib.NumberTheory.LucasLehmer
import Strongbox.Number.Power
import Strongbox.Rsa.Key

namespace Strongbox.Rsa

/-- Every number below the modulus is recovered from its public image. -/
def PrivateKey.Inverts (k : PrivateKey) : Prop :=
  ∀ m < k.publicKey.modulus, k.apply (k.publicKey.apply m) = .ok m

/-- A power whose exponent is 1 behind a multiple of `p - 1` changes nothing modulo the prime. -/
theorem pow_modEq_self {p e : Nat} (hp : p.Prime) (he : e % (p - 1) = 1) (m : Nat) :
    m ^ e ≡ m [MOD p] := by
  have hd : e = (p - 1) * (e / (p - 1)) + 1 := by
    have := Nat.div_add_mod e (p - 1)
    omega
  by_cases hm : p ∣ m
  · have h0 : m ≡ 0 [MOD p] := (Nat.modEq_zero_iff_dvd).mpr hm
    have h1 : m ^ e ≡ 0 [MOD p] :=
      (Nat.modEq_zero_iff_dvd).mpr (dvd_pow hm (by rw [hd]; exact Nat.succ_ne_zero _))
    exact h1.trans h0.symm
  · have hc : Nat.Coprime m p := ((Nat.Prime.coprime_iff_not_dvd hp).mpr hm).symm
    have hf : m ^ (p - 1) ≡ 1 [MOD p] := by
      rw [← Nat.totient_prime hp]
      exact Nat.ModEq.pow_totient hc
    calc m ^ e = (m ^ (p - 1)) ^ (e / (p - 1)) * m := by
            conv_lhs => rw [hd]
            rw [pow_succ, pow_mul]
      _ ≡ 1 ^ (e / (p - 1)) * m [MOD p] := Nat.ModEq.mul_right m (hf.pow _)
      _ = m := by rw [one_pow, one_mul]

/-- The two permutations in turn are a power with the product of the exponents. -/
theorem powMod_powMod (n m d e : Nat) :
    Number.powMod n (Number.powMod n m e) d = m ^ (d * e) % n := by
  show _ = Nat.pow m (d * e) % n
  rw [Number.powMod_eq, Number.powMod_eq]
  show (m ^ e % n) ^ d % n = m ^ (d * e) % n
  rw [← Nat.pow_mod, ← pow_mul, mul_comm]

theorem PrivateKey.inverts_of_primes {k : PrivateKey} (h : k.isUsable = true)
    (hp : k.firstPrime.Prime) (hq : k.secondPrime.Prime) (hne : k.firstPrime ≠ k.secondPrime) :
    k.Inverts := by
  intro m hm
  rw [isUsable] at h
  simp only [Bool.and_eq_true, beq_iff_eq] at h
  obtain ⟨⟨⟨-, hn⟩, h1⟩, h2⟩ := h
  have hpow : m ^ (k.exponent * k.publicKey.exponent) ≡ m [MOD k.publicKey.modulus] := by
    rw [← hn, ← Nat.modEq_and_modEq_iff_modEq_mul ((Nat.coprime_primes hp hq).mpr hne)]
    exact ⟨pow_modEq_self hp h1 m, pow_modEq_self hq h2 m⟩
  have hback : Number.powMod k.publicKey.modulus (k.publicKey.apply m) k.exponent = m := by
    rw [PublicKey.apply, powMod_powMod]
    exact Eq.trans hpow (Nat.mod_eq_of_lt hm)
  have hlt : k.publicKey.apply m < k.publicKey.modulus := by
    rw [PublicKey.apply, Number.powMod_eq]
    exact Nat.mod_lt _ (Nat.zero_lt_of_lt hm)
  rw [apply, if_neg (Nat.not_le.mpr hlt)]
  simp only [hback, if_true]

/-- A key of two Mersenne primes, whose modulus has 81 octets. -/
@[irreducible] def PrivateKey.ofMersenne : PrivateKey where
  publicKey := ⟨mersenne 127 * mersenne 521, 65537⟩
  exponent := (10880 * ((mersenne 127 - 1) * (mersenne 521 - 1)) + 1) / 65537
  firstPrime := mersenne 127
  secondPrime := mersenne 521

theorem PrivateKey.ofMersenne_inverts : ofMersenne.Inverts := by
  have hp : ofMersenne.firstPrime = mersenne 127 := by decide +kernel
  have hq : ofMersenne.secondPrime = mersenne 521 := by decide +kernel
  refine inverts_of_primes (by decide +kernel) ?_ ?_ (by decide +kernel)
  · rw [hp]
    exact lucas_lehmer_sufficiency 127 (by norm_num) (by norm_num)
  · rw [hq]
    exact lucas_lehmer_sufficiency 521 (by norm_num) (by norm_num)

end Strongbox.Rsa
