/-
  Strongbox.Proofs.Ed25519.Curve — whatever is computed from points of the curve is written as one.

  The coordinates of a point keep two equations: that of the curve, made homogeneous, and the one
  that ties the fourth coordinate to the others. They hold for every point that octets write, since
  -1/d is no square, and adding keeps them without a look at denominators. So the octets of a
  computed point write a point again, even where the third coordinate should be zero.
  - `OnCurve.add`, `OnCurve.times`: sums and multiples stay on the curve.
  - `exists_ofBytes?_toBytes`: a point on the curve can be read back from its octets.
-/

import Strongbox.Proofs.Bytes
import Strongbox.Proofs.Ed25519.Field
import Mathlib.Tactic.FieldSimp

namespace Strongbox.Ed25519

/-- The equation of the curve for a sum, in any ring with a constant. The sum of two points has the
coordinates E·F, G·H, F·G and E·H, and H² - E², H² + E² and E·H are made of the third and fourth
coordinates of both and of their x² + y². -/
theorem sum_curve {R : Type*} [CommRing R] {d x₁ y₁ z₁ t₁ x₂ y₂ z₂ t₂ : R}
    (h₁ : y₁ ^ 2 - x₁ ^ 2 = z₁ ^ 2 + d * t₁ ^ 2) (k₁ : x₁ * y₁ = z₁ * t₁)
    (h₂ : y₂ ^ 2 - x₂ ^ 2 = z₂ ^ 2 + d * t₂ ^ 2) (k₂ : x₂ * y₂ = z₂ * t₂) {A B C D : R}
    (hA : A = (y₁ - x₁) * (y₂ - x₂)) (hB : B = (y₁ + x₁) * (y₂ + x₂))
    (hC : C = 2 * d * t₁ * t₂) (hD : D = 2 * z₁ * z₂) :
    ((D + C) * (B + A)) ^ 2 - ((B - A) * (D - C)) ^ 2 =
      ((D - C) * (D + C)) ^ 2 + d * ((B - A) * (B + A)) ^ 2 := by
  have hdiff : (B + A) ^ 2 - (B - A) ^ 2 = 4 * (z₁ ^ 2 + d * t₁ ^ 2) * (z₂ ^ 2 + d * t₂ ^ 2) := by
    rw [hA, hB]
    linear_combination 4 * (y₂ ^ 2 - x₂ ^ 2) * h₁ + 4 * (z₁ ^ 2 + d * t₁ ^ 2) * h₂
  have hsum : (B + A) ^ 2 + (B - A) ^ 2 =
      4 * (x₁ ^ 2 + y₁ ^ 2) * (x₂ ^ 2 + y₂ ^ 2) + 16 * z₁ * t₁ * z₂ * t₂ := by
    rw [hA, hB]
    linear_combination 16 * x₂ * y₂ * k₁ + 16 * z₁ * t₁ * k₂
  have hprod : (B - A) * (B + A) =
      4 * z₁ * t₁ * (x₂ ^ 2 + y₂ ^ 2) + 4 * z₂ * t₂ * (x₁ ^ 2 + y₁ ^ 2) := by
    rw [hA, hB]
    linear_combination 4 * (x₂ ^ 2 + y₂ ^ 2) * k₁ + 4 * (x₁ ^ 2 + y₁ ^ 2) * k₂
  have hu₁ : (x₁ ^ 2 + y₁ ^ 2) ^ 2 = (z₁ ^ 2 + d * t₁ ^ 2) ^ 2 + 4 * z₁ ^ 2 * t₁ ^ 2 := by
    linear_combination (y₁ ^ 2 - x₁ ^ 2 + z₁ ^ 2 + d * t₁ ^ 2) * h₁ +
      4 * (x₁ * y₁ + z₁ * t₁) * k₁
  have hu₂ : (x₂ ^ 2 + y₂ ^ 2) ^ 2 = (z₂ ^ 2 + d * t₂ ^ 2) ^ 2 + 4 * z₂ ^ 2 * t₂ ^ 2 := by
    linear_combination (y₂ ^ 2 - x₂ ^ 2 + z₂ ^ 2 + d * t₂ ^ 2) * h₂ +
      4 * (x₂ * y₂ + z₂ * t₂) * k₂
  have hsplit : ((D + C) * (B + A)) ^ 2 - ((B - A) * (D - C)) ^ 2 =
      2 * C * D * ((B + A) ^ 2 + (B - A) ^ 2) +
        (C ^ 2 + D ^ 2) * ((B + A) ^ 2 - (B - A) ^ 2) := by
    ring
  rw [hsplit, hsum, hdiff, hprod, hC, hD]
  linear_combination -16 * d * z₁ ^ 2 * t₁ ^ 2 * hu₂ - 16 * d * z₂ ^ 2 * t₂ ^ 2 * hu₁

namespace Point

structure OnCurve (p : Point) : Prop where
  curve : (p.y : Residue) ^ 2 - (p.x : Residue) ^ 2 =
    (p.z : Residue) ^ 2 + curveConstant * (p.t : Residue) ^ 2
  product : (p.x : Residue) * p.y = p.z * p.t

namespace OnCurve

variable {p q : Point}

theorem zero : Point.zero.OnCurve where
  curve := by simp [Point.zero]
  product := by simp [Point.zero]

theorem negate (h : p.OnCurve) : p.negate.OnCurve where
  curve := by
    simp only [Point.negate, cast_neg, neg_sq]
    exact h.curve
  product := by
    simp only [Point.negate, cast_neg, neg_mul, mul_neg, h.product]

theorem add (hp : p.OnCurve) (hq : q.OnCurve) : (p.add q).OnCurve := by
  obtain ⟨hp, hpt⟩ := hp
  obtain ⟨hq, hqt⟩ := hq
  constructor
  · simp only [Point.add, cast_mul, cast_sub, cast_mod, Nat.cast_add, Nat.cast_mul, Nat.cast_ofNat]
    exact sum_curve hp hpt hq hqt rfl rfl (by ring) (by ring)
  · simp only [Point.add, cast_mul]
    ring

theorem times (h : p.OnCurve) (n : Nat) : (Point.times n p).OnCurve := by
  fun_induction Point.times n p with
  | case1 => exact zero
  | case2 n hn half twice he ih => exact ih.add ih
  | case3 n hn half twice he ih => exact (ih.add ih).add h

end OnCurve

/-! ## Points and their octets -/

/-- The constant is no square, nor is its negative inverse, so the y of a point has an x². -/
theorem denominator_ne_zero (y : Residue) : curveConstant * y ^ 2 + 1 ≠ 0 := by
  intro h
  have he : (fieldOrder - 1) / 2 * 2 = fieldOrder - 1 := by decide
  have hd : (curveConstant : Residue) ^ ((fieldOrder - 1) / 2) = -1 :=
    pow_eq_neg_one (by decide +kernel)
  have hy : y ≠ 0 := by
    rintro rfl
    simp at h
  have hneg : (curveConstant * y ^ 2 : Residue) ^ ((fieldOrder - 1) / 2) = -1 := by
    rw [mul_pow, hd, ← pow_mul, mul_comm 2, he, ZMod.pow_card_sub_one_eq_one hy, mul_one]
  rw [eq_neg_of_add_eq_zero_left h, Even.neg_one_pow (by decide)] at hneg
  have : Fact (2 < fieldOrder) := ⟨by decide⟩
  exact ZMod.neg_one_ne_one hneg.symm

theorem onCurve_ofAffine {x y : Nat}
    (h : (x : Residue) ^ 2 * (curveConstant * (y : Residue) ^ 2 + 1) = (y : Residue) ^ 2 - 1) :
    (ofAffine x y).OnCurve where
  curve := by
    simp only [ofAffine, cast_mul, Nat.cast_one]
    linear_combination -h
  product := by
    simp only [ofAffine, cast_mul, Nat.cast_one, one_mul]

def xSquare (y : Nat) : Nat := mul (sub (mul y y) 1) (inverse (mul curveConstant (mul y y) + 1))

theorem cast_xSquare (y : Nat) : (xSquare y : Residue) =
    ((y : Residue) ^ 2 - 1) * (curveConstant * (y : Residue) ^ 2 + 1)⁻¹ := by
  simp only [xSquare, cast_mul, cast_sub, cast_inverse, Nat.cast_add, Nat.cast_one, sq]

theorem ofBytes?_eq (b : Bytes) : ofBytes? b =
    if b.length ≠ 32 then none
    else (squareRoot? (xSquare (Bytes.toNat b.reverse % (1 <<< 255) % fieldOrder))).map fun x =>
      ofAffine (if Bytes.toNat b.reverse >>> 255 = 1 then neg x else x)
        (Bytes.toNat b.reverse % (1 <<< 255) % fieldOrder) := rfl

/-- What octets write is a point of the curve. -/
theorem onCurve_of_ofBytes? {b : Bytes} {p : Point} (h : ofBytes? b = some p) : p.OnCurve := by
  obtain ⟨-, h⟩ := Option.ite_none_left_eq_some.mp (ofBytes?_eq b ▸ h)
  obtain ⟨x, hx, rfl⟩ := Option.map_eq_some_iff.mp h
  refine onCurve_ofAffine ?_
  have hsign : ((if Bytes.toNat b.reverse >>> 255 = 1 then neg x else x : Nat) : Residue) ^ 2 =
      (x : Residue) ^ 2 := by
    split
    · rw [cast_neg, neg_sq]
    · rfl
  rw [hsign, sq_of_squareRoot? hx, cast_xSquare, inv_mul_cancel_right₀ (denominator_ne_zero _)]

/-- The base point is one, whatever its octets write. -/
theorem onCurve_base : base.OnCurve := by
  rw [base]
  cases h : ofBytes? (0x58 :: List.replicate 31 0x66) with
  | none => exact .zero
  | some p => exact onCurve_of_ofBytes? h

/-- The y of a point of the curve belongs to an x; without a third coordinate both are roots of
-1 and 0. -/
theorem OnCurve.exists_sq {p : Point} (h : p.OnCurve) :
    ∃ b : Residue, (xSquare (mul p.y (inverse p.z)) : Residue) = b ^ 2 := by
  rw [cast_xSquare, cast_mul, cast_inverse]
  by_cases hz : (p.z : Residue) = 0
  · refine ⟨rootOfMinusOne, ?_⟩
    rw [hz, rootOfMinusOne_sq]
    simp
  · refine ⟨p.x * (p.z : Residue)⁻¹, ?_⟩
    rw [eq_comm, eq_mul_inv_iff_mul_eq₀ (denominator_ne_zero _)]
    have ht : (p.t : Residue) = p.x * p.y * (p.z : Residue)⁻¹ := by
      rw [h.product, mul_right_comm, mul_inv_cancel₀ hz, one_mul]
    have hc := h.curve
    rw [ht] at hc
    field_simp at hc ⊢
    linear_combination -hc

/-- The number in the octets of a point: its y is below the top bit. -/
theorem toNat_toBytes (p : Point) : Bytes.toNat p.toBytes.reverse =
    mul p.y (inverse p.z) + (1 <<< 255) * (mul p.x (inverse p.z) % 2) := by
  have hy : mul p.y (inverse p.z) < 1 <<< 255 :=
    Nat.lt_trans (Nat.mod_lt _ fieldOrder_prime.pos) (by decide)
  have hx : mul p.x (inverse p.z) % 2 ≤ 1 := Nat.le_of_lt_succ (Nat.mod_lt _ Nat.two_pos)
  have hcapacity : (1 <<< 255) + (1 <<< 255) * 1 = Bytes.capacity 32 := by decide
  rw [toBytes, List.reverse_reverse, Bytes.toNat_ofNat]
  exact hcapacity ▸ Nat.add_lt_add_of_lt_of_le hy (Nat.mul_le_mul_left _ hx)

/-- A point of the curve is read back from its octets. -/
theorem exists_ofBytes?_toBytes {p : Point} (h : p.OnCurve) :
    ∃ q, ofBytes? p.toBytes = some q := by
  have hlength : ¬ p.toBytes.length ≠ 32 := by
    rw [toBytes, List.length_reverse, Bytes.length_ofNat]
    exact not_not.mpr rfl
  have hy : mul p.y (inverse p.z) < fieldOrder := Nat.mod_lt _ fieldOrder_prime.pos
  have htop : fieldOrder < 1 <<< 255 := by decide
  obtain ⟨b, hb⟩ := h.exists_sq
  obtain ⟨x, hx⟩ := exists_squareRoot? hb
  rw [ofBytes?_eq, if_neg hlength, toNat_toBytes, Nat.add_mul_mod_self_left,
    Nat.mod_eq_of_lt (Nat.lt_trans hy htop), Nat.mod_eq_of_lt hy, hx]
  exact ⟨_, rfl⟩

end Point

end Strongbox.Ed25519
