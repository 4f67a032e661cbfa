/-
  Strongbox.Proofs.Aes.Octets — octets as polynomials, and the substitution box both ways.

  Doubling and multiplication keep exclusive or, so an identity between such maps is settled on
  the eight octets with one bit. Multiplication is then commutative and associative, an octet is
  its own 256th power, and taking the inverse twice changes nothing.
  - `IsAdditive.eq`, `IsAdditive.eq_of_double`: additive maps agree when they do on single bits, or
    on 1 and then on doubles.
  - `mul_comm`, `mul_assoc`: the laws of multiplication.
  - `inverse_inverse`: the inverse of the inverse.
  - `substituteBack_substitute`: the box is read backwards.
-/

import Mathlib.Algebra.Ring.Nat
import Mathlib.Logic.Function.Iterate
import Strongbox.Aes.Block

namespace Strongbox.Aes

/-! ## Maps that keep exclusive or -/

def IsAdditive (f : UInt8 → UInt8) : Prop := ∀ a b, f (a ^^^ b) = f a ^^^ f b

def singleBits : List UInt8 := [1, 2, 4, 8, 16, 32, 64, 128]

theorem forall_octet {p : UInt8 → Prop}
    (h : ∀ high < 16, ∀ low < 16, p (UInt8.ofNat (16 * high + low))) (a : UInt8) : p a := by
  have hlt := a.toNat_lt
  have ha := h (a.toNat / 16) (by omega) (a.toNat % 16) (by omega)
  rwa [Nat.div_add_mod, UInt8.ofNat_toNat] at ha

theorem xor_singleBits (a : UInt8) :
    (singleBits.filter fun b => a &&& b ≠ 0).foldr (· ^^^ ·) 0 = a :=
  forall_octet (p := fun a => (singleBits.filter fun b => a &&& b ≠ 0).foldr (· ^^^ ·) 0 = a)
    (by decide) a

namespace IsAdditive

variable {f g : UInt8 → UInt8}

theorem zero (hf : IsAdditive f) : f 0 = 0 := by
  have h := hf 0 0
  rwa [UInt8.xor_self, UInt8.xor_self] at h

theorem eq (hf : IsAdditive f) (hg : IsAdditive g) (h : ∀ b ∈ singleBits, f b = g b) (a : UInt8) :
    f a = g a := by
  have step (bs : List UInt8) (hbs : ∀ b ∈ bs, b ∈ singleBits) :
      f (bs.foldr (· ^^^ ·) 0) = g (bs.foldr (· ^^^ ·) 0) := by
    induction bs with
    | nil => rw [List.foldr_nil, hf.zero, hg.zero]
    | cons b bs ih =>
      rw [List.forall_mem_cons] at hbs
      rw [List.foldr_cons, hf, hg, h b hbs.1, ih hbs.2]
  rw [← xor_singleBits a]
  exact step _ fun b hb => (List.mem_filter.mp hb).1

theorem comp (hf : IsAdditive f) (hg : IsAdditive g) : IsAdditive fun a => f (g a) := by
  intro a b
  simp only
  rw [hg, hf]

end IsAdditive

/-- The single bits are 1 and its doubles. -/
theorem IsAdditive.eq_of_double {f g : UInt8 → UInt8} (hf : IsAdditive f) (hg : IsAdditive g)
    (hone : f 1 = g 1) (hdouble : ∀ a, f a = g a → f (double a) = g (double a)) (a : UInt8) :
    f a = g a := by
  have h2 : f 2 = g 2 := hdouble 1 hone
  have h4 : f 4 = g 4 := hdouble 2 h2
  have h8 : f 8 = g 8 := hdouble 4 h4
  have h16 : f 16 = g 16 := hdouble 8 h8
  have h32 : f 32 = g 32 := hdouble 16 h16
  have h64 : f 64 = g 64 := hdouble 32 h32
  have h128 : f 128 = g 128 := hdouble 64 h64
  refine hf.eq hg ?_ a
  simp only [singleBits, List.forall_mem_cons]
  exact ⟨hone, h2, h4, h8, h16, h32, h64, h128, List.forall_mem_nil _⟩

/-! ## Multiplication -/

theorem and_one_xor (a b : UInt8) : (a ^^^ b) &&& 1 = (a &&& 1) ^^^ (b &&& 1) := by
  apply UInt8.toBitVec_inj.mp
  ext i hi
  simp [Bool.and_xor_distrib_right]

/-- The octet `a` if the lowest bit of `b` is set. -/
def whenOdd (a b : UInt8) : UInt8 := if b &&& 1 = 1 then a else 0

theorem whenOdd_xor_left (a a' b : UInt8) :
    whenOdd (a ^^^ a') b = whenOdd a b ^^^ whenOdd a' b := by
  rw [whenOdd, whenOdd, whenOdd]
  split
  · rfl
  · rfl

theorem and_one_cases (b : UInt8) : b &&& 1 = 0 ∨ b &&& 1 = 1 :=
  forall_octet (p := fun b => b &&& 1 = 0 ∨ b &&& 1 = 1) (by decide) b

theorem whenOdd_xor_right (a b b' : UInt8) :
    whenOdd a (b ^^^ b') = whenOdd a b ^^^ whenOdd a b' := by
  have hne : ¬(0 : UInt8) = 1 := by decide
  rw [whenOdd, whenOdd, whenOdd, and_one_xor]
  rcases and_one_cases b with hb | hb
  · rw [hb, UInt8.zero_xor, if_neg hne, UInt8.zero_xor]
  · rcases and_one_cases b' with hb' | hb'
    · rw [hb, hb', UInt8.xor_zero, if_pos rfl, if_neg hne, UInt8.xor_zero]
    · rw [hb, hb', UInt8.xor_self, if_pos rfl, if_neg hne, UInt8.xor_self]

theorem double_eq (a : UInt8) : double a = (a <<< 1) ^^^ whenOdd 0x1B (a >>> 7) :=
  forall_octet (p := fun a => double a = (a <<< 1) ^^^ whenOdd 0x1B (a >>> 7)) (by decide) a

theorem isAdditive_double : IsAdditive double := by
  intro a b
  rw [double_eq, double_eq, double_eq, UInt8.shiftLeft_xor, UInt8.shiftRight_xor, whenOdd_xor_right]
  ac_rfl

theorem times_succ (n : Nat) (a b : UInt8) :
    times (n + 1) a b = whenOdd a b ^^^ times n (double a) (b >>> 1) := rfl

theorem xor_times (n : Nat) (a a' b : UInt8) :
    times n (a ^^^ a') b = times n a b ^^^ times n a' b := by
  induction n generalizing a a' b with
  | zero => exact UInt8.xor_self.symm
  | succ n ih =>
    rw [times_succ, times_succ, times_succ, whenOdd_xor_left, isAdditive_double, ih]
    ac_rfl

theorem times_xor (n : Nat) (a b b' : UInt8) :
    times n a (b ^^^ b') = times n a b ^^^ times n a b' := by
  induction n generalizing a b b' with
  | zero => exact UInt8.xor_self.symm
  | succ n ih =>
    rw [times_succ, times_succ, times_succ, whenOdd_xor_right, UInt8.shiftRight_xor, ih]
    ac_rfl

theorem double_times (n : Nat) (a b : UInt8) : times n (double a) b = double (times n a b) := by
  induction n generalizing a b with
  | zero => exact isAdditive_double.zero.symm
  | succ n ih =>
    have hodd : whenOdd (double a) b = double (whenOdd a b) := by
      rw [whenOdd, whenOdd]
      split
      · rfl
      · exact isAdditive_double.zero.symm
    rw [times_succ, times_succ, isAdditive_double, ih, hodd]

theorem xor_mul (a b c : UInt8) : mul (a ^^^ b) c = mul a c ^^^ mul b c := xor_times 8 a b c

theorem mul_xor (a b c : UInt8) : mul a (b ^^^ c) = mul a b ^^^ mul a c := times_xor 8 a b c

theorem double_mul (a b : UInt8) : mul (double a) b = double (mul a b) := double_times 8 a b

theorem isAdditive_mul_right (b : UInt8) : IsAdditive fun a => mul a b := fun a a' => xor_mul a a' b

theorem isAdditive_mul_left (a : UInt8) : IsAdditive (mul a) := mul_xor a

theorem one_mul (a : UInt8) : mul 1 a = a :=
  (isAdditive_mul_left 1).eq (g := id) (fun _ _ => rfl) (by decide +kernel) a

theorem mul_double (a b : UInt8) : mul a (double b) = double (mul a b) := by
  refine IsAdditive.eq_of_double (isAdditive_mul_right (double b))
    (isAdditive_double.comp (isAdditive_mul_right b)) ?_ (fun a h => ?_) a
  · rw [one_mul, one_mul]
  · rw [double_mul, h, double_mul]

theorem mul_comm (a b : UInt8) : mul a b = mul b a := by
  refine IsAdditive.eq_of_double (isAdditive_mul_right b) (isAdditive_mul_left b) ?_
    (fun a h => ?_) a
  · refine IsAdditive.eq_of_double (isAdditive_mul_left 1) (isAdditive_mul_right 1) rfl
      (fun b h => ?_) b
    rw [mul_double, h, double_mul]
  · rw [double_mul, h, mul_double]

theorem mul_one (a : UInt8) : mul a 1 = a := by rw [mul_comm, one_mul]

theorem mul_assoc (a b c : UInt8) : mul (mul a b) c = mul a (mul b c) := by
  refine IsAdditive.eq_of_double (isAdditive_mul_left (mul a b))
    ((isAdditive_mul_left a).comp (isAdditive_mul_left b)) ?_ (fun c h => ?_) c
  · rw [mul_one, mul_one]
  · rw [mul_double, h, mul_double, mul_double]

/-! ## Powers and inverses -/

theorem power_add (a : UInt8) (m n : Nat) : power a (m + n) = mul (power a m) (power a n) := by
  induction m with
  | zero => rw [Nat.zero_add, power, one_mul]
  | succ m ih => rw [Nat.succ_add, power, ih, power, mul_assoc]

theorem power_mul (a : UInt8) (m n : Nat) : power a (m * n) = power (power a m) n := by
  induction n with
  | zero => rfl
  | succ n ih => rw [Nat.mul_succ, Nat.add_comm, power_add, ih, power]

def square (a : UInt8) : UInt8 := mul a a

theorem isAdditive_square : IsAdditive square := by
  intro a b
  rw [square, xor_mul, mul_xor, mul_xor, mul_comm b a]
  have hmixed : mul a b ^^^ (mul a b ^^^ mul b b) = mul b b := by
    rw [← UInt8.xor_assoc, UInt8.xor_self, UInt8.zero_xor]
  rw [UInt8.xor_assoc, hmixed]
  rfl

theorem power_two_pow (a : UInt8) (n : Nat) : power a (2 ^ n) = square^[n] a := by
  induction n generalizing a with
  | zero => exact mul_one a
  | succ n ih =>
    have h2 : power a 2 = square a := by rw [power, power, power, mul_one, square]
    rw [Nat.pow_succ', power_mul, h2, ih, Function.iterate_succ_apply]

theorem isAdditive_iterate_square (n : Nat) : IsAdditive square^[n] := by
  induction n with
  | zero => exact fun _ _ => rfl
  | succ n ih => exact ih.comp isAdditive_square

/-- Squaring eight times changes nothing, since it does so on single bits. -/
theorem power_capacity (a : UInt8) : power a 256 = a := by
  rw [show 256 = 2 ^ 8 by rfl, power_two_pow]
  exact (isAdditive_iterate_square 8).eq (g := id) (fun _ _ => rfl) (by decide +kernel) a

theorem inverse_inverse (a : UInt8) : inverse (inverse a) = a := by
  have hround (n : Nat) : power a (255 * n + 1) = a := by
    induction n with
    | zero => exact mul_one a
    | succ n ih =>
      rw [show 255 * (n + 1) + 1 = 255 * n + 1 + 255 by omega, power_add, ih]
      exact power_capacity a
  rw [inverse, inverse, ← power_mul, show 254 * 254 = 255 * 253 + 1 by rfl, hround]

/-! ## The substitution box -/

def affine (a : UInt8) : UInt8 :=
  a ^^^ rotate a 1 ^^^ rotate a 2 ^^^ rotate a 3 ^^^ rotate a 4 ^^^ 0x63

def affineBack (a : UInt8) : UInt8 := rotate a 1 ^^^ rotate a 3 ^^^ rotate a 6 ^^^ 0x05

theorem affineBack_affine (a : UInt8) : affineBack (affine a) = a :=
  forall_octet (p := fun a => affineBack (affine a) = a) (by decide) a

theorem getD_box {i : Nat} (h : i < 256) : box.getD i 0 = affine (inverse (UInt8.ofNat i)) := by
  rw [box, Array.getD_eq_getD_getElem?, Array.getElem?_ofFn, dif_pos h]
  rfl

theorem substitute_eq (a : UInt8) : substitute a = affine (inverse a) := by
  rw [substitute, getD_box a.toNat_lt, UInt8.ofNat_toNat]

theorem substitute_inj {a b : UInt8} (h : substitute a = substitute b) : a = b := by
  rw [substitute_eq, substitute_eq] at h
  rw [← inverse_inverse a, ← affineBack_affine (inverse a), h, affineBack_affine, inverse_inverse]

/-- Places that are written one after the other hold what was written there, if no two of them
are the same. -/
theorem getElem?_foldl_set (place : Nat → Nat) (value : Nat → UInt8) (i : Nat)
    {is : List Nat} {t : Array UInt8} (ht : place i < t.size)
    (hinj : ∀ j ∈ is, place j = place i → j = i) (h : i ∈ is ∨ t[place i]? = some (value i)) :
    (is.foldl (fun t j => t.set! (place j) (value j)) t)[place i]? = some (value i) := by
  induction is generalizing t with
  | nil => exact h.resolve_left List.not_mem_nil
  | cons j js ih =>
    rw [List.forall_mem_cons] at hinj
    rw [List.foldl_cons]
    refine ih (by simpa using ht) hinj.2 ?_
    by_cases hji : j = i
    · right
      rw [hji, Array.set!_eq_setIfInBounds, Array.getElem?_setIfInBounds_self_of_lt ht]
    · have hne : place j ≠ place i := fun he => hji (hinj.1 he)
      rw [Array.set!_eq_setIfInBounds, Array.getElem?_setIfInBounds_ne hne]
      refine h.imp_left fun hi => ?_
      exact (List.mem_cons.mp hi).resolve_left (Ne.symm hji)

theorem substituteBack_substitute (a : UInt8) : substituteBack (substitute a) = a := by
  have hsize : (box.getD a.toNat 0).toNat < (Array.replicate 256 (0 : UInt8)).size := by
    rw [Array.size_replicate]
    exact UInt8.toNat_lt _
  have hinj : ∀ j ∈ List.range 256,
      (box.getD j 0).toNat = (box.getD a.toNat 0).toNat → j = a.toNat := by
    intro j hj he
    have htoNat : (UInt8.ofNat j).toNat = j := by
      rw [UInt8.toNat_ofNat', Nat.mod_eq_of_lt (List.mem_range.mp hj)]
    have hsub : substitute (UInt8.ofNat j) = substitute a := by
      refine UInt8.toNat_inj.mp (Eq.trans ?_ he)
      rw [substitute, htoNat]
    rw [← substitute_inj hsub, htoNat]
  have h := getElem?_foldl_set (fun i => (box.getD i 0).toNat) UInt8.ofNat a.toNat hsize hinj
    (.inl (List.mem_range.mpr a.toNat_lt))
  rw [substituteBack, boxInverse, substitute, Array.getD_eq_getD_getElem?, h, UInt8.ofNat_toNat]
  rfl

end Strongbox.Aes
