/-
  Strongbox.Proofs.Bytes — octets as the digits of a number, and in pieces of one length.

  - `ofNat_toNat`: octets are the writing of their number on as many octets.
  - `capacity_widthOf_le`: a number does not fit on fewer octets than its least width.
  - `chunks_flatten`: octets are cut into the pieces that they were put together from.
-/

import Mathlib.Tactic.Ring
import Strongbox.Bytes

namespace Strongbox.Bytes

theorem foldl_toNat (b : Bytes) (acc : Nat) :
    b.foldl (fun n x => n * 256 + x.toNat) acc = acc * capacity b.length + b.toNat := by
  induction b generalizing acc with
  | nil => simp [capacity, toNat]
  | cons x b ih =>
    rw [toNat, List.foldl_cons, List.foldl_cons, ih, ih (0 * 256 + x.toNat), List.length_cons,
      capacity]
    ring

theorem toNat_cons (x : UInt8) (b : Bytes) :
    toNat (x :: b) = x.toNat * capacity b.length + toNat b := by
  rw [toNat, List.foldl_cons, foldl_toNat, Nat.zero_mul, Nat.zero_add]

theorem toNat_lt_capacity (b : Bytes) : b.toNat < capacity b.length := by
  induction b with
  | nil => exact Nat.one_pos
  | cons x b ih =>
    have hx : x.toNat * capacity b.length + capacity b.length ≤ 256 * capacity b.length := by
      rw [← Nat.succ_mul]
      exact Nat.mul_le_mul_right _ x.toNat_lt
    rw [toNat_cons, List.length_cons, capacity]
    omega

/-- Octets of one length are told apart by their numbers. -/
theorem eq_of_toNat_eq {a b : Bytes} (hl : a.length = b.length) (h : a.toNat = b.toNat) :
    a = b := by
  induction a generalizing b with
  | nil => exact (List.length_eq_zero_iff.mp hl.symm).symm
  | cons x a ih =>
    cases b with
    | nil => cases hl
    | cons y b =>
      have hl' : a.length = b.length := Nat.succ.inj hl
      have ha := toNat_lt_capacity a
      have hb := toNat_lt_capacity b
      rw [toNat_cons, toNat_cons, hl'] at h
      rw [hl'] at ha
      have hxy : x.toNat = y.toNat := by
        have := congrArg (· / capacity b.length) h
        simpa only [Nat.mul_comm _ (capacity b.length), Nat.mul_add_div (Nat.zero_lt_of_lt hb),
          Nat.div_eq_of_lt ha, Nat.div_eq_of_lt hb, Nat.add_zero] using this
      rw [hxy, Nat.add_left_cancel_iff] at h
      rw [UInt8.toNat_inj.mp hxy, ih hl' h]

/-- Octets are the writing of their number on as many octets. -/
theorem ofNat_toNat (b : Bytes) : ofNat b.length b.toNat = b :=
  eq_of_toNat_eq (length_ofNat _ _) (toNat_ofNat (toNat_lt_capacity b))

theorem capacity_eq (w : Nat) : capacity w = 2 ^ (8 * w) := by
  induction w with
  | zero => rfl
  | succ w ih => rw [capacity, ih, Nat.mul_succ, Nat.pow_add, Nat.mul_comm]

/-- A number does not fit on fewer octets than its least width. -/
theorem capacity_widthOf_le {n : Nat} (h : n ≠ 0) : capacity (widthOf n - 1) ≤ n := by
  rw [widthOf, if_neg h, Nat.add_sub_cancel, capacity_eq]
  calc 2 ^ (8 * (n.log2 / 8)) ≤ 2 ^ n.log2 := Nat.pow_le_pow_right (by decide) (by omega)
    _ ≤ n := Nat.log2_self_le h

/-- A number is written on as many octets as it fits on, or on fewer. -/
theorem widthOf_le {n w : Nat} (h : n < capacity w) : widthOf n ≤ w := by
  by_cases hzero : n = 0
  · rw [hzero]
    exact Nat.zero_le w
  · have hlt := Nat.lt_of_le_of_lt (capacity_widthOf_le hzero) h
    rw [capacity_eq, capacity_eq, Nat.pow_lt_pow_iff_right (by decide)] at hlt
    omega

@[simp] theorem length_xor (a b : Bytes) : (xor a b).length = min a.length b.length :=
  List.length_zipWith

/-! ## Pieces of one length -/

section Pieces

variable {n : Nat} {bs : List Bytes}

theorem chunks_append (hn : 0 < n) {a : Bytes} (ha : a.length = n) (b : Bytes) :
    chunks n (a ++ b) = a :: chunks n b := by
  cases a with
  | nil => exact absurd ha (Nat.ne_of_lt hn)
  | cons x a =>
    have hdrop : (a ++ b).drop (n - 1) = b := List.drop_left' (by rw [← ha]; rfl)
    rw [List.cons_append, chunks, if_neg (Nat.ne_of_gt hn), hdrop, ← List.cons_append,
      List.take_left' ha]

/-- Octets are cut into the pieces that they were put together from. -/
theorem chunks_flatten (hn : 0 < n) (h : ∀ b ∈ bs, b.length = n) : chunks n bs.flatten = bs := by
  induction bs with
  | nil => rw [List.flatten_nil, chunks]
  | cons b bs ih =>
    rw [List.forall_mem_cons] at h
    rw [List.flatten_cons, chunks_append hn h.1, ih h.2]

theorem length_flatten (h : ∀ b ∈ bs, b.length = n) : bs.flatten.length = n * bs.length := by
  induction bs with
  | nil => rfl
  | cons b bs ih =>
    rw [List.forall_mem_cons] at h
    rw [List.flatten_cons, List.length_append, h.1, ih h.2, List.length_cons, Nat.mul_succ,
      Nat.add_comm]

theorem exists_flatten {m : Nat} {b : Bytes} (h : b.length = n * m) :
    ∃ bs : List Bytes, bs.flatten = b ∧ bs.length = m ∧ ∀ c ∈ bs, c.length = n := by
  induction m generalizing b with
  | zero => exact ⟨[], (List.eq_nil_of_length_eq_zero h).symm, rfl, List.forall_mem_nil _⟩
  | succ m ih =>
    rw [Nat.mul_succ] at h
    obtain ⟨bs, hbs, hlength, hall⟩ := ih (b := b.drop n) (by rw [List.length_drop, h]; omega)
    refine ⟨b.take n :: bs, ?_, by rw [List.length_cons, hlength], ?_⟩
    · rw [List.flatten_cons, hbs, List.take_append_drop]
    · rw [List.forall_mem_cons]
      exact ⟨List.length_take_of_le (by omega), hall⟩

end Pieces

end Strongbox.Bytes
