/-
  Strongbox.Number.Power — powers of a number modulo another.
  - `powMod_eq`: the value is the remainder of the power.
-/

namespace Strongbox.Number

/-- `b ^ e % m`, with one squaring for each bit of `e`. -/
def powMod (m b e : Nat) : Nat :=
  if e = 0 then 1 % m
  else
    let half := powMod m b (e / 2)
    if e % 2 = 0 then half * half % m else half * half % m * b % m
termination_by e
decreasing_by omega

theorem powMod_eq (m b e : Nat) : powMod m b e = Nat.pow b e % m := by
  show powMod m b e = b ^ e % m
  fun_induction powMod m b e with
  | case1 => rfl
  | case2 e he half hz ih =>
    have : e = e / 2 + e / 2 := by omega
    rw [show half = powMod m b (e / 2) from rfl, ih, ← Nat.mul_mod, ← Nat.pow_add, ← this]
  | case3 e he half hz ih =>
    have : e = e / 2 + e / 2 + 1 := by omega
    rw [show half = powMod m b (e / 2) from rfl, ih, ← Nat.mul_mod, ← Nat.pow_add, Nat.mod_mul_mod,
      ← Nat.pow_succ, Nat.succ_eq_add_one, ← this]

end Strongbox.Number
