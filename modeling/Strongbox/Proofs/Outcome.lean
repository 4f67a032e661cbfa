/-
  Strongbox.Proofs.Outcome — what a step that succeeded is made of.

  Operations are chains of steps that can fail. A chain succeeds exactly when each step does,
  and telling a failure otherwise changes no success.
-/

import Strongbox.Resolution

namespace Strongbox.Outcome

@[simp] theorem ok_bind (a : α) (f : α → Except ε β) : (Except.ok a >>= f) = f a := rfl

/-- A chain succeeds exactly when its first step does and then the rest. -/
theorem bind_eq_ok {x : Except ε α} {f : α → Except ε β} {b : β} :
    (x >>= f) = .ok b ↔ ∃ a, x = .ok a ∧ f a = .ok b := by
  constructor
  · intro h
    cases x with
    | error e => cases h
    | ok a => exact ⟨a, rfl, h⟩
  · intro h
    obtain ⟨a, rfl, h⟩ := h
    exact h

theorem bind_eq_error {x : Except ε α} {f : α → Except ε β} {e : ε} :
    (x >>= f) = .error e ↔ x = .error e ∨ ∃ a, x = .ok a ∧ f a = .error e := by
  cases x with
  | error e' =>
    constructor
    · intro h
      cases h
      exact .inl rfl
    · rintro (h | ⟨a, ha, -⟩)
      · cases h
        rfl
      · cases ha
  | ok a =>
    constructor
    · intro h
      exact .inr ⟨a, rfl, h⟩
    · rintro (h | ⟨b, hb, h⟩)
      · cases h
      · cases hb
        exact h

theorem bind_of_ok {x : Except ε α} {a : α} (h : x = .ok a) (f : α → Except ε β) :
    (x >>= f) = f a := by
  rw [h, ok_bind]

theorem mapError_eq_ok {x : Except ε α} {f : ε → ε'} {a : α} :
    x.mapError f = .ok a ↔ x = .ok a := by
  constructor
  · intro h
    cases x with
    | error e => cases h
    | ok b =>
      cases h
      rfl
  · intro h
    subst h
    rfl

theorem mapError_eq_error {x : Except ε α} {f : ε → ε'} {e : ε'} :
    x.mapError f = .error e ↔ ∃ cause, x = .error cause ∧ e = f cause := by
  constructor
  · intro h
    cases x with
    | error cause =>
      cases h
      exact ⟨cause, rfl, rfl⟩
    | ok a => cases h
  · rintro ⟨cause, rfl, rfl⟩
    rfl

/-! ## Kinds of failures -/

def FailsAs (p : ε → Prop) (x : Except ε α) : Prop := ∀ e, x = .error e → p e

theorem failsAs_ok {p : ε → Prop} (a : α) : FailsAs p (.ok a) := nofun

theorem failsAs_error {p : ε → Prop} {e : ε} : FailsAs p (.error e : Except ε α) ↔ p e := by
  constructor
  · exact fun h => h e rfl
  · rintro h _ ⟨⟩
    exact h

theorem FailsAs.bind {p : ε → Prop} {x : Except ε α} {f : α → Except ε β} (hx : FailsAs p x)
    (hf : ∀ a, FailsAs p (f a)) : FailsAs p (x >>= f) := by
  intro e h
  rcases bind_eq_error.mp h with h | ⟨a, -, h⟩
  · exact hx e h
  · exact hf a e h

/-! ## Guards -/

variable {p : Prop} [Decidable p] {e : ε} {x a : α}

/-- A guard that refuses lets exactly its result through, where the condition fails. -/
theorem ite_error_eq_ok : (if p then .error e else .ok x : Except ε α) = .ok a ↔ ¬ p ∧ a = x := by
  split
  · rename_i h
    constructor
    · intro he
      cases he
    · intro h
      obtain ⟨hn, -⟩ := h
      exact absurd h hn
  · rename_i h
    constructor
    · intro he
      cases he
      exact ⟨h, rfl⟩
    · intro h
      obtain ⟨-, rfl⟩ := h
      rfl

theorem ite_ok_eq_ok : (if p then .ok x else .error e : Except ε α) = .ok a ↔ p ∧ a = x := by
  rw [← ite_not, ite_error_eq_ok, Decidable.not_not]

theorem ite_error_eq_error {e' : ε} :
    (if p then .error e else .ok x : Except ε α) = .error e' ↔ p ∧ e' = e := by
  split
  · rename_i h
    rw [Except.error.injEq, eq_comm, and_iff_right h]
  · rename_i h
    exact ⟨nofun, fun he => absurd he.1 h⟩

theorem ite_ok_eq_error {e' : ε} :
    (if p then .ok x else .error e : Except ε α) = .error e' ↔ ¬ p ∧ e' = e := by
  rw [← ite_not, ite_error_eq_error]

end Strongbox.Outcome

namespace Strongbox.Resolution

theorem require_eq_ok {r : Resolution α} {what : String} {a : α} :
    r.require what = .ok a ↔ r = .found a := by
  constructor
  · intro h
    cases r with
    | found b =>
      cases h
      rfl
    | notFound k reason => cases h
    | accessDenied k reason => cases h
  · intro h
    subst h
    rfl

theorem require_bind_eq_ok {x : Except ServiceError (Resolution α)} {what : String}
    {f : α → Except ServiceError β} {b : β} :
    (x >>= fun r => r.require what >>= f) = .ok b ↔ ∃ a, x = .ok (.found a) ∧ f a = .ok b := by
  rw [Outcome.bind_eq_ok]
  constructor
  · intro h
    obtain ⟨r, hr, h⟩ := h
    obtain ⟨a, ha, h⟩ := Outcome.bind_eq_ok.mp h
    rw [require_eq_ok.mp ha] at hr
    exact ⟨a, hr, h⟩
  · intro h
    obtain ⟨a, ha, h⟩ := h
    exact ⟨.found a, ha, Outcome.bind_eq_ok.mpr ⟨a, rfl, h⟩⟩

end Strongbox.Resolution
