/-
  Strongbox.Proofs.Check — chains of checks, of which the first that does not pass decides.

  An operation runs its checks in their order and fails as the first one does that does not pass.
  So it is told by the list of its checks, each of them on its own: where two do not pass, the
  place in the list says which one is reported.
  - `Checked.bind`, `Checked.needed`, `Checked.guard`: a chain runs the checks of its parts.
-/

import Strongbox.Proofs.Outcome

namespace Strongbox

open Outcome

/-- The failures that a check may end with; one that passes has none. -/
def Check (ε : Type) : Type := ε → Prop

namespace Check

def fault (p : Prop) (failure : ε) : Check ε := fun e => p ∧ e = failure

/-- The failure of the first check that does not pass. -/
def First : List (Check ε) → ε → Prop
  | [], _ => False
  | c :: cs, e => c e ∨ (∀ e', ¬ c e') ∧ First cs e

def needing (v? : Option β) (missing : ε) (rest : β → List (Check ε)) : List (Check ε) :=
  fault (v? = none) missing :: v?.elim [] rest

theorem first_append {cs ds : List (Check ε)} {e : ε} :
    First (cs ++ ds) e ↔ First cs e ∨ (∀ e', ¬ First cs e') ∧ First ds e := by
  induction cs with
  | nil => simp [First]
  | cons c cs ih =>
    rw [List.cons_append, First, First, ih]
    by_cases hc : ∀ e', ¬ c e'
    · simp [First, hc]
    · obtain ⟨e', he'⟩ := Classical.not_forall_not.mp hc
      have hn : ¬ ∀ e', ¬ First (c :: cs) e' := fun h => h e' (.inl he')
      simp only [hc, hn, false_and, or_false]

theorem exists_fault {p : Prop} {failure : ε} : (∃ e, fault p failure e) ↔ p :=
  ⟨fun ⟨_, h⟩ => h.1, fun h => ⟨failure, h, rfl⟩⟩

/-- A chain fails when any of its checks does not pass. -/
theorem exists_first {cs : List (Check ε)} : (∃ e, First cs e) ↔ ∃ c ∈ cs, ∃ e, c e := by
  induction cs with
  | nil => exact ⟨nofun, nofun⟩
  | cons c cs ih =>
    simp only [List.mem_cons, exists_eq_or_imp, ← ih]
    constructor
    · rintro ⟨e, h | ⟨-, h⟩⟩
      · exact .inl ⟨e, h⟩
      · exact .inr ⟨e, h⟩
    · rintro (⟨e, h⟩ | ⟨e, h⟩)
      · exact ⟨e, .inl h⟩
      · by_cases hc : ∃ e', c e'
        · obtain ⟨e', h'⟩ := hc
          exact ⟨e', .inl h'⟩
        · exact ⟨e, .inr ⟨not_exists.mp hc, h⟩⟩

end Check

open Check

/-- The operation fails exactly as the first of the checks that does not pass. -/
def Checked (cs : List (Check ε)) (x : Except ε α) : Prop :=
  ∀ e, x = .error e ↔ First cs e

namespace Checked

variable {x : Except ε α} {c : Check ε} {cs : List (Check ε)}

theorem ok (a : α) : Checked [] (.ok a : Except ε α) := fun _ => ⟨nofun, nofun⟩

theorem of_fault {e₀ : ε} (h : ∀ e, c e ↔ e = e₀) :
    Checked (c :: cs) (.error e₀ : Except ε α) := by
  intro e
  constructor
  · rintro ⟨⟩
    exact .inl ((h e₀).mpr rfl)
  · rintro (he | ⟨hn, -⟩)
    · rw [(h e).mp he]
    · exact absurd ((h e₀).mpr rfl) (hn e₀)

theorem of_pass (h : ∀ e, ¬ c e) (hx : Checked cs x) : Checked (c :: cs) x := by
  intro e
  rw [hx e]
  constructor
  · exact fun he => .inr ⟨h, he⟩
  · rintro (he | ⟨-, he⟩)
    · exact absurd he (h e)
    · exact he

theorem bind {ds : List (Check ε)} {f : α → Except ε β} (hx : Checked cs x)
    (hf : ∀ a, x = .ok a → Checked ds (f a)) : Checked (cs ++ ds) (x >>= f) := by
  intro e
  rw [first_append]
  cases x with
  | error e₀ =>
    have h₀ : First cs e₀ := (hx e₀).mp rfl
    constructor
    · rintro ⟨⟩
      exact .inl h₀
    · rintro (he | ⟨hn, -⟩)
      · exact congrArg _ (Except.error.inj ((hx e).mpr he))
      · exact absurd h₀ (hn e₀)
  | ok a =>
    have hn (e' : ε) : ¬ First cs e' := fun he => nomatch (hx e').mpr he
    rw [ok_bind, hf a rfl e]
    constructor
    · exact fun he => .inr ⟨hn, he⟩
    · rintro (he | ⟨-, he⟩)
      · exact absurd he (hn e)
      · exact he

theorem single (hx : ∀ e, x = .error e ↔ c e) : Checked [c] x := by
  intro e
  rw [hx e, First, First, and_false, or_false]

theorem step {f : α → Except ε β} (hx : ∀ e, x = .error e ↔ c e)
    (hf : ∀ a, x = .ok a → Checked cs (f a)) : Checked (c :: cs) (x >>= f) :=
  (single hx).bind hf

/-- What is made of the result makes no failure. -/
theorem map (hx : Checked cs x) (f : α → β) : Checked cs (x >>= fun a => .ok (f a)) := by
  have h := hx.bind fun a _ => ok (f a)
  rwa [List.append_nil] at h

/-- A step that looks for what the rest needs. -/
theorem needed {v? : Option β} {missing : ε} {rest : β → List (Check ε)} {x : Except ε β}
    {f : β → Except ε α} (hx : x = v?.elim (.error missing) .ok)
    (hf : ∀ v, v? = some v → Checked (rest v) (f v)) :
    Checked (needing v? missing rest) (x >>= f) := by
  subst hx
  cases v? with
  | none => exact of_fault fun e => and_iff_right rfl
  | some v => exact of_pass (fun e he => nomatch he.1) (hf v rfl)

theorem guard {p : Prop} [Decidable p] {failure : ε} (h : ¬ p → Checked cs x) :
    Checked (fault p failure :: cs) (if p then .error failure else x) := by
  by_cases hp : p
  · rw [if_pos hp]
    exact of_fault fun e => and_iff_right hp
  · rw [if_neg hp]
    exact of_pass (fun e he => hp he.1) (h hp)

theorem grant {p : Prop} [Decidable p] {failure : ε} (h : p → Checked cs x) :
    Checked (fault (¬ p) failure :: cs) (if p then x else .error failure) := by
  rw [← ite_not]
  exact guard fun hp => h (Decidable.not_not.mp hp)

/-- A check that passes can be left out. -/
theorem tail (hx : Checked (c :: cs) x) (h : ∀ e, ¬ c e) : Checked cs x := by
  intro e
  rw [hx e, First]
  constructor
  · rintro (he | ⟨-, he⟩)
    · exact absurd he (h e)
    · exact he
  · exact fun he => .inr ⟨h, he⟩

end Checked

end Strongbox
