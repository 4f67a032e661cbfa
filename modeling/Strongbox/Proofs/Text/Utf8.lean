/-
  Strongbox.Proofs.Text.Utf8 — the octets of a text have no defect.

  Each character is written by one well-formed sequence of Unicode's table 3-7. The table is
  checked by the ranges of its lead octets and of the octets that may follow them.
  - `defect?_ofString`: the scan of a text's octets reaches the end.
  - `defect?_append_eq_none`: octets of ASCII in front of others make no defect.
-/

import Strongbox.Proofs.Text.Octets
import Strongbox.Text.Utf8

namespace Strongbox.Text.Utf8

/-! ## The table -/

theorem width_one : ∀ n < 128, width (UInt8.ofNat n) = 1 := by decide

theorem width_two : ∀ n < 32, 2 ≤ n → width (UInt8.ofNat (n + 192)) = 2 := by decide

theorem width_three : ∀ n < 16, width (UInt8.ofNat (n + 224)) = 3 := by decide

theorem width_four : ∀ n < 5, width (UInt8.ofNat (n + 240)) = 4 := by decide

theorem isTail_ofNat : ∀ n < 64, isTail (UInt8.ofNat (n + 128)) = true := by decide

/-- No sequence of three octets is one of two written longer, and none is a surrogate. -/
theorem isSecond_three : ∀ n < 16, ∀ m < 64, (n = 0 → 32 ≤ m) → (n = 13 → m < 32) →
    isSecond (UInt8.ofNat (n + 224)) (UInt8.ofNat (m + 128)) = true := by decide

/-- No sequence of four octets is one of three written longer, and none is past U+10FFFF. -/
theorem isSecond_four : ∀ n < 5, ∀ m < 64, (n = 0 → 16 ≤ m) → (n = 4 → m < 16) →
    isSecond (UInt8.ofNat (n + 240)) (UInt8.ofNat (m + 128)) = true := by decide

section Sequences

variable {a b c d : UInt8} {rest : Bytes}

theorem step_two (ha : width a = 2) (hb : isTail b = true) : step a (b :: rest) = .ok 2 := by
  simp [step, ha, hb]

theorem step_three (ha : width a = 3) (hb : isSecond a b = true) (hc : isTail c = true) :
    step a (b :: c :: rest) = .ok 3 := by
  simp [step, ha, hb, hc]

theorem step_four (ha : width a = 4) (hb : isSecond a b = true) (hc : isTail c = true)
    (hd : isTail d = true) : step a (b :: c :: d :: rest) = .ok 4 := by
  simp [step, ha, hb, hc, hd]

end Sequences

/-! ## The scan -/

/-- The octets of a character are one sequence, whatever follows. -/
theorem step_utf8EncodeChar (c : Char) :
    ∃ a tail, String.utf8EncodeChar c = a :: tail ∧
      ∀ rest, step a (tail ++ rest) = .ok (tail.length + 1) := by
  have hv : c.val.toNat < 55296 ∨ 57343 < c.val.toNat ∧ c.val.toNat < 1114112 := c.valid
  generalize hn : c.val.toNat = n at hv
  simp only [String.utf8EncodeChar, hn]
  by_cases h1 : n ≤ 127
  · rw [if_pos h1]
    exact ⟨_, _, rfl, fun rest => step.eq_1 _ _ (width_one n (by omega))⟩
  rw [if_neg h1]
  by_cases h2 : n ≤ 2047
  · rw [if_pos h2]
    exact ⟨_, _, rfl, fun rest => step_two (width_two (n / 64 % 32) (by omega) (by omega))
      (isTail_ofNat (n % 64) (by omega))⟩
  rw [if_neg h2]
  by_cases h3 : n ≤ 65535
  · rw [if_pos h3]
    exact ⟨_, _, rfl, fun rest => step_three (width_three (n / 4096 % 16) (by omega))
      (isSecond_three (n / 4096 % 16) (by omega) (n / 64 % 64) (by omega) (by omega) (by omega))
      (isTail_ofNat (n % 64) (by omega))⟩
  rw [if_neg h3]
  exact ⟨_, _, rfl, fun rest => step_four (width_four (n / 262144 % 8) (by omega))
    (isSecond_four (n / 262144 % 8) (by omega) (n / 4096 % 64) (by omega) (by omega) (by omega))
    (isTail_ofNat (n / 64 % 64) (by omega)) (isTail_ofNat (n % 64) (by omega))⟩

theorem defectFrom_ofString (cs : List Char) (index : Nat) :
    defectFrom index (cs.flatMap String.utf8EncodeChar) = none := by
  induction cs generalizing index with
  | nil => rw [List.flatMap_nil, defectFrom]
  | cons c cs ih =>
    obtain ⟨a, tail, hc, hs⟩ := step_utf8EncodeChar c
    rw [List.flatMap_cons, hc, List.cons_append, defectFrom, hs]
    simp only [Nat.add_sub_cancel, List.drop_left, ih]

@[simp] theorem defect?_ofString (s : String) : defect? (Bytes.ofString s) = none := by
  rw [defect?, Bytes.ofString_eq]
  exact defectFrom_ofString _ 0

/-! ## Octets of ASCII -/

theorem width_of_ascii {a : UInt8} (h : a.toNat < 128) : width a = 1 := by
  have := width_one a.toNat h
  rwa [UInt8.ofNat_toNat] at this

theorem defectFrom_cons_of_ascii {a : UInt8} (h : a.toNat < 128) (index : Nat) (b : Bytes) :
    defectFrom index (a :: b) = defectFrom (index + 1) b := by
  rw [defectFrom, step.eq_1 _ _ (width_of_ascii h)]
  simp

/-- Whether there is a defect does not hang on where the count begins. -/
theorem defectFrom_eq_none_iff (index index' : Nat) (b : Bytes) :
    defectFrom index b = none ↔ defectFrom index' b = none := by
  induction h : b.length using Nat.strongRecOn generalizing b index index' with
  | ind n ih =>
    cases b with
    | nil => simp [defectFrom]
    | cons a rest =>
      rw [defectFrom, defectFrom]
      cases step a rest with
      | broken k => simp
      | ok k =>
        refine ih (rest.drop (k - 1)).length ?_ _ _ _ rfl
        rw [← h, List.length_drop, List.length_cons]
        omega

theorem defect?_append_eq_none {w : Bytes} (hw : ∀ x ∈ w, x.toNat < 128) (b : Bytes) :
    defect? (w ++ b) = none ↔ defect? b = none := by
  rw [defect?, defect?]
  induction w with
  | nil => rfl
  | cons x w ih =>
    rw [List.forall_mem_cons] at hw
    rw [List.cons_append, defectFrom_cons_of_ascii hw.1, defectFrom_eq_none_iff (0 + 1) 0]
    exact ih hw.2

theorem defect?_of_ascii {b : Bytes} (h : ∀ x ∈ b, x.toNat < 128) : defect? b = none := by
  rw [← List.append_nil b, defect?_append_eq_none h, defect?, defectFrom]

end Strongbox.Text.Utf8
