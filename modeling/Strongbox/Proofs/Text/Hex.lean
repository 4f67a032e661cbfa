/-
  Strongbox.Proofs.Text.Hex — which texts are read as hexadecimal, and as which octets.

  A text spells octets when it has two digits for each of them. The reader takes more than that:
  in the first place of a pair a plus sign counts as the digit zero. So it reads a text as the
  octets that are spelled with zeros for the plus signs.
  - `decode_eq_ok_iff`: what is read, exactly.
  - `spells_iff`: a text spells octets when it is read as them and has no plus sign.
  - `length_digits`, `isUpperDigit_of_mem`: the form of the text of some octets.
  - `spells_iff_toUpper`: a text spells octets when it is their text in upper case.
-/

import Strongbox.Proofs.Text.Name
import Strongbox.Proofs.Thumbprint
import Strongbox.Text.Hex

namespace Strongbox.Hex

/-! ## Digits -/

def IsDigit (c : Char) : Prop :=
  ('0' ≤ c ∧ c ≤ '9') ∨ ('a' ≤ c ∧ c ≤ 'f') ∨ ('A' ≤ c ∧ c ≤ 'F')

instance (c : Char) : Decidable (IsDigit c) := inferInstanceAs (Decidable (_ ∨ _))

def IsUpperDigit (c : Char) : Prop := ('0' ≤ c ∧ c ≤ '9') ∨ ('A' ≤ c ∧ c ≤ 'F')

instance (c : Char) : Decidable (IsUpperDigit c) := inferInstanceAs (Decidable (_ ∨ _))

theorem IsUpperDigit.isDigit {c : Char} (h : IsUpperDigit c) : IsDigit c := by
  rcases h with h | h
  · exact .inl h
  · exact .inr (.inr h)

theorem isDigit_ascii : ∀ k : Fin 128, ((digit? (Char.ofNat k)).isSome ↔ IsDigit (Char.ofNat k)) ∧
    ∀ n ∈ digit? (Char.ofNat k), n < 16 ∧
      (Char.ofNat k).toUpper = (Nat.digitChar n).toUpper := by decide

theorem toUpper_ascii : ∀ k : Fin 128,
    IsUpperDigit (Char.ofNat k).toUpper ↔ IsDigit (Char.ofNat k) := by decide

theorem lt_of_isDigit {c : Char} (h : IsDigit c) : c.toNat < 128 := by
  have hle {d : Char} (h : c ≤ d) (hd : d.toNat < 128) : c.toNat < 128 := Nat.lt_of_le_of_lt h hd
  rcases h with h | h | h
  · exact hle h.2 (by decide)
  · exact hle h.2 (by decide)
  · exact hle h.2 (by decide)

theorem digit?_eq_some {c : Char} {n : Nat} :
    digit? c = some n ↔ IsDigit c ∧ n < 16 ∧ c.toUpper = (Nat.digitChar n).toUpper := by
  constructor
  · intro h
    have hk := isDigit_ascii ⟨c.toNat, (digit?_bounds h).2⟩
    simp only [Char.ofNat_toNat, h] at hk
    exact ⟨hk.1.mp rfl, hk.2 n rfl⟩
  · intro h
    obtain ⟨hc, hn, hu⟩ := h
    have hk := isDigit_ascii ⟨c.toNat, lt_of_isDigit hc⟩
    simp only [Char.ofNat_toNat] at hk
    obtain ⟨m, hm⟩ := Option.isSome_iff_exists.mp (hk.1.mpr hc)
    obtain ⟨hlt, hmu⟩ := hk.2 m hm
    -- Digits in upper case are told apart by their values.
    have h₁ := digit?_toUpper_digitChar ⟨m, hlt⟩
    have h₂ := digit?_toUpper_digitChar ⟨n, hn⟩
    rw [← hmu, hu, h₂] at h₁
    rw [hm]
    exact h₁.symm

theorem isUpperDigit_toUpper {c : Char} : IsUpperDigit c.toUpper ↔ IsDigit c := by
  by_cases h : c.toNat < 128
  · have hk := toUpper_ascii ⟨c.toNat, h⟩
    rwa [Char.ofNat_toNat] at hk
  · rw [Text.toUpper_char_of_not_ascii h]
    exact ⟨fun hd => absurd (lt_of_isDigit hd.isDigit) h, fun hd => absurd (lt_of_isDigit hd) h⟩

/-! ## Texts of digits -/

/-- The text has two digits for each of the octets, and they are the digits of the octets up to
their case. -/
structure Spells (s : String) (b : Bytes) : Prop where
  digits : ∀ c ∈ s.toList, IsDigit c
  length : s.toList.length = 2 * b.length
  upper : encodeUpper b = s.toUpper

inductive Pairs : List Char → Bytes → Prop where
  | nil : Pairs [] []
  | cons {c d : Char} {cs : List Char} {x : UInt8} {b : Bytes} : digit? c = some (x.toNat / 16) →
    digit? d = some (x.toNat % 16) → Pairs cs b → Pairs (c :: d :: cs) (x :: b)

theorem length_digits (b : Bytes) : (b.flatMap octetDigits).length = 2 * b.length := by
  induction b with
  | nil => rfl
  | cons x b ih =>
    rw [List.flatMap_cons, List.length_append, ih, List.length_cons, octetDigits, List.length_cons,
      List.length_cons, List.length_nil]
    omega

theorem pairs_iff_digits {cs : List Char} {b : Bytes} :
    Pairs cs b ↔ (∀ c ∈ cs, IsDigit c) ∧
      cs.map Char.toUpper = (b.flatMap octetDigits).map Char.toUpper := by
  constructor
  · intro h
    induction h with
    | nil => exact ⟨nofun, rfl⟩
    | cons hc hd _ ih =>
      obtain ⟨hcd, -, hcu⟩ := digit?_eq_some.mp hc
      obtain ⟨hdd, -, hdu⟩ := digit?_eq_some.mp hd
      refine ⟨List.forall_mem_cons.mpr ⟨hcd, List.forall_mem_cons.mpr ⟨hdd, ih.1⟩⟩, ?_⟩
      rw [List.map_cons, List.map_cons, hcu, hdu, ih.2]
      rfl
  · intro h
    obtain ⟨hdigits, hupper⟩ := h
    induction b generalizing cs with
    | nil =>
      obtain rfl := List.map_eq_nil_iff.mp hupper
      exact .nil
    | cons x b ih =>
      rw [List.flatMap_cons, octetDigits, List.map_append, List.map_cons, List.map_cons] at hupper
      obtain ⟨c, _, rfl, hcu, hupper⟩ := List.map_eq_cons_iff.mp hupper
      obtain ⟨d, cs, rfl, hdu, hupper⟩ := List.map_eq_cons_iff.mp hupper
      rw [List.forall_mem_cons, List.forall_mem_cons] at hdigits
      have hx := x.toNat_lt
      exact .cons (digit?_eq_some.mpr ⟨hdigits.1, by omega, hcu⟩)
        (digit?_eq_some.mpr ⟨hdigits.2.1, by omega, hdu⟩) (ih hdigits.2.2 hupper)

theorem spells_iff_pairs {s : String} {b : Bytes} : Spells s b ↔ Pairs s.toList b := by
  have hu : encodeUpper b = s.toUpper ↔
      s.toList.map Char.toUpper = (b.flatMap octetDigits).map Char.toUpper := by
    rw [Text.toUpper_eq, encodeUpper, String.ofList_inj, eq_comm]
  rw [pairs_iff_digits]
  constructor
  · intro h
    exact ⟨h.digits, hu.mp h.upper⟩
  · intro h
    obtain ⟨hdigits, hupper⟩ := h
    have hlength := congrArg List.length hupper
    rw [List.length_map, List.length_map, length_digits] at hlength
    exact ⟨hdigits, hlength, hu.mpr hupper⟩

/-! ## Reading -/

def unsignedChar (c : Char) : Char := if c = '+' then '0' else c

def unsigned (s : String) : String := String.ofList (s.toList.map unsignedChar)

/-- No plus sign stands in the second place of a pair. -/
def SignsLead (cs : List Char) : Prop := ∀ i, cs[2 * i + 1]? ≠ some '+'

theorem signsLead_cons {c d : Char} {cs : List Char} :
    SignsLead (c :: d :: cs) ↔ d ≠ '+' ∧ SignsLead cs := by
  constructor
  · intro h
    exact ⟨fun hd => h 0 (congrArg some hd), fun i => h (i + 1)⟩
  · intro h i
    cases i with
    | zero => exact fun hd => h.1 (Option.some.inj hd)
    | succ i => exact h.2 i

/-- A pair is read by its two digits, the first of which may be a plus sign. -/
theorem pair?_eq_some_iff {c d : Char} {x : UInt8} : pair? c d = some x ↔
    digit? (unsignedChar c) = some (x.toNat / 16) ∧ digit? (unsignedChar d) = some (x.toNat % 16) ∧
      d ≠ '+' := by
  have hplus : digit? '+' = none := by decide
  have hzero : digit? '0' = some 0 := by decide
  have hvalue {m n : Nat} (hm : m < 16) (hn : n < 16) : UInt8.ofNat (16 * m + n) = x ↔
      m = x.toNat / 16 ∧ n = x.toNat % 16 := by
    rw [← UInt8.toNat_inj, UInt8.toNat_ofNat_of_lt' (show 16 * m + n < 256 by omega)]
    omega
  unfold unsignedChar
  by_cases hd : d = '+'
  · rw [hd, pair?, hplus]
    constructor
    · intro h
      cases h
    · intro h
      exact absurd rfl h.2.2
  rw [if_neg hd, pair?]
  cases hl : digit? d with
  | none => simp
  | some l =>
    have hl16 := (digit?_eq_some.mp hl).2.1
    by_cases hc : c = '+'
    · have hv := hvalue (m := 0) (by decide) hl16
      rw [Nat.mul_zero, Nat.zero_add] at hv
      simp [hc, hd, hzero, hv]
    · cases hh : digit? c with
      | none => simp [hc, hh]
      | some m =>
        simp only [if_neg hc, hh, Option.map_some, Option.some.injEq, ne_eq, hd, not_false_eq_true,
          and_true, hvalue (digit?_eq_some.mp hh).2.1 hl16]

theorem decodePairs_eq_ok {position : Nat} {cs : List Char} {b : Bytes} :
    decodePairs position cs = .ok b ↔ Pairs (cs.map unsignedChar) b ∧ SignsLead cs := by
  fun_induction decodePairs position cs generalizing b with
  | case1 position =>
    constructor
    · intro h
      cases h
      exact ⟨.nil, nofun⟩
    · intro h
      obtain ⟨⟨⟩, -⟩ := h
      rfl
  | case2 position c =>
    constructor
    · intro h
      cases h
    · intro h
      obtain ⟨⟨⟩, -⟩ := h
  | case3 position c d cs hp =>
    refine ⟨nofun, fun h => ?_⟩
    obtain ⟨hpairs, hlead⟩ := h
    rw [List.map_cons, List.map_cons] at hpairs
    cases hpairs with
    | cons hc hd _ =>
      rw [pair?_eq_some_iff.mpr ⟨hc, hd, (signsLead_cons.mp hlead).1⟩] at hp
      cases hp
  | case4 position c d cs x hp ih =>
    obtain ⟨hc, hd, hne⟩ := pair?_eq_some_iff.mp hp
    rw [signsLead_cons, List.map_cons, List.map_cons]
    constructor
    · intro h
      cases hr : decodePairs (position + 2) cs with
      | error e =>
        rw [hr] at h
        cases h
      | ok b' =>
        rw [hr] at h
        cases h
        obtain ⟨hpairs, hlead⟩ := ih.mp hr
        exact ⟨.cons hc hd hpairs, hne, hlead⟩
    · intro h
      obtain ⟨hpairs, -, hlead⟩ := h
      cases hpairs with
      | @cons _ _ _ y b' hc' hd' hpairs =>
        -- The two digits are those of one octet only.
        obtain rfl : x = y := by
          rw [hc] at hc'
          rw [hd] at hd'
          have h₁ := Option.some.inj hc'
          have h₂ := Option.some.inj hd'
          rw [← UInt8.toNat_inj]
          omega
        rw [ih.mpr ⟨hpairs, hlead⟩]
        rfl

theorem length_of_pairs {cs : List Char} {b : Bytes} (h : Pairs cs b) :
    cs.length = 2 * b.length := by
  have hl := congrArg List.length (pairs_iff_digits.mp h).2
  rwa [List.length_map, List.length_map, length_digits] at hl

/-- The characters of a text that is read are ASCII, plus signs included. -/
theorem lt_of_pairs_unsigned {cs : List Char} {b : Bytes} (h : Pairs (cs.map unsignedChar) b) :
    ∀ c ∈ cs, c.toNat < 128 := by
  intro c hc
  by_cases hplus : c = '+'
  · rw [hplus]
    decide
  · have hd := (pairs_iff_digits.mp h).1 _ (List.mem_map_of_mem hc)
    rw [unsignedChar, if_neg hplus] at hd
    exact lt_of_isDigit hd

/-- A text is read as the octets that it spells with zeros for its plus signs, each of which must
stand in the first place of a pair. -/
theorem decode_eq_ok_iff {s : String} {b : Bytes} :
    decode s = .ok b ↔ Spells (unsigned s) b ∧ SignsLead s.toList := by
  rw [spells_iff_pairs, unsigned, String.toList_ofList, ← @decodePairs_eq_ok 0]
  constructor
  · intro h
    rw [decode] at h
    split at h
    · cases h
    · split at h
      · cases h
      · exact h
  · intro h
    have hpairs := (decodePairs_eq_ok.mp h).1
    have hlength := length_of_pairs hpairs
    rw [List.length_map] at hlength
    rwa [decode_of_ascii (lt_of_pairs_unsigned hpairs) (by omega)]

theorem unsigned_eq_self {s : String} (h : '+' ∉ s.toList) : unsigned s = s := by
  have hm : s.toList.map unsignedChar = s.toList.map id :=
    List.map_congr_left fun c hc => if_neg (ne_of_mem_of_not_mem hc h)
  rw [unsigned, hm, List.map_id, String.ofList_toList]

/-- A text spells octets exactly when it is read as them and has no plus sign. -/
theorem spells_iff {s : String} {b : Bytes} :
    Spells s b ↔ decode s = .ok b ∧ '+' ∉ s.toList := by
  rw [decode_eq_ok_iff]
  constructor
  · intro h
    have hplus : '+' ∉ s.toList := fun hm => absurd (h.digits _ hm) (by decide)
    rw [unsigned_eq_self hplus]
    exact ⟨⟨h, fun i hi => hplus (List.mem_of_getElem? hi)⟩, hplus⟩
  · intro h
    obtain ⟨⟨hspells, -⟩, hplus⟩ := h
    rwa [unsigned_eq_self hplus] at hspells

theorem isUpperDigit_toUpper_digitChar :
    ∀ n : Fin 16, IsUpperDigit (Nat.digitChar n).toUpper := by decide

theorem isUpperDigit_of_mem {b : Bytes} {c : Char} (h : c ∈ (encodeUpper b).toList) :
    IsUpperDigit c := by
  obtain ⟨n, rfl⟩ := exists_of_mem_encodeUpper h
  exact isUpperDigit_toUpper_digitChar n

theorem length_encodeUpper (b : Bytes) : (encodeUpper b).toList.length = 2 * b.length := by
  rw [encodeUpper, String.toList_ofList, List.length_map, length_digits]

/-- The form of a text of digits is settled by the text in upper case. -/
theorem spells_iff_toUpper {s : String} {b : Bytes} : Spells s b ↔ s.toUpper = encodeUpper b := by
  constructor
  · intro h
    exact h.upper.symm
  · intro h
    have hchars : s.toList.map Char.toUpper = (encodeUpper b).toList := by
      rw [← h, Text.toUpper_eq, String.toList_ofList]
    refine ⟨?_, ?_, h.symm⟩
    · intro c hc
      have hmem : c.toUpper ∈ (encodeUpper b).toList := hchars ▸ List.mem_map_of_mem hc
      exact isUpperDigit_toUpper.mp (isUpperDigit_of_mem hmem)
    · rw [← length_encodeUpper, ← hchars, List.length_map]

theorem toUpper_encodeLower (b : Bytes) : (encodeLower b).toUpper = encodeUpper b := by
  rw [Text.toUpper_eq, encodeLower, String.toList_ofList, encodeUpper]

end Strongbox.Hex
