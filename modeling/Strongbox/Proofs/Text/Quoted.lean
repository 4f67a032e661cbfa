/-
  Strongbox.Proofs.Text.Quoted — a quoted text tells the text.

  A character is quoted as itself, as a backslash and a letter, or as its code point between
  braces. What follows a backslash tells the three forms apart and where each of them ends, so a
  quoted text falls into its characters in one way.
  - `eq_of_codePoint_eq`: a code point tells the character.
  - `quoted_inj`: a quoted text tells the text.
-/

import Mathlib.Algebra.Ring.Nat
import Strongbox.Text.Quoted

namespace Strongbox.Text

/-! ## Code points -/

theorem digitChar_inj : ∀ m n : Fin 16, Nat.digitChar m = Nat.digitChar n → m = n := by decide

theorem digitChar_ne_brace : ∀ n : Fin 16, Nat.digitChar n ≠ '\x7d' := by decide

/-- Hexadecimal digits tell the number, when there are enough of them. -/
theorem eq_of_hexDigitsRev_eq {fuel m n : Nat} (hm : m < 16 ^ fuel) (hn : n < 16 ^ fuel)
    (h : hexDigitsRev fuel m = hexDigitsRev fuel n) : m = n := by
  induction fuel generalizing m n with
  | zero => omega
  | succ fuel ih =>
    rw [hexDigitsRev, hexDigitsRev, List.cons.injEq] at h
    obtain ⟨hdigit, hmore⟩ := h
    have hlast : m % 16 = n % 16 :=
      congrArg Fin.val (digitChar_inj ⟨m % 16, by omega⟩ ⟨n % 16, by omega⟩ hdigit)
    have hne {k : Nat} (hk : ¬ k < 16) (hf : k < 16 ^ (fuel + 1)) :
        hexDigitsRev fuel (k / 16) ≠ [] := by
      cases fuel with
      | zero => omega
      | succ fuel => exact List.cons_ne_nil _ _
    split at hmore
    · split at hmore
      · omega
      · rename_i hbig
        exact absurd hmore.symm (hne hbig hn)
    · rename_i hbig
      split at hmore
      · exact absurd hmore (hne hbig hm)
      · have hhigh : m / 16 = n / 16 := by
          rw [Nat.pow_succ] at hm hn
          exact ih (by omega) (by omega) hmore
        omega

theorem ne_brace_of_mem_hexDigitsRev {fuel n : Nat} {c : Char} (h : c ∈ hexDigitsRev fuel n) :
    c ≠ '\x7d' := by
  induction fuel generalizing n with
  | zero => cases h
  | succ fuel ih =>
    rw [hexDigitsRev] at h
    rcases List.mem_cons.mp h with rfl | h
    · exact digitChar_ne_brace ⟨n % 16, Nat.mod_lt _ (by decide)⟩
    · split at h
      · cases h
      · exact ih h

theorem eq_of_codePoint_eq {c d : Char} (h : codePoint c = codePoint d) : c = d := by
  have hlt (c : Char) : c.toNat < 16 ^ 8 :=
    Nat.lt_of_lt_of_le (UInt32.toNat_lt c.val) (Nat.le_of_eq (by decide))
  exact Char.toNat_inj.mp (eq_of_hexDigitsRev_eq (hlt c) (hlt d) (List.reverse_inj.mp h))

/-- The brace behind a code point ends it. -/
theorem eq_of_codePoint_append {c d : Char} {x y : List Char}
    (h : codePoint c ++ '\x7d' :: x = codePoint d ++ '\x7d' :: y) : c = d ∧ x = y := by
  have htake (c : Char) (x : List Char) :
      (codePoint c ++ '\x7d' :: x).takeWhile (· != '\x7d') = codePoint c := by
    rw [List.takeWhile_append_of_pos, List.takeWhile_cons_of_neg (by decide), List.append_nil]
    intro e he
    exact bne_iff_ne.mpr (ne_brace_of_mem_hexDigitsRev (List.mem_reverse.mp he))
  obtain rfl : c = d := eq_of_codePoint_eq (by rw [← htake c x, h, htake])
  exact ⟨rfl, (List.cons.inj (List.append_cancel_left h)).2⟩

/-! ## Characters -/

def letters : List (Nat × Char) :=
  [(0, '0'), (9, 't'), (10, 'n'), (13, 'r'), (34, '\x22'), (92, '\\')]

inductive QuotedAs (c : Char) : List Char → Prop where
  | itself (h : c ≠ '\\') : QuotedAs c [c]
  | letter (e : Char) (h : (c.toNat, e) ∈ letters) : QuotedAs c ['\\', e]
  | codePoint : QuotedAs c ('\\' :: 'u' :: '\x7b' :: (codePoint c ++ ['\x7d']))

theorem quotedAs_quotedChar (c : Char) : QuotedAs c (quotedChar c) := by
  have hsame {n : Nat} {d : Char} (hn : c.toNat = n) (hd : d.toNat = n) : c = d :=
    Char.toNat_inj.mp (hn.trans hd.symm)
  unfold quotedChar
  split
  · rename_i hn
    exact .letter _ (by rw [hn]; decide)
  · rename_i hn
    exact .letter _ (by rw [hn]; decide)
  · rename_i hn
    exact .letter _ (by rw [hn]; decide)
  · rename_i hn
    exact .letter _ (by rw [hn]; decide)
  · rename_i hn
    obtain rfl : c = '\x22' := hsame hn rfl
    exact .letter _ (by decide)
  · rename_i hn
    obtain rfl : c = '\\' := hsame hn rfl
    exact .letter _ (by decide)
  · rename_i hslash
    split
    · exact .codePoint
    · refine .itself fun h => hslash ?_
      rw [h]
      rfl

theorem eq_of_mem_letters : ∀ p ∈ letters, ∀ q ∈ letters, p.2 = q.2 → p.1 = q.1 := by decide

theorem letter_ne_u : ∀ p ∈ letters, p.2 ≠ 'u' := by decide

/-- Whatever follows, a quoted character tells the character and ends where it does. -/
theorem eq_of_quotedChar_append {c d : Char} {x y : List Char}
    (h : quotedChar c ++ x = quotedChar d ++ y) : c = d ∧ x = y := by
  have hc := quotedAs_quotedChar c
  have hd := quotedAs_quotedChar d
  generalize quotedChar c = cs at hc h
  generalize quotedChar d = ds at hd h
  cases hc with
  | itself hc =>
    cases hd with
    | itself hd => exact List.cons.inj h
    | letter e hd => exact absurd (List.cons.inj h).1 hc
    | codePoint => exact absurd (List.cons.inj h).1 hc
  | letter e hc =>
    cases hd with
    | itself hd => exact absurd (List.cons.inj h).1.symm hd
    | letter f hd =>
      obtain ⟨rfl, rfl⟩ := List.cons.inj (List.cons.inj h).2
      exact ⟨Char.toNat_inj.mp (eq_of_mem_letters _ hc _ hd rfl), rfl⟩
    | codePoint =>
      obtain ⟨rfl, -⟩ := List.cons.inj (List.cons.inj h).2
      exact absurd rfl (letter_ne_u _ hc)
  | codePoint =>
    cases hd with
    | itself hd => exact absurd (List.cons.inj h).1.symm hd
    | letter f hd =>
      obtain ⟨rfl, -⟩ := List.cons.inj (List.cons.inj h).2
      exact absurd rfl (letter_ne_u _ hd)
    | codePoint =>
      refine eq_of_codePoint_append ?_
      simpa using h

/-! ## Texts -/

theorem eq_of_flatMap_quotedChar {cs ds : List Char}
    (h : cs.flatMap quotedChar = ds.flatMap quotedChar) : cs = ds := by
  have hne (c : Char) : quotedChar c ≠ [] := by
    have hc := quotedAs_quotedChar c
    intro h
    rw [h] at hc
    cases hc
  induction cs generalizing ds with
  | nil =>
    cases ds with
    | nil => rfl
    | cons d ds => simp [hne] at h
  | cons c cs ih =>
    cases ds with
    | nil => simp [hne] at h
    | cons d ds =>
      rw [List.flatMap_cons, List.flatMap_cons] at h
      obtain ⟨rfl, hrest⟩ := eq_of_quotedChar_append h
      rw [ih hrest]

theorem quoted_inj {s t : String} : quoted s = quoted t ↔ s = t := by
  constructor
  · intro h
    rw [quoted, quoted, String.ofList_inj] at h
    have hquoted := List.append_cancel_right (List.cons.inj h).2
    exact String.toList_inj.mp (eq_of_flatMap_quotedChar hquoted)
  · intro h
    rw [h]

end Strongbox.Text
