/-
  Strongbox.Proofs.Text.Name — names that are read up to blanks and the case of letters.

  A name is looked up by its trimmed text in upper case, and two names count as the same when
  their texts agree in lower case.
  - `trim_eq_self`: a text without blanks has nothing to trim.
  - `sameLetters_iff_toUpper`: texts of the same letters have one text in upper case.
-/

import Strongbox.Text.Blank

namespace Strongbox.Text

theorem trim_eq_self {s : String} (h : ∀ c ∈ s.toList, isBlankChar c = false) :
    trim s = s := by
  have hd (cs : List Char) (hs : ∀ c ∈ cs, isBlankChar c = false) :
      cs.dropWhile isBlankChar = cs :=
    dropWhile_eq_self fun c hc => hs c (List.mem_of_mem_head? hc)
  rw [trim, trimChars, hd _ h, trimEnd, hd _ fun c hc => h c (List.mem_reverse.mp hc),
    List.reverse_reverse, String.ofList_toList]

/-! ## The case of letters -/

/-- The text in upper case, as a list that evaluates. -/
theorem toUpper_eq (s : String) : s.toUpper = String.ofList (s.toList.map Char.toUpper) := by
  rw [← String.toList_inj, String.toList_ofList]
  exact String.toList_map

theorem toLower_eq (s : String) : s.toLower = String.ofList (s.toList.map Char.toLower) := by
  rw [← String.toList_inj, String.toList_ofList]
  exact String.toList_map

theorem toUpper_char_of_not_ascii {c : Char} (h : ¬ c.toNat < 128) : c.toUpper = c := by
  refine dif_neg fun hc => h ?_
  exact Nat.lt_of_le_of_lt (UInt32.le_iff_toNat_le.mp hc.2) (by decide)

theorem toLower_char_of_not_ascii {c : Char} (h : ¬ c.toNat < 128) : c.toLower = c := by
  refine dif_neg fun hc => h ?_
  exact Nat.lt_of_le_of_lt (UInt32.le_iff_toNat_le.mp hc.2) (by decide)

theorem toUpper_toLower_of_ascii :
    ∀ n : Fin 128, (Char.ofNat n).toLower.toUpper = (Char.ofNat n).toUpper := by decide

theorem toUpper_toLower_char (c : Char) : c.toLower.toUpper = c.toUpper := by
  by_cases h : c.toNat < 128
  · rw [← Char.ofNat_toNat c]
    exact toUpper_toLower_of_ascii ⟨c.toNat, h⟩
  · rw [toLower_char_of_not_ascii h]

theorem toUpper_toLower (s : String) : s.toLower.toUpper = s.toUpper := by
  rw [toUpper_eq, toUpper_eq, toLower_eq, String.toList_ofList, List.map_map]
  congr 1
  exact List.map_congr_left fun c _ => toUpper_toLower_char c

theorem sameLetters_iff {s t : String} : sameLetters s t = true ↔ s.toLower = t.toLower := by
  rw [sameLetters, beq_iff_eq]

theorem sameLetters_of_toList {s t : String}
    (h : s.toList.map Char.toLower = t.toList.map Char.toLower) : sameLetters s t = true := by
  rw [sameLetters_iff, toLower_eq, toLower_eq, h]

theorem toUpper_of_sameLetters {s t : String} (h : sameLetters s t = true) :
    s.toUpper = t.toUpper := by
  rw [← toUpper_toLower s, sameLetters_iff.mp h, toUpper_toLower]

theorem toLower_toUpper_of_ascii :
    ∀ n : Fin 128, (Char.ofNat n).toUpper.toLower = (Char.ofNat n).toLower := by decide

theorem toLower_toUpper_char (c : Char) : c.toUpper.toLower = c.toLower := by
  by_cases h : c.toNat < 128
  · rw [← Char.ofNat_toNat c]
    exact toLower_toUpper_of_ascii ⟨c.toNat, h⟩
  · rw [toUpper_char_of_not_ascii h]

theorem toLower_toUpper (s : String) : s.toUpper.toLower = s.toLower := by
  rw [toLower_eq, toLower_eq, toUpper_eq, String.toList_ofList, List.map_map]
  congr 1
  exact List.map_congr_left fun c _ => toLower_toUpper_char c

theorem sameLetters_iff_toUpper {s t : String} :
    sameLetters s t = true ↔ s.toUpper = t.toUpper := by
  constructor
  · exact toUpper_of_sameLetters
  · intro h
    rw [sameLetters_iff, ← toLower_toUpper s, h, toLower_toUpper]

end Strongbox.Text
