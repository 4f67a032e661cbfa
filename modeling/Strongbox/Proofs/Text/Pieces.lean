/-
  Strongbox.Proofs.Text.Pieces — texts cut at a character, and blanks around their parts.

  A text that is cut at a character has one list of pieces: they do not have the character, and
  joined by it they are the text. Trimming takes the outer blanks of the parts only, since the
  character between them is no blank.
  - `splitOnChar_eq_iff`: the pieces of a text.
  - `splitAtChar?_eq_some`: the parts around the first occurrence.
  - `trim_blanks`, `splitAtChar?_trim`: trimming a text in parts.
-/

import Mathlib.Data.List.TakeDrop
import Strongbox.Text.Blank

namespace Strongbox.Text

/-! ## Pieces -/

structure Pieces (sep : Char) (s : String) (ps : List String) : Prop where
  ne_nil : ps ≠ []
  not_mem : ∀ p ∈ ps, sep ∉ p.toList
  eq_intercalate : s = (String.singleton sep).intercalate ps

/-- The characters are cut at every occurrence, and the first piece goes on from `acc`. -/
theorem splitOnChar_go (sep : Char) (cs acc : List Char) :
    splitOnChar.go sep cs acc =
      ((cs.splitOn sep).modifyHead (acc.reverse ++ ·)).map String.ofList := by
  induction cs generalizing acc with
  | nil => simp [splitOnChar.go]
  | cons c cs ih =>
    rw [splitOnChar.go, List.splitOn_cons_eq_if_modifyHead]
    by_cases h : c = sep
    · cases hs : cs.splitOn sep <;> simp [h, ih, hs]
    · simp [h, ih, Function.comp_def]

theorem splitOnChar_eq_splitOn (sep : Char) (s : String) :
    splitOnChar sep s = (s.toList.splitOn sep).map String.ofList := by
  rw [splitOnChar, splitOnChar_go]
  congr 1
  cases s.toList.splitOn sep <;> rfl

theorem not_mem_of_mem_splitOn {sep : Char} {cs p : List Char} (h : p ∈ cs.splitOn sep) :
    sep ∉ p := by
  induction cs generalizing p with
  | nil =>
    simp at h
    simp [h]
  | cons c cs ih =>
    rw [List.splitOn_cons_eq_if_modifyHead] at h
    by_cases hc : c = sep
    · simp only [hc, beq_self_eq_true, if_true, List.mem_cons] at h
      rcases h with rfl | h
      · exact List.not_mem_nil
      · exact ih h
    · cases hs : cs.splitOn sep with
      | nil => exact absurd hs (List.splitOn_ne_nil sep cs)
      | cons q qs =>
        simp only [hs, hc, beq_iff_eq, if_false, List.modifyHead_cons, List.mem_cons] at h
        rcases h with rfl | h
        · have hq := ih (p := q) (by simp [hs])
          simp [Ne.symm hc, hq]
        · exact ih (by simp [hs, h])

theorem splitOnChar_eq_iff {sep : Char} {s : String} {ps : List String} :
    splitOnChar sep s = ps ↔ Pieces sep s ps := by
  rw [splitOnChar_eq_splitOn]
  constructor
  · rintro rfl
    refine ⟨by simp, ?_, ?_⟩
    · intro p hp
      obtain ⟨cs, hcs, rfl⟩ := List.mem_map.mp hp
      rw [String.toList_ofList]
      exact not_mem_of_mem_splitOn hcs
    · rw [← String.toList_inj, String.toList_intercalate, String.toList_singleton, List.map_map]
      simp [Function.comp_def, List.intercalate_splitOn]
  · rintro ⟨hne, hmem, rfl⟩
    rw [String.toList_intercalate, String.toList_singleton, List.splitOn_intercalate]
    · simp [List.map_map, Function.comp_def]
    · simpa using hmem
    · simpa using hne

theorem exists_pieces (sep : Char) (s : String) : ∃ ps, Pieces sep s ps :=
  ⟨_, splitOnChar_eq_iff.mp rfl⟩

/-! ## Two parts -/

theorem splitAtChar?_eq_none {sep : Char} {s : String} :
    splitAtChar? sep s = none ↔ sep ∉ s.toList := by
  rw [splitAtChar?, List.span_eq_takeWhile_dropWhile]
  have hnone : s.toList.dropWhile (· != sep) = [] ↔ sep ∉ s.toList := by
    rw [dropWhile_eq_nil_iff_all, List.all_eq_true]
    constructor
    · intro h hmem
      exact bne_iff_ne.mp (h sep hmem) rfl
    · intro h c hc
      exact bne_iff_ne.mpr fun heq => h (heq ▸ hc)
  rw [← hnone]
  cases s.toList.dropWhile (· != sep) with
  | nil => exact iff_of_true rfl rfl
  | cons c cs => exact iff_of_false nofun nofun

theorem splitAtChar?_eq_some {sep : Char} {s l r : String} :
    splitAtChar? sep s = some (l, r) ↔ sep ∉ l.toList ∧ s = l ++ String.singleton sep ++ r := by
  rw [splitAtChar?, List.span_eq_takeWhile_dropWhile]
  constructor
  · intro h
    cases hd : s.toList.dropWhile (· != sep) with
    | nil => simp [hd] at h
    | cons c cs =>
      simp only [hd, Option.some.injEq, Prod.mk.injEq] at h
      obtain ⟨rfl, rfl⟩ := h
      have hc : c = sep := by simpa using head?_dropWhile_of_pos (p := (· != sep)) (by rw [hd]; rfl)
      refine ⟨?_, ?_⟩
      · intro hmem
        rw [String.toList_ofList] at hmem
        simpa using List.all_eq_true.mp List.all_takeWhile sep hmem
      · rw [← String.toList_inj]
        simp [← hc, ← hd]
  · rintro ⟨hmem, rfl⟩
    have hl : ∀ c ∈ l.toList, (c != sep) = true := by
      intro c hc
      exact bne_iff_ne.mpr fun h => hmem (h ▸ hc)
    simp [List.takeWhile_append_of_pos hl, List.dropWhile_append_of_pos hl]

/-! ## Trimming -/

theorem dropWhile_append_of_all {p : Char → Bool} {cs : List Char} (h : cs.all p = true)
    (ds : List Char) : (cs ++ ds).dropWhile p = ds.dropWhile p :=
  List.dropWhile_append_of_pos fun c hc => List.all_eq_true.mp h c hc

theorem trimEnd_append_of_all {ds : List Char} (h : ds.all isBlankChar = true) (cs : List Char) :
    trimEnd (cs ++ ds) = trimEnd cs := by
  rw [trimEnd, List.reverse_append, dropWhile_append_of_all (by rw [List.all_reverse]; exact h),
    trimEnd]

theorem trim_blanks {front back : String} (hfront : isBlank front = true)
    (hback : isBlank back = true) (s : String) : trim (front ++ s ++ back) = trim s := by
  rw [isBlank] at hfront hback
  rw [trim, trim, String.toList_append, String.toList_append, trimChars, trimChars,
    List.append_assoc, dropWhile_append_of_all hfront]
  congr 1
  rw [List.dropWhile_append]
  by_cases h : s.toList.dropWhile isBlankChar = []
  · have hnone := (dropWhile_eq_nil_iff_all isBlankChar back.toList).mpr hback
    simp [h, hnone]
  · rw [if_neg (by simpa using h), trimEnd_append_of_all hback]

theorem exists_blanks (s : String) : ∃ front back, isBlank front = true ∧ isBlank back = true ∧
    s = front ++ trim s ++ back := by
  obtain ⟨ds, hds⟩ : ∃ ds, ds = s.toList.dropWhile isBlankChar := ⟨_, rfl⟩
  have hback : trimEnd ds ++ (ds.reverse.takeWhile isBlankChar).reverse = ds := by
    rw [trimEnd, ← List.reverse_append, List.takeWhile_append_dropWhile, List.reverse_reverse]
  refine ⟨String.ofList (s.toList.takeWhile isBlankChar),
    String.ofList (ds.reverse.takeWhile isBlankChar).reverse, ?_, ?_, ?_⟩
  · rw [isBlank, String.toList_ofList]
    exact List.all_takeWhile
  · rw [isBlank, String.toList_ofList, List.all_reverse]
    exact List.all_takeWhile
  · rw [← String.toList_inj, trim, trimChars, ← hds]
    simp only [String.toList_append, String.toList_ofList, List.append_assoc]
    rw [hback, hds, List.takeWhile_append_dropWhile]

theorem not_mem_of_isBlank {sep : Char} (hsep : isBlankChar sep = false) {s : String}
    (h : isBlank s = true) : sep ∉ s.toList := by
  intro hmem
  have := List.all_eq_true.mp h sep hmem
  rw [hsep] at this
  cases this

theorem splitAtChar?_trim {sep : Char} (hsep : isBlankChar sep = false) (s : String) :
    (splitAtChar? sep (trim s)).map (Prod.map trim trim) =
      (splitAtChar? sep s).map (Prod.map trim trim) := by
  obtain ⟨front, back, hfront, hback, hs⟩ := exists_blanks s
  have hnot := not_mem_of_isBlank hsep hfront
  cases ht : splitAtChar? sep (trim s) with
  | none =>
    have hnone : splitAtChar? sep s = none := by
      rw [splitAtChar?_eq_none] at ht ⊢
      rw [hs]
      simp [hnot, ht, not_mem_of_isBlank hsep hback]
    rw [hnone]
  | some parts =>
    obtain ⟨l, r⟩ := parts
    obtain ⟨hl, ht⟩ := splitAtChar?_eq_some.mp ht
    have hparts : splitAtChar? sep s = some (front ++ l, r ++ back) := by
      refine splitAtChar?_eq_some.mpr ⟨by simp [hnot, hl], ?_⟩
      rw [hs, ht]
      simp only [String.append_assoc]
    have hempty : isBlank "" = true := rfl
    have hleft : trim (front ++ l) = trim l := by simpa using trim_blanks hfront hempty l
    have hright : trim (r ++ back) = trim r := by simpa using trim_blanks hempty hback r
    simp only [hparts, Option.map_some, Prod.map_apply, hleft, hright]

end Strongbox.Text
