/-
  Strongbox.Proofs.Text.Whole — where octets are those of a text.

  Octets that are well formed stay so together. The other way round a text can only be taken
  apart between two of its characters: the first octet of a character is no later octet of one.
  - `toString?_eq_none_iff`: octets give no text exactly when they are those of no characters.
  - `isText_around`: what stands around a character of a text is a text on either side.
  - `isText_append_left`: octets behind a text are a text exactly when the whole is one.
-/

import Strongbox.Proofs.Text.Octets

namespace Strongbox.Bytes

def IsText (b : Bytes) : Prop := ∃ cs : List Char, b = cs.flatMap String.utf8EncodeChar

theorem isText_ofString (s : String) : IsText (ofString s) := ⟨s.toList, ofString_eq s⟩

theorem toString?_eq_none_iff {b : Bytes} : toString? b = none ↔ ¬ IsText b := by
  constructor
  · rintro h ⟨cs, rfl⟩
    rw [← ofString_ofList, toString?_ofString] at h
    cases h
  · intro h
    cases hs : toString? b with
    | none => rfl
    | some s => exact absurd (eq_ofString_of_toString? hs ▸ isText_ofString s) h

/-! ## Texts together -/

theorem isText_nil : IsText [] := ⟨[], rfl⟩

theorem IsText.append {b b' : Bytes} (h : IsText b) (h' : IsText b') : IsText (b ++ b') := by
  obtain ⟨cs, rfl⟩ := h
  obtain ⟨cs', rfl⟩ := h'
  exact ⟨cs ++ cs', List.flatMap_append.symm⟩

theorem toNat_charOfNat {n : Nat} (h : n.isValidChar) : (Char.ofNat n).toNat = n := by
  rw [Char.ofNat, dif_pos h]
  exact UInt32.toNat_ofNatLT ..

theorem isText_of_ascii {b : Bytes} (h : ∀ x ∈ b, x.toNat < 128) : IsText b := by
  induction b with
  | nil => exact isText_nil
  | cons x b ih =>
    rw [List.forall_mem_cons] at h
    have hx : (Char.ofNat x.toNat).toNat = x.toNat := toNat_charOfNat (.inl (by omega))
    have hc : String.utf8EncodeChar (Char.ofNat x.toNat) = [x] := by
      rw [utf8EncodeChar_of_ascii (by omega), hx, UInt8.ofNat_toNat]
    obtain ⟨cs, rfl⟩ := ih h.2
    exact ⟨Char.ofNat x.toNat :: cs, by rw [List.flatMap_cons, hc]; rfl⟩

/-! ## Texts taken apart -/

theorem utf8EncodeChar_append_inj {c d : Char} {b b' : Bytes}
    (h : String.utf8EncodeChar c ++ b = String.utf8EncodeChar d ++ b') : c = d ∧ b = b' := by
  have hcd : c = d := by
    have hc := @ByteArray.utf8DecodeChar?_utf8EncodeChar_append b.toByteArray c
    have hd := @ByteArray.utf8DecodeChar?_utf8EncodeChar_append b'.toByteArray d
    rw [← List.toByteArray_append, h, List.toByteArray_append, hd] at hc
    exact (Option.some.inj hc).symm
  subst hcd
  exact ⟨rfl, List.append_cancel_left h⟩

theorem length_utf8EncodeChar_pos (c : Char) : 0 < (String.utf8EncodeChar c).length :=
  String.length_utf8EncodeChar c ▸ c.utf8Size_pos

theorem eq_nil_of_utf8EncodeChar_eq {c d : Char} {x z b b' : Bytes} (hx : x ≠ [])
    (h : String.utf8EncodeChar d = x ++ z) (hz : z ++ b = String.utf8EncodeChar c ++ b') :
    z = [] := by
  cases z with
  | nil => rfl
  | cons y z =>
    have hc := length_utf8EncodeChar_pos c
    have hy : (String.utf8EncodeChar c)[0] = y := by
      have h0 := congrArg (·[0]?) hz
      simp only [List.cons_append, List.getElem?_cons_zero, List.getElem?_append_left hc,
        List.getElem?_eq_getElem hc] at h0
      exact (Option.some.inj h0).symm
    have hl : x.length < (String.utf8EncodeChar d).length := by
      rw [h, List.length_append, List.length_cons]
      omega
    have hd : (String.utf8EncodeChar d)[x.length] = y := by
      simp only [h, List.getElem_append_right (Nat.le_refl _), Nat.sub_self, List.getElem_cons_zero]
    have hfirst := (@UInt8.isUTF8FirstByte_getElem_utf8EncodeChar c 0 hc).mpr rfl
    rw [hy, ← hd, UInt8.isUTF8FirstByte_getElem_utf8EncodeChar] at hfirst
    exact absurd (List.eq_nil_of_length_eq_zero hfirst) hx

/-- A character inside a text parts its characters. -/
theorem flatMap_eq_around {cs : List Char} {c : Char} {x y : Bytes}
    (h : cs.flatMap String.utf8EncodeChar = x ++ (String.utf8EncodeChar c ++ y)) :
    ∃ ds es, cs = ds ++ c :: es ∧ x = ds.flatMap String.utf8EncodeChar ∧
      y = es.flatMap String.utf8EncodeChar := by
  induction cs generalizing x with
  | nil =>
    have hl := congrArg List.length h
    have hc := length_utf8EncodeChar_pos c
    rw [List.flatMap_nil, List.length_append, List.length_append, List.length_nil] at hl
    omega
  | cons d cs ih =>
    rw [List.flatMap_cons] at h
    by_cases hx : x = []
    · subst hx
      obtain ⟨rfl, rfl⟩ := utf8EncodeChar_append_inj h
      exact ⟨[], cs, rfl, rfl, rfl⟩
    rcases List.append_eq_append_iff.mp h with ⟨x', rfl, h'⟩ | ⟨z, hd, h'⟩
    · obtain ⟨ds, es, rfl, rfl, rfl⟩ := ih h'
      exact ⟨d :: ds, es, rfl, rfl, rfl⟩
    · -- The place is inside the character `d`, unless it is behind it.
      obtain rfl := eq_nil_of_utf8EncodeChar_eq hx hd h'.symm
      rw [List.append_nil] at hd
      subst hd
      obtain ⟨ds, es, rfl, hds, rfl⟩ := ih (x := []) h'.symm
      exact ⟨d :: ds, es, rfl, by rw [List.flatMap_cons, ← hds, List.append_nil], rfl⟩

/-- So the octets on both sides of a character are texts. -/
theorem isText_around {c : Char} {x y : Bytes} (h : IsText (x ++ (String.utf8EncodeChar c ++ y))) :
    IsText x ∧ IsText y := by
  obtain ⟨cs, h⟩ := h
  obtain ⟨ds, es, -, hx, hy⟩ := flatMap_eq_around h.symm
  exact ⟨⟨ds, hx⟩, es, hy⟩

/-- Behind a text the octets are a text exactly when the whole is one. -/
theorem isText_append_left {b b' : Bytes} (h : IsText b) : IsText (b ++ b') ↔ IsText b' := by
  refine ⟨fun hb => ?_, h.append⟩
  obtain ⟨cs, rfl⟩ := h
  induction cs with
  | nil => exact hb
  | cons c cs ih =>
    rw [List.flatMap_cons, List.append_assoc] at hb
    exact ih (isText_around (x := []) hb).2

theorem isText_cons {x : UInt8} (hx : x.toNat < 128) {b : Bytes} : IsText (x :: b) ↔ IsText b :=
  @isText_append_left [x] _ (isText_of_ascii (by simpa using hx))

end Strongbox.Bytes
